import OtamanBridge.Approval.Step

/-!
# What the daemon does with the name of a responder

Nothing: a response carries the name of its responder from the transport to the hook
and no step reads it. So two runs that differ only in which allowed user taps a card
go through the same states, up to these names. `OtamanBridge.Approval.State.anon`
forgets the names; the transition function commutes with it
(`OtamanBridge.Approval.step_anon`), and a run can be followed with any allowed user in
the place of another (`OtamanBridge.Approval.Reaches.follow`).
-/

namespace OtamanBridge

/-- The response without its responder. -/
def ApprovalResponse.anon (r : ApprovalResponse) : ApprovalResponse :=
  { r with responder := "" }

/-- The reply without its responder. -/
def InboundReply.anon (r : InboundReply) : InboundReply :=
  { r with responder := "" }

namespace Approval

/-- The object, with an anonymous response. -/
def PendingApproval.anon (p : PendingApproval) : PendingApproval :=
  { p with response := p.response.map .anon }

/-- The phase, with an anonymous response. -/
def Phase.anon : Phase → Phase
  | .leaving r => .leaving r.anon
  | .returned r => .returned r.anon
  | p => p

/-- The call, with an anonymous response. -/
def Call.anon (k : Call) : Call :=
  { k with phase := k.phase.anon, pending := k.pending.anon }

/-- The origin, with an anonymous reply. -/
def Origin.anon : Origin → Origin
  | .listener reply => .listener reply.anon
  | .http ctx => .http ctx

/-- The `resolve` call, with an anonymous response. -/
def Resolve.anon (r : Resolve) : Resolve :=
  { r with response := r.response.anon, origin := r.origin.anon }

/-- The state, without the names of the responders. -/
def State.anon (s : State) : State :=
  { s with
    calls := fun c => (s.calls c).map .anon
    resolves := fun i => (s.resolves i).map .anon
    inbound := s.inbound.map .anon }

@[simp] theorem anon_anon_response (r : ApprovalResponse) : r.anon.anon = r.anon := rfl

@[simp] theorem anon_anon_reply (r : InboundReply) : r.anon.anon = r.anon := rfl

@[simp] theorem Phase.anon_anon (p : Phase) : p.anon.anon = p.anon := by
  cases p <;> rfl

@[simp] theorem PendingApproval.anon_anon (p : PendingApproval) : p.anon.anon = p.anon := by
  cases p with
  | mk request event response handle deadline => cases response <;> rfl

@[simp] theorem Call.anon_anon (k : Call) : k.anon.anon = k.anon := by
  simp [Call.anon]

@[simp] theorem Origin.anon_anon (o : Origin) : o.anon.anon = o.anon := by
  cases o <;> rfl

@[simp] theorem Resolve.anon_anon (r : Resolve) : r.anon.anon = r.anon := by
  simp [Resolve.anon]

/-- A call moves in the same way under a name and without it. -/
theorem Call.anon_move (now : Seconds) (k : Call) (m : Move) :
    k.anon.move now m = (k.move now m).map .anon := by
  obtain ⟨request, phase, ⟨preq, event, response, handle, deadline⟩, send, _, _, _⟩ := k
  cases m with
  | build => cases phase <;> rfl
  | expire | block | poll | sendGaveUp =>
    cases phase <;> first | rfl | (simp only [Call.move, apply_ite (Option.map Call.anon)]; rfl)
  | sendReturned | sendRaised => cases phase <;> cases send <;> rfl
  | wake => cases phase <;> cases event <;> cases response <;> rfl

/-- A snooze pushes the deadline in the same way under a name and without it. -/
theorem PendingApproval.anon_extendBy (p : PendingApproval) (now seconds : Seconds) :
    p.anon.extendBy now seconds = (p.extendBy now seconds).anon := by
  by_cases h : p.deadline < now + seconds <;> simp [extendBy, anon, h]

/-! ### States that differ in names only -/

/-- Two states that are the same up to the names of the responders. -/
structure Alike (s t : State) : Prop where
  now : s.now = t.now
  calls : ∀ c, (s.calls c).map Call.anon = (t.calls c).map Call.anon
  table : s.table = t.table
  resolves : ∀ i, (s.resolves i).map Resolve.anon = (t.resolves i).map Resolve.anon
  snoozes : s.snoozes = t.snoozes
  reposts : s.reposts = t.reposts
  cards : s.cards = t.cards
  updates : s.updates = t.updates
  replyIndex : s.replyIndex = t.replyIndex
  inbound : s.inbound.map InboundReply.anon = t.inbound.map InboundReply.anon
  bus : s.bus = t.bus
  stop : s.stop = t.stop

variable {s t : State}

theorem alike_iff : Alike s t ↔ s.anon = t.anon := by
  constructor
  · intro h
    have hc : (fun c => (s.calls c).map Call.anon) = fun c => (t.calls c).map Call.anon :=
      funext h.calls
    have hr : (fun i => (s.resolves i).map Resolve.anon) =
        fun i => (t.resolves i).map Resolve.anon := funext h.resolves
    simp only [State.anon, hc, hr, h.now, h.table, h.snoozes, h.reposts, h.cards, h.updates,
      h.replyIndex, h.inbound, h.bus, h.stop]
  · intro h
    simp only [State.anon, State.mk.injEq] at h
    obtain ⟨now, calls, table, resolves, snoozes, reposts, cards, updates, replyIndex, inbound,
      bus, stop⟩ := h
    exact ⟨now, congrFun calls, table, congrFun resolves, snoozes, reposts, cards, updates,
      replyIndex, inbound, bus, stop⟩

theorem State.anon_alike (s : State) : Alike s.anon s := by
  rw [alike_iff]
  simp [State.anon, Function.comp_def]

theorem Alike.setCall (h : Alike s t) (c : CallId) {k k' : Call} (hk : k.anon = k'.anon) :
    Alike (s.setCall c k) (t.setCall c k') :=
  { h with
    calls := by
      intro c'
      rcases eq_or_ne c' c with rfl | hne
      · simp [hk]
      · simp [State.setCall_calls_ne _ _ hne, h.calls] }

theorem Alike.setResolve (h : Alike s t) (i : ℕ) {r r' : Resolve} (hr : r.anon = r'.anon) :
    Alike (s.setResolve i r) (t.setResolve i r') :=
  { h with
    resolves := by
      intro i'
      rcases eq_or_ne i' i with rfl | hne
      · simp [hr]
      · simp [State.setResolve_resolves_ne _ _ hne, h.resolves] }

theorem Alike.setSnooze (h : Alike s t) (i : ℕ) (z : Snooze) :
    Alike (s.setSnooze i z) (t.setSnooze i z) :=
  { h with snoozes := by simp only [State.setSnooze, h.snoozes] }

theorem Alike.setRepost (h : Alike s t) (j : ℕ) (q : Repost) :
    Alike (s.setRepost j q) (t.setRepost j q) :=
  { h with reposts := by simp only [State.setRepost, h.reposts] }

theorem Alike.setCard (h : Alike s t) (m : CardId) (d : Card) :
    Alike (s.setCard m d) (t.setCard m d) :=
  { h with cards := by simp only [State.setCard, h.cards] }

theorem Alike.postCard (h : Alike s t) (c : CallId) (m : CardId) (rid : String) :
    Alike (s.postCard c m rid) (t.postCard c m rid) := by
  have hcard := h.setCard m ⟨c, true⟩
  unfold State.postCard
  rw [h.replyIndex]
  generalize trimIndex (t.replyIndex ++ [(m, rid)]) = index
  exact { hcard with replyIndex := rfl }

theorem Alike.modifyPending (h : Alike s t) (c : CallId) {f g : PendingApproval → PendingApproval}
    (hfg : ∀ p p', p.anon = p'.anon → (f p).anon = (g p').anon) :
    Alike (s.modifyPending c f) (t.modifyPending c g) :=
  { h with
    calls := by
      intro c'
      rcases eq_or_ne c' c with rfl | hne
      · have hc := h.calls c'
        cases hs : s.calls c' <;> cases ht : t.calls c' <;> simp [hs, ht] at hc
        · simp [State.modifyPending, hs, ht]
        · rw [State.modifyPending_calls_self _ _ hs, State.modifyPending_calls_self _ _ ht]
          simp only [Call.anon, Call.mk.injEq] at hc
          obtain ⟨hreq, hphase, hpending, hsend, hpost, hbuilt, hsnoozed⟩ := hc
          simp only [Option.map_some, Call.anon, hreq, hphase, hfg _ _ hpending, hsend, hpost,
            hbuilt, hsnoozed]
      · simp [State.modifyPending_calls_ne _ _ hne, h.calls] }

theorem Alike.dispatch (h : Alike s t) (i : ℕ) {reply reply' : InboundReply}
    (hr : reply.anon = reply'.anon) : Alike (s.dispatch i reply) (t.dispatch i reply') := by
  simp only [InboundReply.anon, InboundReply.mk.injEq, true_and] at hr
  obtain ⟨hid, haction, hcomment⟩ := hr
  unfold State.dispatch
  rw [haction, hid, h.bus]
  cases reply'.action with
  | details => exact h
  | snooze => exact h.setSnooze i _
  | _ =>
    dsimp only
    split_ifs
    · exact h
    · first
      | exact h
      | exact h.setResolve i (by
          simp [Resolve.anon, ApprovalResponse.anon, Origin.anon, InboundReply.anon, *])

/-! ### One step -/

variable {α β γ δ : Type*}

theorem rel_bind {r : α → β → Prop} {q : γ → δ → Prop} {a : Option α} {b : Option β}
    {f : α → Option γ} {g : β → Option δ} (hab : Option.Rel r a b)
    (hfg : ∀ x y, r x y → Option.Rel q (f x) (g y)) : Option.Rel q (a.bind f) (b.bind g) := by
  cases hab with
  | none => exact .none
  | some hr => exact hfg _ _ hr

theorem rel_bind_self {q : γ → δ → Prop} (a : Option α) {f : α → Option γ}
    {g : α → Option δ} (hfg : ∀ x, Option.Rel q (f x) (g x)) :
    Option.Rel q (a.bind f) (a.bind g) := by
  cases a with
  | none => exact .none
  | some x => exact hfg x

theorem rel_ite {r : α → β → Prop} {p : Prop} [Decidable p] {a : α} {b : β}
    (h : p → r a b) :
    Option.Rel r (if p then some a else none) (if p then some b else none) := by
  by_cases hp : p
  · rw [if_pos hp, if_pos hp]
    exact .some (h hp)
  · rw [if_neg hp, if_neg hp]
    exact .none

/-- The calls of an anonymous state are the anonymous calls. -/
theorem State.rel_calls (s : State) (c : CallId) :
    Option.Rel (fun k k' => k = k'.anon) (s.anon.calls c) (s.calls c) := by
  show Option.Rel _ ((s.calls c).map Call.anon) (s.calls c)
  cases s.calls c with
  | none => exact .none
  | some k => exact .some rfl

theorem State.rel_resolves (s : State) (i : ℕ) :
    Option.Rel (fun r r' => r = r'.anon) (s.anon.resolves i) (s.resolves i) := by
  show Option.Rel _ ((s.resolves i).map Resolve.anon) (s.resolves i)
  cases s.resolves i with
  | none => exact .none
  | some k => exact .some rfl

/-- **The transition function does not read the name of a responder.** -/
theorem step_anon (cfg : Config) (s : State) (l : Label) :
    Option.Rel Alike (step cfg s.anon l) (step cfg s l) := by
  have hs := s.anon_alike
  cases l with
  | tick t => exact rel_ite fun _ => { hs with now := rfl }
  | callback uid data =>
    simp only [step]
    split_ifs
    · cases decodeCallback data with
      | none => exact .some hs
      | some p => exact .some { hs with inbound := by simp [State.anon, Function.comp_def] }
    · exact .some hs
  | replyMessage uid messageId text =>
    simp only [step]
    have hindex : s.anon.replyIndex = s.replyIndex := rfl
    rw [hindex]
    cases s.replyIndex.lookup messageId with
    | none => exact .some hs
    | some requestId =>
      dsimp only
      split_ifs
      · exact .some { hs with inbound := by simp [State.anon, Function.comp_def] }
      · exact .some hs
  | listen i =>
    simp only [step, State.anon]
    cases s.inbound with
    | nil => exact .none
    | cons reply rest =>
      have hrest : Alike { s.anon with inbound := rest.map .anon } { s with inbound := rest } :=
        { hs with inbound := by simp [Function.comp_def] }
      simp only [List.map_cons, Option.map_eq_none_iff]
      exact rel_ite fun _ => hrest.dispatch i rfl
  | bus requestId pending => exact .some { hs with bus := rfl }
  | postApproval c ctx postedAt request =>
    simp only [step, State.anon, ne_eq, Option.map_eq_none_iff]
    split_ifs
    · exact .none
    · cases ctx with
      | none => exact .some hs
      | some ctx => exact .some (hs.setCall c rfl)
  | postReply i ctx response =>
    simp only [step, State.anon, ne_eq, Option.map_eq_none_iff]
    split_ifs
    · exact .none
    · cases ctx <;> exact .some hs
    · cases ctx with
      | none => exact .some hs
      | some ctx => exact .some (hs.setResolve i rfl)
  | move c m =>
    refine rel_bind (s.rel_calls c) ?_
    rintro _ k rfl
    rw [Call.anon_move]
    show Option.Rel Alike (((k.move s.now m).map Call.anon).map _) _
    cases k.move s.now m with
    | none => exact .none
    | some k' => exact .some (hs.setCall c k'.anon_anon)
  | register c =>
    refine rel_bind (s.rel_calls c) ?_
    rintro _ k rfl
    cases hp : k.phase with
    | built =>
      simp only [Call.anon, Phase.anon, hp, if_true]
      exact .some { hs.setCall c (by simp [Call.anon, Phase.anon, State.anon]) with table := rfl }
    | _ => simp [Call.anon, Phase.anon, hp]
  | leave c =>
    refine rel_bind (s.rel_calls c) ?_
    rintro _ k rfl
    have hret : ∀ r r' edits, r.anon = r'.anon →
        Alike (s.anon.returnFrom c k.anon r edits) (s.returnFrom c k r' edits) := by
      intro r r' edits hr
      exact { hs.setCall c (by simp [Call.anon, Phase.anon, hr]) with table := rfl, updates := rfl }
    cases hp : k.phase with
    | failing message =>
      simp only [Call.anon, Phase.anon, hp]
      exact .some (hret _ _ _ rfl)
    | leaving r =>
      simp only [Call.anon, Phase.anon, hp]
      exact .some (hret _ _ _ rfl)
    | _ => simp [Call.anon, Phase.anon, hp]
  | sendPosts c card =>
    refine rel_bind (s.rel_calls c) ?_
    rintro _ k rfl
    exact rel_ite fun _ => (hs.setCall c (by simp [Call.anon])).postCard c card _
  | sendFails c message =>
    refine rel_bind (s.rel_calls c) ?_
    rintro _ k rfl
    exact rel_ite fun _ => hs.setCall c (by simp [Call.anon])
  | look i =>
    refine rel_bind (s.rel_resolves i) ?_
    rintro _ r rfl
    exact rel_ite fun _ => hs.setResolve i (by simp [Resolve.anon]; rfl)
  | write i =>
    refine rel_bind (s.rel_resolves i) ?_
    rintro _ r rfl
    cases hp : r.phase with
    | holding c =>
      simp only [Resolve.anon, hp]
      refine .some ((hs.setResolve i (by simp [Resolve.anon])).modifyPending c ?_)
      intro p p' hpp
      simp_all [PendingApproval.anon]
    | _ => simp [Resolve.anon, hp]
  | set i =>
    refine rel_bind (s.rel_resolves i) ?_
    rintro _ r rfl
    cases hp : r.phase with
    | written c =>
      simp only [Resolve.anon, hp]
      refine .some ((hs.setResolve i (by simp [Resolve.anon])).modifyPending c ?_)
      intro p p' hpp
      simp_all [PendingApproval.anon]
    | _ => simp [Resolve.anon, hp]
  | snoozeLook i =>
    exact rel_bind_self _ fun z => rel_ite fun _ => hs.setSnooze i _
  | snoozeExtend i =>
    refine rel_bind_self _ fun z => ?_
    cases z.phase with
    | extending c =>
      dsimp only [State.anon]
      cases s.calls c with
      | none => exact .none
      | some k =>
        refine .some ((hs.setCall c ?_).setSnooze i _)
        simp [Call.anon, PendingApproval.anon_extendBy]
    | _ => exact .none
  | snoozeSchedule i j =>
    refine rel_bind_self _ fun z => ?_
    cases z.phase with
    | scheduling c =>
      refine rel_bind (s.rel_calls c) ?_
      rintro _ k rfl
      refine rel_ite fun _ => ?_
      have hup : Alike { s.anon with updates := s.updates ++ k.pending.handle.toList }
          { s with updates := s.updates ++ k.pending.handle.toList } := { hs with updates := rfl }
      exact (hup.setRepost j _).setSnooze i _
    | _ => exact .none
  | repostWakes j =>
    refine rel_bind_self _ fun q => ?_
    cases q.phase with
    | sleeping till => exact rel_ite fun _ => hs.setRepost j _
    | _ => exact .none
  | repostPosts j card =>
    refine rel_bind_self _ fun q => ?_
    cases q.phase with
    | sending c => exact rel_ite fun _ => (hs.setRepost j _).postCard c card _
    | _ => exact .none
  | repostFails j =>
    refine rel_bind_self _ fun q => ?_
    cases q.phase with
    | sending c => exact .some (hs.setRepost j _)
    | _ => exact .none
  | repostStores j =>
    refine rel_bind_self _ fun q => ?_
    cases q.phase with
    | posted c card =>
      have hq := hs.setRepost j { q with phase := .done }
      have hmod := hq.modifyPending c (f := fun p => { p with handle := some card })
        (g := fun p => { p with handle := some card }) fun p p' hpp => by
          simp_all [PendingApproval.anon]
      show Option.Rel Alike (if s.table.lookup q.requestId = some c then _ else _)
        (if _ then _ else _)
      split_ifs
      · exact .some hmod
      · exact .some hq
    | _ => exact .none
  | repostCancelled j =>
    exact rel_bind_self _ fun q => rel_ite fun _ => hs.setRepost j _
  | update card ok =>
    have hcard : s.anon.cards card = s.cards card := rfl
    simp only [step, hcard]
    by_cases hu : card ∈ s.updates
    · have hu' : card ∈ s.anon.updates := hu
      rw [if_pos hu, if_pos hu']
      have hup : Alike { s.anon with updates := s.updates.erase card }
          { s with updates := s.updates.erase card } := { hs with updates := rfl }
      cases ok with
      | false => exact .some hup
      | true =>
        cases s.cards card with
        | none => exact .some hup
        | some d => exact .some (hup.setCard card _)
    · have hu' : card ∉ s.anon.updates := hu
      rw [if_neg hu, if_neg hu']
      exact .none
  | stop => exact rel_ite fun _ => { hs with table := rfl, stop := rfl }
  | sweepWrite =>
    simp only [step, hs.stop]
    cases s.stop with
    | sweeping todo =>
      cases todo with
      | nil => exact .none
      | cons c todo =>
        have hset : Alike { s.anon with stop := .setting c todo }
            { s with stop := .setting c todo } := { hs with stop := rfl }
        refine .some (hset.modifyPending c fun p p' hpp => ?_)
        simp_all [PendingApproval.anon]
    | _ => exact .none
  | sweepSet =>
    simp only [step, hs.stop]
    cases s.stop with
    | setting c todo =>
      have hset : Alike { s.anon with stop := .sweeping todo } { s with stop := .sweeping todo } :=
        { hs with stop := rfl }
      refine .some (hset.modifyPending c fun p p' hpp => ?_)
      simp_all [PendingApproval.anon]
    | _ => exact .none
  | sweepReturn => exact rel_ite fun _ => { hs with stop := rfl }
  | closeServer => exact rel_ite fun _ => { hs with stop := rfl }

/-! ### Runs -/

/-- Two labels that differ at most in which allowed user taps approve. -/
inductive SameButApprover (cfg : Config) : Label → Label → Prop
  | same (l : Label) : SameButApprover cfg l l
  | approve {u v data requestId} (hu : u ∈ cfg.allowedUserIds) (hv : v ∈ cfg.allowedUserIds)
      (hd : decodeCallback data = some (.approve, requestId)) :
      SameButApprover cfg (.callback u data) (.callback v data)

/-- A step is followed with another approver. -/
theorem Alike.step {cfg : Config} {l m : Label} {s' : State} (h : Alike s t)
    (hlm : SameButApprover cfg l m) (hl : step cfg s l = some s') :
    ∃ t', Approval.step cfg t m = some t' ∧ Alike s' t' := by
  -- the same label, on the state without names and back
  have same : ∃ t', Approval.step cfg t l = some t' ∧ Alike s' t' := by
    have hs := step_anon cfg s l
    have ht := step_anon cfg t l
    rw [alike_iff.mp h] at hs
    rw [hl] at hs
    cases hst : Approval.step cfg t.anon l with
    | none => simp [hst] at hs
    | some a =>
      rw [hst] at hs ht
      cases htl : Approval.step cfg t l with
      | none => simp [htl] at ht
      | some t' =>
        simp only [htl, Option.rel_some_some] at hs ht
        exact ⟨t', rfl, alike_iff.mpr ((alike_iff.mp hs).symm.trans (alike_iff.mp ht))⟩
  cases hlm with
  | same => exact same
  | @approve u v data requestId hu hv hd =>
    obtain ⟨t', ht', hs't'⟩ := same
    simp only [Approval.step, hu, hv, hd, if_true, Option.some.injEq] at ht' ⊢
    refine ⟨_, rfl, alike_iff.mpr ((alike_iff.mp hs't').trans ?_)⟩
    rw [← ht']
    simp [State.anon, InboundReply.anon]

/-- **A run is followed with any other approvers**: a run whose approve taps come from
other allowed users reaches the same state, up to the names of the responders. -/
theorem Reaches.follow {cfg : Config} {ls ms : List Label} {s : State} (h : Reaches cfg ls s)
    (hlm : List.Forall₂ (SameButApprover cfg) ls ms) : ∃ t, Reaches cfg ms t ∧ Alike s t := by
  have hinit : Alike State.init State.init := alike_iff.mpr rfl
  refine Lts.Run.simulate (S := Lts.ofStep (step cfg)) hinit ?_ h hlm
  intro s t l m s' ha hl hs
  exact ha.step hl hs

end Approval

end OtamanBridge
