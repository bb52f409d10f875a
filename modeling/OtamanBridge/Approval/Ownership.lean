import OtamanBridge.Approval.Invariants

/-!
# Who owns an entry of the table

The table is keyed by the request id the client chose, and `handle_approval` pops by
that id on both its ways out, whoever wrote the entry. So a second call with the id of
a call in flight takes its entry over, and the first of the two to return removes the
entry of the other. A call that registers after `cancel_all` took its objects is in
nobody's list, and waits for its whole deadline.

`OtamanBridge.Approval.FreshIds` is the condition under which neither happens, and
`OtamanBridge.Approval.Owned` what then holds in every state reached.
-/

namespace OtamanBridge

namespace Approval

variable {cfg : Config} {ls : List Label} {s s' : State} {l : Label}

/-- An object somebody has answered: its event is set and there is a response, so
`event.wait` returns at once. -/
def Call.Answered (k : Call) : Prop :=
  k.pending.event = true ∧ k.pending.response.isSome

/-- **Every call owns its entry**: a call that returns takes its own entry out and no
other, every call in flight is reachable under its id until it returns or the shutdown
takes it over, and once the shutdown is through nobody is left waiting. -/
structure Owned (cfg : Config) (s : State) : Prop where
  /-- What a returning call does to the table. -/
  leave : ∀ {c s'}, step cfg s (.leave c) = some s' →
    ∀ rid c', s'.table.lookup rid = some c' ↔ s.table.lookup rid = some c' ∧ c' ≠ c
  /-- A `resolve` of its id finds the call. -/
  reachable : ∀ {c k}, s.stop = .running → s.calls c = some k → k.phase.InFlight →
    s.table.lookup k.request.requestId = some c
  /-- The sweep of the shutdown has the call in its list, or has answered it. -/
  swept : ∀ {c k}, s.stop ≠ .running → s.calls c = some k → k.phase.InFlight →
    c ∈ s.stop.todo ∨ k.Answered
  /-- When `cancel_all` has returned no call is left to its deadline. -/
  closed : ∀ {c k}, s.stop = .swept ∨ s.stop = .closed → s.calls c = some k →
    k.phase.InFlight → k.Answered

/-- A call registers an id that is not in the table, and before the shutdown. -/
def FreshIds (s : State) : Label → Prop
  | .register c => s.stop = .running ∧
      ∀ k, s.calls c = some k → s.table.lookup k.request.requestId = none
  | _ => True

/-- A run of a daemon whose calls all register fresh ids. -/
abbrev ReachesFresh (cfg : Config) (ls : List Label) (s : State) : Prop :=
  Lts.Run (Lts.Under FreshIds (Lts.ofStep (step cfg))) State.init ls s

/-! ### The invariant -/

/-- The table before the shutdown, and the list of the sweep after it, have every call
in flight. -/
structure Owns (s : State) : Prop where
  reachable : ∀ {c k}, s.stop = .running → s.calls c = some k → k.phase.InFlight →
    s.table.lookup k.request.requestId = some c
  cleared : s.stop ≠ .running → s.table = ∅
  swept : ∀ {c k}, s.stop ≠ .running → s.calls c = some k → k.phase.InFlight →
    c ∈ s.stop.todo ∨ k.Answered
  /-- Between its response and its event an object has a response. -/
  setting : ∀ {c todo k}, s.stop = .setting c todo → s.calls c = some k →
    k.phase.InFlight → k.pending.response.isSome

theorem Owns.init : Owns State.init where
  reachable _ hk := by simp [State.init] at hk
  cleared h := absurd rfl h
  swept h := absurd rfl h
  setting h := by simp [State.init] at h

/-- A call is in flight from its table write on. -/
theorem CallChange.inFlight_of {c : CallId} {k k' : Call} (h : CallChange s c k l k')
    (hfl : k'.phase.InFlight) : k.phase.InFlight ∨ l = .register c ∧ k.phase = .built := by
  cases h with
  | move hm =>
    cases hm with
    | build h => simp [Phase.InFlight] at hfl
    | sendReturned h | sendRaised h | sendGaveUp h | expire h | block h | poll h | wake h =>
      rw [h]
      exact .inl trivial
  | register hp => exact .inr ⟨rfl, hp⟩
  | leaveFailing | leaveAnswered => simp [Phase.InFlight] at hfl
  | _ => exact .inl hfl

/-- A call in flight was in flight already, or has just been registered. -/
theorem Step.inFlight_of (h : Step cfg s l s') {c : CallId} {k' : Call}
    (hk' : s'.calls c = some k') (hfl : k'.phase.InFlight) :
    ∃ k, s.calls c = some k ∧ CallChange s c k l k' ∧
      (k.phase.InFlight ∨ l = .register c ∧ k.phase = .built) := by
  rcases hk : s.calls c with _ | k
  · obtain ⟨-, _, _, _, -, -, rfl⟩ := h.call_new hk hk'
    simp [Phase.InFlight] at hfl
  · obtain ⟨k'', hk'', hch⟩ := h.call hk
    obtain rfl := Option.some.inj (hk''.symm.trans hk')
    exact ⟨k, rfl, hch, hch.inFlight_of hfl⟩

/-- A response is never taken back while the call is in flight. -/
theorem CallChange.response_isSome {c : CallId} {k k' : Call} (h : CallChange s c k l k')
    (hfl : k.phase.InFlight) (hr : k.pending.response.isSome) :
    k'.pending.response.isSome := by
  cases h with
  | move hm =>
    cases hm with
    | build h => simp [h, Phase.InFlight] at hfl
    | _ => exact hr
  | snoozeExtend =>
    simp only [PendingApproval.extendBy]
    split <;> exact hr
  | write | sweepWrite => rfl
  | _ => exact hr

/-- An answered call stays answered. -/
theorem CallChange.answered {c : CallId} {k k' : Call} (h : CallChange s c k l k')
    (hfl : k.phase.InFlight) (ha : k.Answered) : k'.Answered := by
  refine ⟨?_, h.response_isSome hfl ha.2⟩
  cases h with
  | move hm =>
    cases hm with
    | build h => simp [h, Phase.InFlight] at hfl
    | _ => exact ha.1
  | snoozeExtend =>
    simp only [PendingApproval.extendBy]
    split <;> exact ha.1
  | set | sweepSet => rfl
  | _ => exact ha.1

/-- The shutdown is not undone. -/
theorem Step.running (h : Step cfg s l s') (hs : s'.stop = .running) : s.stop = .running := by
  cases h with
  | stop hs' => exact hs'
  | sweepWrite | sweepSet | sweepReturn | closeServer => cases hs
  | _ => exact hs

/-- The sweep drops an object from its list when it sets its event. -/
theorem Step.todo_keep (h : Step cfg s l s') {c : CallId} (hc : c ∈ s.stop.todo) :
    c ∈ s'.stop.todo ∨ l = .sweepSet ∧ ∃ todo, s.stop = .setting c todo := by
  cases h with
  | stop hs => simp [hs, StopPhase.todo] at hc
  | sweepWrite hs =>
    rw [hs] at hc
    exact .inl hc
  | sweepSet hs =>
    rw [hs] at hc
    rcases List.mem_cons.mp hc with rfl | hc
    · exact .inr ⟨rfl, _, hs⟩
    · exact .inl hc
  | sweepReturn hs => simp [hs, StopPhase.todo] at hc
  | closeServer hs => simp [hs, StopPhase.todo] at hc
  | _ => exact .inl hc

/-- A `leave` step ends in the answer. -/
theorem Step.leave_returned {c : CallId} (h : Step cfg s (.leave c) s') :
    ∃ k r, s'.calls c = some k ∧ k.phase = .returned r := by
  cases h with
  | silent hl => exact hl.elim
  | leaveFailing => exact ⟨_, _, State.setCall_calls_self _ _ _, rfl⟩
  | leaveAnswered => exact ⟨_, _, State.setCall_calls_self _ _ _, rfl⟩

theorem Owns.reachable_step (ho : Owns s) (hc : FreshIds s l) (h : Step cfg s l s')
    {c : CallId} {k' : Call} (hrun : s'.stop = .running) (hk' : s'.calls c = some k')
    (hfl' : k'.phase.InFlight) : s'.table.lookup k'.request.requestId = some c := by
  have hrun₀ := h.running hrun
  obtain ⟨k, hk, hch, hfl | ⟨rfl, hp⟩⟩ := h.inFlight_of hk' hfl'
  · rw [hch.request.1]
    have hl := ho.reachable hrun₀ hk hfl
    have htab := h.table
    generalize ht : s'.table = t at htab ⊢
    cases htab with
    | same => exact hl
    | @insert c₀ k₀ hk₀ hp₀ =>
      -- the id that is written was free, so it is not ours
      have hne : k.request.requestId ≠ k₀.request.requestId := by
        intro heq
        rw [heq, hc.2 _ hk₀] at hl
        cases hl
      rw [AList.lookup_insert_ne hne, hl]
    | @erase c₀ k₀ hk₀ hp₀ =>
      -- two calls in flight have different ids, and ours has not left
      have hfl₀ : k₀.phase.InFlight := by
        rcases hp₀ with ⟨m, hp₀⟩ | ⟨r, hp₀⟩ <;> rw [hp₀] <;> trivial
      have hne : k.request.requestId ≠ k₀.request.requestId := by
        intro heq
        rw [heq, ho.reachable hrun₀ hk₀ hfl₀] at hl
        obtain rfl := Option.some.inj hl
        obtain ⟨k₁, r, hk₁, hp₁⟩ := h.leave_returned
        obtain rfl := Option.some.inj (hk'.symm.trans hk₁)
        rw [hp₁] at hfl'
        exact hfl'
      rw [AList.lookup_erase_ne hne, hl]
    | clear =>
      cases h with
      | silent hr => exact hr.elim
      | stop => cases hrun
  · cases h with
    | silent hr => exact hr.elim
    | register hk₀ hp₀ =>
      obtain rfl := Option.some.inj (hk.symm.trans hk₀)
      rw [hch.request.1]
      exact AList.lookup_insert _

theorem Owns.cleared_step (ho : Owns s) (hc : FreshIds s l) (h : Step cfg s l s')
    (hstop : s'.stop ≠ .running) : s'.table = ∅ := by
  by_cases hrun : s.stop = .running
  · cases h with
    | stop => rfl
    | sweepWrite hs | sweepSet hs | sweepReturn hs | closeServer hs => simp [hs] at hrun
    | _ => exact absurd hrun hstop
  · have ht := ho.cleared hrun
    have htab := h.table
    generalize s'.table = t at htab ⊢
    cases htab with
    | same => exact ht
    | insert => exact absurd hc.1 hrun
    | erase =>
      rw [ht]
      rfl
    | clear => rfl

theorem Owns.swept_step (ho : Owns s) (hc : FreshIds s l) (h : Step cfg s l s') {c : CallId}
    {k' : Call} (hstop : s'.stop ≠ .running) (hk' : s'.calls c = some k')
    (hfl' : k'.phase.InFlight) : c ∈ s'.stop.todo ∨ k'.Answered := by
  obtain ⟨k, hk, hch, hcase⟩ := h.inFlight_of hk' hfl'
  by_cases hrun : s.stop = .running
  · -- the sweep starts now, with everything the table has
    cases h with
    | stop hs =>
      have hfl : k.phase.InFlight := by
        rcases hcase with hfl | ⟨hl, -⟩
        · exact hfl
        · cases hl
      have hl := ho.reachable hrun hk hfl
      exact .inl (List.mem_map_of_mem (f := Sigma.snd) (AList.mem_lookup_iff.mp hl))
    | sweepWrite hs | sweepSet hs | sweepReturn hs | closeServer hs => simp [hs] at hrun
    | _ => exact absurd hrun hstop
  · have hfl : k.phase.InFlight := by
      rcases hcase with hfl | ⟨rfl, -⟩
      · exact hfl
      · exact absurd hc.1 hrun
    rcases ho.swept hrun hk hfl with htodo | ha
    · rcases h.todo_keep htodo with hkeep | ⟨rfl, todo, hs⟩
      · exact .inl hkeep
      · -- this step sets the event of the head of the list
        cases h with
        | silent hr => exact hr.elim
        | @sweepSet c₀ todo₀ hs₀ =>
          rcases eq_or_ne c c₀ with rfl | hne
          · have hresp := ho.setting hs₀ hk hfl
            obtain rfl := Option.some.inj (hk'.symm.trans (State.modifyPending_calls_self _ _ hk))
            exact .inr ⟨rfl, hresp⟩
          · rw [hs₀] at htodo
            exact .inl ((List.mem_cons.mp htodo).resolve_left hne)
    · exact .inr (hch.answered hfl ha)

theorem Owns.setting_step (ho : Owns s) (hc : FreshIds s l) (h : Step cfg s l s') {c : CallId}
    {todo : List CallId} {k' : Call} (hstop : s'.stop = .setting c todo)
    (hk' : s'.calls c = some k') (hfl' : k'.phase.InFlight) :
    k'.pending.response.isSome := by
  obtain ⟨k, hk, hch, hcase⟩ := h.inFlight_of hk' hfl'
  by_cases hset : s.stop = .setting c todo
  · have hfl : k.phase.InFlight := by
      rcases hcase with hfl | ⟨rfl, -⟩
      · exact hfl
      · have hrun := hc.1
        simp [hset] at hrun
    exact hch.response_isSome hfl (ho.setting hset hk hfl)
  · cases h with
    | sweepWrite hs =>
      obtain ⟨rfl, rfl⟩ := StopPhase.setting.inj hstop
      obtain rfl := Option.some.inj (hk'.symm.trans (State.modifyPending_calls_self _ _ hk))
      rfl
    | stop | sweepSet | sweepReturn | closeServer => cases hstop
    | _ => exact absurd hstop hset

theorem Owns.step (ho : Owns s) (hc : FreshIds s l) (h : Step cfg s l s') : Owns s' where
  reachable hrun hk hfl := ho.reachable_step hc h hrun hk hfl
  cleared hstop := ho.cleared_step hc h hstop
  swept hstop hk hfl := ho.swept_step hc h hstop hk hfl
  setting hstop hk hfl := ho.setting_step hc h hstop hk hfl

theorem ReachesFresh.owns (h : ReachesFresh cfg ls s) : Owns s :=
  Lts.Run.inv_state Owns.init (fun _ _ _ ho hs => ho.step hs.1 (Step.of_step hs.2)) h

/-! ### The main result -/

/-- What a returning call takes out of a table where every call owns its entry. -/
theorem Owns.leave (ho : Owns s) (hw : Wf s) {c : CallId} (h : Step cfg s (.leave c) s')
    (rid : String) (c' : CallId) :
    s'.table.lookup rid = some c' ↔ s.table.lookup rid = some c' ∧ c' ≠ c := by
  obtain ⟨k, hk, hfl, ht⟩ : ∃ k, s.calls c = some k ∧ k.phase.InFlight ∧
      s'.table = s.table.erase k.request.requestId := by
    cases h with
    | silent hl => exact hl.elim
    | leaveFailing hk hp | leaveAnswered hk hp => exact ⟨_, hk, by rw [hp]; trivial, rfl⟩
  rw [ht]
  rcases eq_or_ne rid k.request.requestId with rfl | hne
  · -- the entry of this id is the call's own, if there is one
    rw [AList.lookup_erase]
    refine iff_of_false (by simp) ?_
    rintro ⟨hl, hne⟩
    refine hne ?_
    by_cases hrun : s.stop = .running
    · exact Option.some.inj (hl.symm.trans (ho.reachable hrun hk hfl))
    · simp [ho.cleared hrun] at hl
  · rw [AList.lookup_erase_ne hne]
    refine ⟨fun hl => ⟨hl, ?_⟩, And.left⟩
    rintro rfl
    obtain ⟨k₀, hk₀, -, hrid⟩ := hw.table hl
    obtain rfl := Option.some.inj (hk.symm.trans hk₀)
    exact hne hrid.symm

/-- **On the runs whose calls register fresh ids, every call owns its entry.** -/
theorem owned_of_freshIds (h : ReachesFresh cfg ls s) : Owned cfg s where
  leave hl := h.owns.leave (Reaches.wf h.of_under) (Step.of_step hl)
  reachable := h.owns.reachable
  swept := h.owns.swept
  closed hs hk hfl := by
    have hstop : s.stop ≠ .running := by rcases hs with hs | hs <;> simp [hs]
    refine (h.owns.swept hstop hk hfl).resolve_left ?_
    rcases hs with hs | hs <;> simp [hs, StopPhase.todo]

/-- A call up to its table write. -/
def oneCall : List Label :=
  [.postApproval 0 (some ⟨[], none, []⟩) 0 ⟨"r1", 540⟩, .move 0 .build]

/-- The whole shutdown of a daemon with one call in flight. -/
def oneCallShutdown : List Label :=
  oneCall ++ [.register 0] ++ [.stop, .sweepWrite, .sweepSet, .sweepReturn, .closeServer]

/-- A shutdown with one call in flight leaves nobody waiting. -/
theorem owned_of_freshIds_shutdown :
    ∃ s k, ReachesFresh ⟨[]⟩ oneCallShutdown s ∧ s.calls 0 = some k ∧
      k.phase = .sending 0 ∧ Owned ⟨[]⟩ s := by
  obtain ⟨a, ha, hpa⟩ := Lts.exists_exec (step ⟨[]⟩) State.init oneCall
    (fun s => s.table.lookup "r1" = none ∧ s.stop = .running ∧
      (s.calls 0).any fun k => k.request.requestId = "r1") (by decide +kernel)
  obtain ⟨htable, hstop, k₀, hk₀, hrid⟩ : a.table.lookup "r1" = none ∧ a.stop = .running ∧
      ∃ k, a.calls 0 = some k ∧ k.request.requestId = "r1" := by
    simpa [Option.any_eq_true] using hpa
  have hrun : ReachesFresh ⟨[]⟩ oneCall a := Lts.Run.under_append .nil rfl ha (by simp [FreshIds])
  obtain ⟨b, hb, -⟩ := Lts.exists_exec (step ⟨[]⟩) State.init (oneCall ++ [.register 0])
    (fun _ => true) (by decide +kernel)
  have hrun := hrun.under_snoc ha hb ⟨hstop, fun k hk => by
    obtain rfl := Option.some.inj (hk₀.symm.trans hk)
    rw [hrid, htable]⟩
  obtain ⟨s, hs, hps⟩ := Lts.exists_exec (step ⟨[]⟩) State.init oneCallShutdown
    (fun s => (s.calls 0).any fun k => k.phase = .sending 0) (by decide +kernel)
  obtain ⟨k, hk, hp⟩ : ∃ k, s.calls 0 = some k ∧ k.phase = .sending 0 := by
    simpa [Option.any_eq_true] using hps
  have hrun : ReachesFresh ⟨[]⟩ oneCallShutdown s := hrun.under_append hb hs (by simp [FreshIds])
  exact ⟨s, k, hrun, hk, hp, owned_of_freshIds hrun⟩

/-- Two calls with one id, the first of which loses its card. -/
def sharedId : List Label :=
  [.postApproval 0 (some ⟨[], none, []⟩) 0 ⟨"r1", 540⟩, .move 0 .build, .register 0,
    .postApproval 1 (some ⟨[], none, []⟩) 0 ⟨"r1", 540⟩, .move 1 .build, .register 1,
    .sendFails 0 "", .move 0 .sendRaised, .leave 0]

/-- A call whose connection is accepted before the shutdown and that registers
after it. -/
def lateRegistration : List Label :=
  [.postApproval 0 (some ⟨[], none, []⟩) 0 ⟨"r1", 540⟩, .move 0 .build,
    .stop, .sweepReturn, .closeServer, .register 0]

/-- **A shared id and a late registration break it**: the call that returns takes the
entry of the other call out, so that no `resolve` reaches it any more, and the call
that registers after the sweep waits for its whole deadline. -/
theorem not_owned_sharedId :
    (∃ s, Reaches ⟨[]⟩ sharedId s ∧ ¬Owned ⟨[]⟩ s) ∧
    ∃ s, Reaches ⟨[]⟩ lateRegistration s ∧ ¬Owned ⟨[]⟩ s := by
  constructor
  · obtain ⟨s, hrun, hs⟩ := Lts.exists_run_of_exec (step ⟨[]⟩) State.init sharedId
      (fun s => s.stop = .running ∧ s.table.lookup "r1" = none ∧
        (s.calls 1).any fun k => k.phase = .sending 0 ∧ k.request.requestId = "r1")
      (by decide +kernel)
    obtain ⟨hstop, htable, k, hk, hp, hrid⟩ : s.stop = .running ∧ s.table.lookup "r1" = none ∧
        ∃ k, s.calls 1 = some k ∧ k.phase = .sending 0 ∧ k.request.requestId = "r1" := by
      simpa [Option.any_eq_true] using hs
    refine ⟨s, hrun, fun ho => ?_⟩
    have hl := ho.reachable hstop hk (by rw [hp]; trivial)
    rw [hrid, htable] at hl
    cases hl
  · obtain ⟨s, hrun, hs⟩ := Lts.exists_run_of_exec (step ⟨[]⟩) State.init lateRegistration
      (fun s => s.stop = .closed ∧
        (s.calls 0).any fun k => k.phase = .sending 0 ∧ k.pending.event = false)
      (by decide +kernel)
    obtain ⟨hstop, k, hk, hp, he⟩ : s.stop = .closed ∧
        ∃ k, s.calls 0 = some k ∧ k.phase = .sending 0 ∧ k.pending.event = false := by
      simpa [Option.any_eq_true] using hs
    refine ⟨s, hrun, fun ho => ?_⟩
    have ha := ho.closed (.inr hstop) hk (by rw [hp]; trivial)
    rw [ha.1] at he
    cases he

end Approval

end OtamanBridge
