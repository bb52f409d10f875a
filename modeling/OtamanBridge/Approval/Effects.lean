import OtamanBridge.Approval.Step

/-!
# What a step does to one component of the state

A step writes a few components and leaves the others alone. For each component an
invariant talks about, this module says once which steps write it and what they
write: a call that exists (`OtamanBridge.Approval.CallChange`), the table
(`OtamanBridge.Approval.TableChange`), a `resolve` call
(`OtamanBridge.Approval.ResolveChange`), a snooze, a repost, a card. An invariant of
one component is then proved by going through the few changes of that component
instead of through every step.

Every change names the label that makes it, so that an invariant which also reads
the run so far knows what was done.
-/

namespace OtamanBridge

namespace Approval

variable {cfg : Config} {s s' : State} {l : Label}

/-! ### Calls -/

/-- What a step may do to a call that exists. -/
inductive CallChange (s : State) (c : CallId) (k : Call) : Label → Call → Prop
  | same (l : Label) : CallChange s c k l k
  | move {m k'} (hm : k.Moves s.now m k') : CallChange s c k (.move c m) k'
  | register (hp : k.phase = .built) :
      CallChange s c k (.register c) { k with phase := .sending s.now, send := .inFlight }
  | leaveFailing {message} (hp : k.phase = .failing message) :
      CallChange s c k (.leave c)
        { k with phase := .returned (sendFailedResponse k.request message) }
  | leaveAnswered {r} (hp : k.phase = .leaving r) :
      CallChange s c k (.leave c) { k with phase := .returned r }
  | sendPosts {card} (hs : k.send = .inFlight) (hc : s.cards card = none) :
      CallChange s c k (.sendPosts c card) { k with send := .posted card }
  | sendFails {message} (hs : k.send = .inFlight) :
      CallChange s c k (.sendFails c message) { k with send := .failed message }
  | write {i r} (hr : s.resolves i = some r) (hp : r.phase = .holding c) :
      CallChange s c k (.write i)
        { k with pending := { k.pending with response := some r.response } }
  | set {i r} (hr : s.resolves i = some r) (hp : r.phase = .written c) :
      CallChange s c k (.set i) { k with pending := { k.pending with event := true } }
  | snoozeExtend {i z} (hz : s.snoozes i = some z) (hp : z.phase = .extending c) :
      CallChange s c k (.snoozeExtend i) { k with
        pending := k.pending.extendBy s.now (snoozeSeconds + 30),
        snoozedAt := k.snoozedAt ++ [s.now] }
  | repostStores {j q card} (hq : s.reposts j = some q) (hp : q.phase = .posted c card)
      (hl : s.table.lookup q.requestId = some c) :
      CallChange s c k (.repostStores j)
        { k with pending := { k.pending with handle := some card } }
  | sweepWrite {todo} (hs : s.stop = .sweeping (c :: todo)) :
      CallChange s c k .sweepWrite { k with pending :=
        { k.pending with response := some (shutdownResponse k.pending.request.requestId) } }
  | sweepSet {todo} (hs : s.stop = .setting c todo) :
      CallChange s c k .sweepSet { k with pending := { k.pending with event := true } }

/-- **A call that exists stays**, and a step changes it in one of these ways. -/
theorem Step.call (h : Step cfg s l s') {c : CallId} {k : Call} (hk : s.calls c = some k) :
    ∃ k', s'.calls c = some k' ∧ CallChange s c k l k' := by
  have same : ∀ {t : State}, t.calls c = s.calls c →
      ∃ k', t.calls c = some k' ∧ CallChange s c k l k' :=
    fun ht => ⟨k, ht.trans hk, .same l⟩
  -- a step that writes call `c₀`: either `c₀` is our call, or ours is untouched
  have set : ∀ {t : State} {c₀ k₀ k₁}, s.calls c₀ = some k₀ →
      t.calls = (s.setCall c₀ k₁).calls → (c = c₀ → k = k₀ → CallChange s c k l k₁) →
      ∃ k', t.calls c = some k' ∧ CallChange s c k l k' := by
    intro t c₀ k₀ k₁ hk₀ ht hch
    rcases eq_or_ne c c₀ with rfl | hne
    · refine ⟨k₁, ?_, hch rfl (Option.some.inj (hk.symm.trans hk₀))⟩
      rw [ht, State.setCall_calls_self]
    · exact same (by rw [ht, State.setCall_calls_ne _ _ hne])
  have modify : ∀ {t : State} {c₀ f}, t.calls = s.calls →
      (c = c₀ → CallChange s c k l { k with pending := f k.pending }) →
      ∃ k', (t.modifyPending c₀ f).calls c = some k' ∧ CallChange s c k l k' := by
    intro t c₀ f ht hch
    rcases eq_or_ne c c₀ with rfl | hne
    · exact ⟨_, State.modifyPending_calls_self _ _ (by rw [ht, hk]), hch rfl⟩
    · exact same (by rw [State.modifyPending_calls_ne _ _ hne, ht])
  cases h with
  | postApproval hs hc hp =>
    refine same (State.setCall_calls_ne _ _ ?_)
    rintro rfl
    simp [hk] at hc
  | move hk₀ hm =>
    refine set hk₀ rfl ?_
    rintro rfl rfl
    exact .move hm
  | register hk₀ hp =>
    refine set hk₀ rfl ?_
    rintro rfl rfl
    exact .register hp
  | leaveFailing hk₀ hp =>
    refine set hk₀ rfl ?_
    rintro rfl rfl
    exact .leaveFailing hp
  | leaveAnswered hk₀ hp =>
    refine set hk₀ rfl ?_
    rintro rfl rfl
    exact .leaveAnswered hp
  | sendPosts hk₀ hs hc =>
    refine set hk₀ rfl ?_
    rintro rfl rfl
    exact .sendPosts hs hc
  | sendFails hk₀ hs =>
    refine set hk₀ rfl ?_
    rintro rfl rfl
    exact .sendFails hs
  | write hr hp =>
    refine modify rfl ?_
    rintro rfl
    exact .write hr hp
  | set hr hp =>
    refine modify rfl ?_
    rintro rfl
    exact .set hr hp
  | snoozeExtend hz hp hk₀ =>
    refine set hk₀ rfl ?_
    rintro rfl rfl
    exact .snoozeExtend hz hp
  | repostStores hq hp hl =>
    refine modify rfl ?_
    rintro rfl
    exact .repostStores hq hp hl
  | sweepWrite hs =>
    refine modify rfl ?_
    rintro rfl
    exact .sweepWrite hs
  | sweepSet hs =>
    refine modify rfl ?_
    rintro rfl
    exact .sweepSet hs
  | _ => exact same rfl

/-- A call appears when an authorised `POST /approval` is accepted. -/
theorem Step.call_new (h : Step cfg s l s') {c : CallId} {k' : Call} (hk : s.calls c = none)
    (hk' : s'.calls c = some k') :
    s.stop ≠ .closed ∧ ∃ ctx postedAt request, l = .postApproval c (some ctx) postedAt request ∧
      postedAt ≤ s.now ∧ k' =
        { request, phase := .accepted, pending := .make s.now request, send := .idle,
          postedAt, builtAt := s.now, snoozedAt := [] } := by
  have same : ∀ {t : State} {p : Prop}, t.calls c = s.calls c → t.calls c = some k' → p := by
    intro t p ht ht'
    simp [← ht, ht'] at hk
  have set : ∀ {t : State} {c₀ k₀ k₁} {p : Prop}, s.calls c₀ = some k₀ →
      t.calls = (s.setCall c₀ k₁).calls → t.calls c = some k' → p := by
    intro t c₀ k₀ k₁ p hk₀ ht ht'
    refine same ?_ ht'
    rw [ht, State.setCall_calls_ne]
    rintro rfl
    simp [hk] at hk₀
  have modify : ∀ {t : State} {c₀ f} {p : Prop}, (t.modifyPending c₀ f).calls c = some k' →
      t.calls = s.calls → p := by
    intro t c₀ f p ht' ht
    refine same ?_ ht'
    rcases eq_or_ne c c₀ with rfl | hne
    · simp [ht, State.modifyPending, hk]
    · rw [State.modifyPending_calls_ne _ _ hne, ht]
  cases h with
  | @postApproval c₀ ctx postedAt request hs hc hp =>
    rcases eq_or_ne c c₀ with rfl | hne
    · rw [State.setCall_calls_self] at hk'
      exact ⟨hs, ctx, postedAt, request, rfl, hp, (Option.some.inj hk').symm⟩
    · exact same (State.setCall_calls_ne _ _ hne) hk'
  | move hk₀ hm => exact set hk₀ rfl hk'
  | register hk₀ hp => exact set hk₀ rfl hk'
  | leaveFailing hk₀ hp => exact set hk₀ rfl hk'
  | leaveAnswered hk₀ hp => exact set hk₀ rfl hk'
  | sendPosts hk₀ hs hc => exact set hk₀ rfl hk'
  | sendFails hk₀ hs => exact set hk₀ rfl hk'
  | write hr hp => exact modify hk' rfl
  | set hr hp => exact modify hk' rfl
  | snoozeExtend hz hp hk₀ => exact set hk₀ rfl hk'
  | repostStores hq hp hl => exact modify hk' rfl
  | sweepWrite hs => exact modify hk' rfl
  | sweepSet hs => exact modify hk' rfl
  | _ => exact same rfl hk'

/-- The phases of a call that has been registered stay registered. -/
theorem CallChange.registered {c : CallId} {k k' : Call} (h : CallChange s c k l k')
    (hp : k.phase.Registered) : k'.phase.Registered := by
  cases h with
  | move hm =>
    cases hm with
    | build h => simp [h, Phase.Registered] at hp
    | _ => trivial
  | same | sendPosts | sendFails | write | set | snoozeExtend | repostStores | sweepWrite
  | sweepSet => exact hp
  | _ => trivial

/-- What a call is for does not change. -/
theorem CallChange.request {c : CallId} {k k' : Call} (h : CallChange s c k l k') :
    k'.request = k.request ∧ k'.postedAt = k.postedAt := by
  cases h with
  | move hm => cases hm <;> exact ⟨rfl, rfl⟩
  | _ => exact ⟨rfl, rfl⟩

/-! ### The table -/

/-- What a step may do to the table. -/
inductive TableChange (s : State) : Label → PendingTable → Prop
  | same (l : Label) : TableChange s l s.table
  | insert {c k} (hk : s.calls c = some k) (hp : k.phase = .built) :
      TableChange s (.register c) (s.table.insert k.request.requestId c)
  | erase {c k} (hk : s.calls c = some k)
      (hp : (∃ message, k.phase = .failing message) ∨ ∃ r, k.phase = .leaving r) :
      TableChange s (.leave c) (s.table.erase k.request.requestId)
  | clear (hs : s.stop = .running) : TableChange s .stop ∅

theorem Step.table (h : Step cfg s l s') : TableChange s l s'.table := by
  cases h with
  | register hk hp => exact .insert hk hp
  | leaveFailing hk hp => exact .erase hk (.inl ⟨_, hp⟩)
  | leaveAnswered hk hp => exact .erase hk (.inr ⟨_, hp⟩)
  | stop hs => exact .clear hs
  | _ => exact .same _

/-- An entry that is new was written by its own call. -/
theorem TableChange.lookup {t : PendingTable} (h : TableChange s l t) {rid : String} {c : CallId}
    (hl : t.lookup rid = some c) :
    s.table.lookup rid = some c ∨
      ∃ k, l = .register c ∧ s.calls c = some k ∧ k.phase = .built ∧ k.request.requestId = rid := by
  cases h with
  | same => exact .inl hl
  | @insert c₀ k hk hp =>
    rcases eq_or_ne rid k.request.requestId with rfl | hne
    · rw [AList.lookup_insert] at hl
      obtain rfl := Option.some.inj hl
      exact .inr ⟨k, rfl, hk, hp, rfl⟩
    · rw [AList.lookup_insert_ne hne] at hl
      exact .inl hl
  | @erase c₀ k hk hp =>
    rcases eq_or_ne rid k.request.requestId with rfl | hne
    · simp at hl
    · rw [AList.lookup_erase_ne hne] at hl
      exact .inl hl
  | clear => simp at hl

/-! ### `resolve` calls -/

/-- What a step may do to a `resolve` call that exists. -/
inductive ResolveChange (s : State) (i : ℕ) (r : Resolve) : Label → Resolve → Prop
  | same (l : Label) : ResolveChange s i r l r
  | hit {c} (hp : r.phase = .looking) (hl : s.table.lookup r.requestId = some c) :
      ResolveChange s i r (.look i) { r with phase := .holding c }
  | miss (hp : r.phase = .looking) (hl : s.table.lookup r.requestId = none) :
      ResolveChange s i r (.look i) { r with phase := .done none }
  | write {c} (hp : r.phase = .holding c) :
      ResolveChange s i r (.write i) { r with phase := .written c }
  | set {c} (hp : r.phase = .written c) :
      ResolveChange s i r (.set i) { r with phase := .done (some c) }

/-- A `resolve` call that exists stays, and a step changes it in one of these ways. -/
theorem Step.resolve (h : Step cfg s l s') {i : ℕ} {r : Resolve} (hr : s.resolves i = some r) :
    ∃ r', s'.resolves i = some r' ∧ ResolveChange s i r l r' := by
  have same : ∀ {t : State}, t.resolves i = s.resolves i →
      ∃ r', t.resolves i = some r' ∧ ResolveChange s i r l r' :=
    fun ht => ⟨r, ht.trans hr, .same l⟩
  have set : ∀ {t : State} {i₀ r₀ r₁}, s.resolves i₀ = some r₀ →
      t.resolves = (s.setResolve i₀ r₁).resolves → (i = i₀ → r = r₀ → ResolveChange s i r l r₁) →
      ∃ r', t.resolves i = some r' ∧ ResolveChange s i r l r' := by
    intro t i₀ r₀ r₁ hr₀ ht hch
    rcases eq_or_ne i i₀ with rfl | hne
    · refine ⟨r₁, ?_, hch rfl (Option.some.inj (hr.symm.trans hr₀))⟩
      rw [ht, State.setResolve_resolves_self]
    · exact same (by rw [ht, State.setResolve_resolves_ne _ _ hne])
  have fresh : ∀ {t : State} {i₀ r₁}, s.resolves i₀ = none →
      t.resolves = (s.setResolve i₀ r₁).resolves →
      ∃ r', t.resolves i = some r' ∧ ResolveChange s i r l r' := by
    intro t i₀ r₁ hi ht
    refine same ?_
    rw [ht, State.setResolve_resolves_ne]
    rintro rfl
    simp [hr] at hi
  cases h with
  | decided hq hi ha hb => exact fresh hi rfl
  | postReply hs hi => exact fresh hi rfl
  | lookHit hr₀ hp hl =>
    refine set hr₀ rfl ?_
    rintro rfl rfl
    exact .hit hp hl
  | lookMiss hr₀ hp hl =>
    refine set hr₀ rfl ?_
    rintro rfl rfl
    exact .miss hp hl
  | write hr₀ hp =>
    refine set hr₀ rfl ?_
    rintro rfl rfl
    exact .write hp
  | set hr₀ hp =>
    refine set hr₀ rfl ?_
    rintro rfl rfl
    exact .set hp
  | _ => exact same rfl

/-- What a `resolve` call starts from: a decision the listener took from the
queue, or the body of an authorised `POST /reply`. -/
inductive ResolveStart (s : State) (i : ℕ) : Label → Resolve → Prop
  | listener {reply rest decision} (hq : s.inbound = reply :: rest)
      (ha : actionToDecision reply.action = some decision) (hb : s.bus reply.requestId = false) :
      ResolveStart s i (.listen i)
        { requestId := reply.requestId,
          response := ⟨decision, reply.requestId, reply.responder, reply.comment⟩,
          origin := .listener reply, phase := .looking }
  | http {ctx response} (hs : s.stop ≠ .closed) :
      ResolveStart s i (.postReply i (some ctx) response)
        { requestId := response.requestId, response, origin := .http ctx, phase := .looking }

theorem Step.resolve_new (h : Step cfg s l s') {i : ℕ} {r' : Resolve}
    (hr : s.resolves i = none) (hr' : s'.resolves i = some r') : ResolveStart s i l r' := by
  have same : ∀ {t : State}, t.resolves i = s.resolves i → t.resolves i = some r' →
      ResolveStart s i l r' := by
    intro t ht ht'
    simp [← ht, ht'] at hr
  have set : ∀ {t : State} {i₀ r₀ r₁}, s.resolves i₀ = some r₀ →
      t.resolves = (s.setResolve i₀ r₁).resolves → t.resolves i = some r' →
      ResolveStart s i l r' := by
    intro t i₀ r₀ r₁ hr₀ ht ht'
    refine same ?_ ht'
    rw [ht, State.setResolve_resolves_ne]
    rintro rfl
    simp [hr] at hr₀
  have fresh : ∀ {t : State} {i₀ r₁}, t.resolves = (s.setResolve i₀ r₁).resolves →
      t.resolves i = some r' → (i = i₀ → ResolveStart s i l r₁) → ResolveStart s i l r' := by
    intro t i₀ r₁ ht ht' hst
    rcases eq_or_ne i i₀ with rfl | hne
    · rw [ht, State.setResolve_resolves_self] at ht'
      obtain rfl := Option.some.inj ht'
      exact hst rfl
    · exact same (by rw [ht, State.setResolve_resolves_ne _ _ hne]) ht'
  cases h with
  | decided hq hi ha hb =>
    refine fresh rfl hr' ?_
    rintro rfl
    exact .listener hq ha hb
  | postReply hs hi =>
    refine fresh rfl hr' ?_
    rintro rfl
    exact .http hs
  | lookHit hr₀ hp hl => exact set hr₀ rfl hr'
  | lookMiss hr₀ hp hl => exact set hr₀ rfl hr'
  | write hr₀ hp => exact set hr₀ rfl hr'
  | set hr₀ hp => exact set hr₀ rfl hr'
  | _ => exact same rfl hr'

/-- The `resolve` call a label opens. -/
def Label.opens : Label → Option ℕ
  | .listen i => some i
  | .postReply i _ _ => some i
  | _ => none

/-- A `resolve` call of a run was opened by a label of the run. -/
theorem Reaches.opened {ls : List Label} (h : Reaches cfg ls s) {i : ℕ} {r : Resolve}
    (hr : s.resolves i = some r) : i ∈ ls.filterMap Label.opens := by
  refine Lts.Run.inv (I := fun ls s => ∀ i r, s.resolves i = some r → i ∈ ls.filterMap Label.opens)
    ?_ ?_ h i r hr
  · intro i r hr
    simp [State.init] at hr
  · intro ls s l s' _ ih hl i r' hr'
    rw [List.filterMap_append, List.mem_append]
    rcases hr : s.resolves i with _ | r
    · refine .inr (List.mem_filterMap.mpr ⟨l, List.mem_singleton_self l, ?_⟩)
      cases (Step.of_step hl).resolve_new hr hr' <;> rfl
    · exact .inl (ih i r hr)

/-- What a `resolve` call delivers does not change. -/
theorem ResolveChange.carries {i : ℕ} {r r' : Resolve} (h : ResolveChange s i r l r') :
    r'.requestId = r.requestId ∧ r'.response = r.response ∧ r'.origin = r.origin := by
  cases h <;> exact ⟨rfl, rfl, rfl⟩

/-! ### Snoozes and reposts -/

/-- An object a snooze holds was found in the table under the id of the snooze. -/
theorem Step.snooze_found (h : Step cfg s l s') {i : ℕ} {z' : Snooze} {c : CallId}
    (hz' : s'.snoozes i = some z') (hf : z'.phase.found = some c) :
    ∃ z, s.snoozes i = some z ∧ z.requestId = z'.requestId ∧
      (z.phase.found = some c ∨ s.table.lookup z'.requestId = some c) := by
  have same : ∀ {t : State}, t.snoozes i = some z' → t.snoozes = s.snoozes →
      ∃ z, s.snoozes i = some z ∧ z.requestId = z'.requestId ∧
        (z.phase.found = some c ∨ s.table.lookup z'.requestId = some c) :=
    fun ht he => ⟨z', he ▸ ht, rfl, .inl hf⟩
  -- a step that writes snooze `i₀`: either it is ours, or ours is untouched
  have set : ∀ {t : State} {i₀ z₁}, (t.setSnooze i₀ z₁).snoozes i = some z' →
      t.snoozes = s.snoozes → (i = i₀ → z₁ = z' → ∃ z, s.snoozes i = some z ∧
        z.requestId = z'.requestId ∧
        (z.phase.found = some c ∨ s.table.lookup z'.requestId = some c)) →
      ∃ z, s.snoozes i = some z ∧ z.requestId = z'.requestId ∧
        (z.phase.found = some c ∨ s.table.lookup z'.requestId = some c) := by
    intro t i₀ z₁ ht he hch
    rcases eq_or_ne i i₀ with rfl | hne
    · exact hch rfl (Option.some.inj ((State.setSnooze_snoozes_self ..).symm.trans ht))
    · exact same ((State.setSnooze_snoozes_ne _ _ hne).symm.trans ht) he
  cases h with
  | snoozed hq hi =>
    refine set hz' rfl ?_
    rintro rfl rfl
    simp [SnoozePhase.found] at hf
  | snoozeHit hz hp hl =>
    refine set hz' rfl ?_
    rintro rfl rfl
    obtain rfl := by simpa [SnoozePhase.found] using hf
    exact ⟨_, hz, rfl, .inr hl⟩
  | snoozeMiss hz hp hl =>
    refine set hz' rfl ?_
    rintro rfl rfl
    simp [SnoozePhase.found] at hf
  | snoozeExtend hz hp hk =>
    refine set hz' rfl ?_
    rintro rfl rfl
    exact ⟨_, hz, rfl, .inl (by rw [hp]; exact hf)⟩
  | snoozeSchedule hz hp hk hj =>
    refine set hz' rfl ?_
    rintro rfl rfl
    simp [SnoozePhase.found] at hf
  | _ => exact same hz' rfl

/-- A repost that has posted its card has just done so, or has not moved. -/
theorem Step.repost_posted (h : Step cfg s l s') {j : ℕ} {q' : Repost} {c : CallId}
    {m : CardId} (hq' : s'.reposts j = some q') (hp' : q'.phase = .posted c m) :
    ∃ q, s.reposts j = some q ∧ (q.phase = .posted c m ∧ q.requestId = q'.requestId ∨
      l = .repostPosts j m ∧ q.phase = .sending c ∧ s.cards m = none) := by
  have same : ∀ {t : State}, t.reposts j = some q' → t.reposts = s.reposts →
      ∃ q, s.reposts j = some q ∧ (q.phase = .posted c m ∧ q.requestId = q'.requestId ∨
        l = .repostPosts j m ∧ q.phase = .sending c ∧ s.cards m = none) :=
    fun ht he => ⟨q', he ▸ ht, .inl ⟨hp', rfl⟩⟩
  -- a repost that is written is in another phase, unless it has just posted
  have set : ∀ {t : State} {j₀ q₁}, (t.setRepost j₀ q₁).reposts j = some q' →
      t.reposts = s.reposts → q₁.phase ≠ .posted c m →
      ∃ q, s.reposts j = some q ∧ (q.phase = .posted c m ∧ q.requestId = q'.requestId ∨
        l = .repostPosts j m ∧ q.phase = .sending c ∧ s.cards m = none) := by
    intro t j₀ q₁ ht he hno
    rcases eq_or_ne j j₀ with rfl | hne
    · obtain rfl := Option.some.inj ((State.setRepost_reposts_self ..).symm.trans ht)
      exact absurd hp' hno
    · exact same ((State.setRepost_reposts_ne _ _ hne).symm.trans ht) he
  cases h with
  | snoozeSchedule hz hp hk hj => exact set hq' rfl (by simp)
  | repostHit hq hp ht hl => exact set hq' rfl (by simp)
  | repostMiss hq hp ht hl => exact set hq' rfl (by simp)
  | @repostPosts j₀ q c₀ m₀ hq hp hc =>
    rcases eq_or_ne j j₀ with rfl | hne
    · obtain rfl := Option.some.inj ((State.setRepost_reposts_self ..).symm.trans hq')
      obtain ⟨rfl, rfl⟩ := by simpa using hp'
      exact ⟨q, hq, .inr ⟨rfl, hp, hc⟩⟩
    · exact ⟨q', (State.setRepost_reposts_ne _ _ hne).symm.trans hq', .inl ⟨hp', rfl⟩⟩
  | repostFails hq hp => exact set hq' rfl (by simp)
  | repostStores hq hp hl => exact set hq' rfl (by simp)
  | repostDrops hq hp hl => exact set hq' rfl (by simp)
  | repostCancelled hq hs => exact set hq' rfl (by simp)
  | _ => exact same hq' rfl

/-- The repost a label schedules. -/
def Label.schedules : Label → Option ℕ
  | .snoozeSchedule _ j => some j
  | _ => none

/-- A repost is there from the snooze that scheduled it on. -/
theorem Step.repost_of (h : Step cfg s l s') {j : ℕ} {q' : Repost}
    (hq' : s'.reposts j = some q') : (∃ q, s.reposts j = some q) ∨ l.schedules = some j := by
  have set : ∀ {t : State} {j₀ q₀ q₁}, s.reposts j₀ = some q₀ → t.reposts = s.reposts →
      (t.setRepost j₀ q₁).reposts j = some q' → ∃ q, s.reposts j = some q := by
    intro t j₀ q₀ q₁ hq₀ he ht
    rcases eq_or_ne j j₀ with rfl | hne
    · exact ⟨q₀, hq₀⟩
    · exact ⟨q', he ▸ (State.setRepost_reposts_ne _ _ hne).symm.trans ht⟩
  cases h with
  | @snoozeSchedule i j₀ z c k hz hp hk hj =>
    rcases eq_or_ne j j₀ with rfl | hne
    · exact .inr rfl
    · exact .inl ⟨q', (State.setRepost_reposts_ne _ _ hne).symm.trans hq'⟩
  | repostHit hq hp ht hl => exact .inl (set hq rfl hq')
  | repostMiss hq hp ht hl => exact .inl (set hq rfl hq')
  | repostPosts hq hp hc => exact .inl (set hq rfl hq')
  | repostFails hq hp => exact .inl (set hq rfl hq')
  | repostStores hq hp hl => exact .inl (set hq rfl hq')
  | repostDrops hq hp hl => exact .inl (set hq rfl hq')
  | repostCancelled hq hs => exact .inl (set hq rfl hq')
  | _ => exact .inl ⟨q', hq'⟩

/-- A repost of a run was scheduled by a label of the run. -/
theorem Reaches.scheduled {ls : List Label} (h : Reaches cfg ls s) {j : ℕ} {q : Repost}
    (hq : s.reposts j = some q) : j ∈ ls.filterMap Label.schedules := by
  refine Lts.Run.inv
    (I := fun ls s => ∀ j q, s.reposts j = some q → j ∈ ls.filterMap Label.schedules) ?_ ?_ h j q hq
  · intro j q hq
    simp [State.init] at hq
  · intro ls s l s' _ ih hl j q' hq'
    rw [List.filterMap_append, List.mem_append]
    rcases (Step.of_step hl).repost_of hq' with ⟨q, hq⟩ | hsch
    · exact .inl (ih j q hq)
    · exact .inr (List.mem_filterMap.mpr ⟨l, List.mem_singleton_self l, hsch⟩)

/-! ### Cards -/

/-- How a card comes to have buttons. -/
inductive CardPosted (s : State) (c : CallId) (m : CardId) : Label → Prop
  | first {k} (hk : s.calls c = some k) (hs : k.send = .inFlight) (hc : s.cards m = none) :
      CardPosted s c m (.sendPosts c m)
  | again {j q} (hq : s.reposts j = some q) (hp : q.phase = .sending c) (hc : s.cards m = none) :
      CardPosted s c m (.repostPosts j m)

/-- A card with buttons had them already, or has just been posted. -/
theorem Step.card_live (h : Step cfg s l s') {m : CardId} {c : CallId}
    (hm : s'.cards m = some ⟨c, true⟩) :
    s.cards m = some ⟨c, true⟩ ∨ CardPosted s c m l := by
  have post : ∀ {t : State} {c₀ m₀ rid}, (t.postCard c₀ m₀ rid).cards m = some ⟨c, true⟩ →
      t.cards = s.cards → (c₀ = c → m₀ = m → CardPosted s c m l) →
      s.cards m = some ⟨c, true⟩ ∨ CardPosted s c m l := by
    intro t c₀ m₀ rid ht he hch
    rcases eq_or_ne m m₀ with rfl | hne
    · have := Option.some.inj ((State.postCard_cards_self ..).symm.trans ht)
      exact .inr (hch (congrArg Card.call this) rfl)
    · exact .inl (he ▸ (State.postCard_cards_ne _ _ _ hne).symm.trans ht)
  cases h with
  | sendPosts hk hs hc =>
    refine post hm rfl ?_
    rintro rfl rfl
    exact .first hk hs hc
  | repostPosts hq hp hc =>
    refine post hm rfl ?_
    rintro rfl rfl
    exact .again hq hp hc
  | @updated m₀ d hu hd =>
    rcases eq_or_ne m m₀ with rfl | hne
    · have := Option.some.inj ((State.setCard_cards_self ..).symm.trans hm)
      simp at this
    · exact .inl ((State.setCard_cards_ne _ _ hne).symm.trans hm)
  | _ => exact .inl hm

/-- A card that has lost its buttons never gets them back. -/
theorem Step.card_stripped (h : Step cfg s l s') {m : CardId} {c : CallId}
    (hm : s.cards m = some ⟨c, false⟩) : s'.cards m = some ⟨c, false⟩ := by
  have post : ∀ {t : State} {c₀ m₀ rid}, t.cards = s.cards → s.cards m₀ = none →
      (t.postCard c₀ m₀ rid).cards m = some ⟨c, false⟩ := by
    intro t c₀ m₀ rid he hc
    have hne : m ≠ m₀ := by
      rintro rfl
      rw [hm] at hc
      cases hc
    exact (State.postCard_cards_ne _ _ _ hne).trans (he ▸ hm)
  cases h with
  | sendPosts hk hs hc => exact post rfl hc
  | repostPosts hq hp hc => exact post rfl hc
  | @updated m₀ d hu hd =>
    rcases eq_or_ne m m₀ with rfl | hne
    · obtain rfl := Option.some.inj (hm.symm.trans hd)
      exact State.setCard_cards_self ..
    · exact (State.setCard_cards_ne _ _ hne).trans hm
  | _ => exact hm

/-- A scheduled edit stays scheduled until it runs, and then it takes the buttons
away or fails. -/
theorem Step.update_mem (h : Step cfg s l s') {m : CardId} (hu : m ∈ s.updates) :
    m ∈ s'.updates ∨ l = .update m false ∨ ∀ c, s'.cards m ≠ some ⟨c, true⟩ := by
  cases h with
  | leaveFailing | leaveAnswered | snoozeSchedule => exact .inl (List.mem_append_left _ hu)
  | @updated m₀ d hu₀ hd =>
    rcases eq_or_ne m m₀ with rfl | hne
    · refine .inr (.inr fun c hc => ?_)
      have := Option.some.inj ((State.setCard_cards_self ..).symm.trans hc)
      simp at this
    · exact .inl ((List.mem_erase_of_ne hne).mpr hu)
  | @updateLost m₀ ok hu₀ hd =>
    rcases eq_or_ne m m₀ with rfl | hne
    · cases ok with
      | false => exact .inr (.inl rfl)
      | true =>
        refine .inr (.inr fun c hc => ?_)
        have : s.cards m = some ⟨c, true⟩ := hc
        simp [hd rfl] at this
    · exact .inl ((List.mem_erase_of_ne hne).mpr hu)
  | _ => exact .inl hu

end Approval

end OtamanBridge
