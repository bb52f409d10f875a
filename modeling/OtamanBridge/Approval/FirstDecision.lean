import OtamanBridge.Approval.Invariants

/-!
# The first decision, and what the hook is told

`ApprovalService.resolve` looks the object up under the lock and writes it outside,
and the object stays in the table until its waiter pops it. A second `resolve` that
looks up in between also returns `True`, and overwrites the response the first one
wrote; and a waiter whose deadline passes in between returns `timeout` although a
`resolve` returned `True`. This module says on which runs neither happens
(`OtamanBridge.Approval.DecidesOnce`), proves that on these runs the first decision
is the one the hook gets, and shows the two-tap run on which it is not.
-/

namespace OtamanBridge

namespace Approval

variable {cfg : Config} {ls : List Label} {s s' : State} {l : Label}

/-- **The first decision wins and both sides agree**: at most one `resolve` call on
an object has returned `True`, and if one has, a call that answers, answers with what
it delivered. -/
structure FirstDecision (s : State) : Prop where
  unique : ∀ {i j ri rj c}, s.resolves i = some ri → s.resolves j = some rj →
    ri.phase = .done (some c) → rj.phase = .done (some c) → i = j
  agree : ∀ {i r c k response}, s.resolves i = some r → r.phase = .done (some c) →
    s.calls c = some k → k.phase = .leaving response ∨ k.phase = .returned response →
    response = r.response

/-! ### The steps that keep it -/

/-- No `resolve` call has found the object of call `c`. -/
def Unclaimed (s : State) (c : CallId) : Prop :=
  ∀ i r, s.resolves i = some r → r.phase.found ≠ some c

/-- The step leaves a call to the `resolve` call that found it:

* a lookup that hits finds an object no other `resolve` call has found, of a call that
  still waits for an answer;
* the deadline check fires, and the send gives up, only where nobody found the object;
* a waiter does not take a response while a `resolve` call is on its way to write one;
* the shutdown sweep does not overwrite a response somebody delivered. -/
def DecidesOnce (s : State) : Label → Prop
  | .look i => ∀ r c, s.resolves i = some r → s.table.lookup r.requestId = some c →
      Unclaimed s c ∧ ∃ k, s.calls c = some k ∧ k.phase.Open
  | .move c .expire => Unclaimed s c
  | .move c .sendRaised => Unclaimed s c
  | .move c .sendGaveUp => Unclaimed s c
  | .move c .wake => ∀ i r, s.resolves i = some r → r.phase ≠ .holding c
  | .sweepWrite => ∀ c todo, s.stop = .sweeping (c :: todo) → ∀ i r, s.resolves i = some r →
      r.phase.found = some c → r.phase = .holding c ∨
      ∃ k, s.calls c = some k ∧ ¬k.phase.Open
  | _ => True

/-- A run of a daemon all of whose steps leave a call to its first decision. -/
abbrev ReachesOnce (cfg : Config) (ls : List Label) (s : State) : Prop :=
  Lts.Run (Lts.Under DecidesOnce (Lts.ofStep (step cfg))) State.init ls s

/-! ### The invariant -/

/-- Call `k` will answer, or has answered, with this response. -/
def Call.Bound (k : Call) (response : ApprovalResponse) : Prop :=
  (k.phase.Open ∧ k.pending.response = some response) ∨ k.phase = .leaving response ∨
    k.phase = .returned response

/-- **Every object belongs to one `resolve` call**, which either has not written yet,
and then the call is open, or binds the call to its response. -/
structure Claims (s : State) : Prop where
  unique : ∀ {i j ri rj c}, s.resolves i = some ri → s.resolves j = some rj →
    ri.phase.found = some c → rj.phase.found = some c → i = j
  holding : ∀ {i r c}, s.resolves i = some r → r.phase = .holding c →
    ∃ k, s.calls c = some k ∧ k.phase.Open
  taken : ∀ {i r c}, s.resolves i = some r →
    r.phase = .written c ∨ r.phase = .done (some c) →
    ∃ k, s.calls c = some k ∧ k.Bound r.response

theorem Claims.init : Claims State.init where
  unique hi := by simp [State.init] at hi
  holding hi := by simp [State.init] at hi
  taken hi := by simp [State.init] at hi

/-- A call stays open unless it expires, loses its card, or wakes up. -/
theorem CallChange.open_or {c : CallId} {k k' : Call} (h : CallChange s c k l k')
    (ho : k.phase.Open) : k'.phase.Open ∨ l = .move c .expire ∨ l = .move c .sendRaised ∨
      l = .move c .sendGaveUp ∨ l = .move c .wake := by
  cases h with
  | move hm =>
    cases hm with
    | build h => simp [h, Phase.Open] at ho
    | sendRaised | sendGaveUp | expire | wake => simp
    | _ => exact .inl trivial
  | register => exact .inl trivial
  | leaveFailing h | leaveAnswered h => simp [h, Phase.Open] at ho
  | _ => exact .inl ho

/-- The step that found an object is the step of a lookup that hits. -/
theorem Step.found (h : Step cfg s l s') {i : ℕ} {r' : Resolve} {c : CallId}
    (hr' : s'.resolves i = some r') (hf : r'.phase.found = some c) :
    ∃ r, s.resolves i = some r ∧ (r.phase.found = some c ∨
      l = .look i ∧ r.phase = .looking ∧ s.table.lookup r.requestId = some c) := by
  rcases hr : s.resolves i with _ | r
  · cases h.resolve_new hr hr' <;> simp [ResolvePhase.found] at hf
  · obtain ⟨r'', hr'', hch⟩ := h.resolve hr
    obtain rfl := Option.some.inj (hr''.symm.trans hr')
    refine ⟨r, rfl, ?_⟩
    cases hch with
    | same => exact .inl hf
    | hit hp hl =>
      obtain rfl := by simpa [ResolvePhase.found] using hf
      exact .inr ⟨rfl, hp, hl⟩
    | miss => simp [ResolvePhase.found] at hf
    | write hp | set hp =>
      rw [hp]
      exact .inl hf

theorem Claims.unique_step (hcl : Claims s) (hcond : DecidesOnce s l) (h : Step cfg s l s')
    {i j : ℕ} {ri rj : Resolve} {c : CallId} (hi : s'.resolves i = some ri)
    (hj : s'.resolves j = some rj) (hfi : ri.phase.found = some c)
    (hfj : rj.phase.found = some c) : i = j := by
  obtain ⟨ri₀, hi₀, hfi₀ | ⟨rfl, -, hli⟩⟩ := h.found hi hfi
  · obtain ⟨rj₀, hj₀, hfj₀ | ⟨rfl, -, hlj⟩⟩ := h.found hj hfj
    · exact hcl.unique hi₀ hj₀ hfi₀ hfj₀
    · exact absurd hfi₀ ((hcond _ _ hj₀ hlj).1 _ _ hi₀)
  · obtain ⟨rj₀, hj₀, hfj₀ | ⟨hlook, -, -⟩⟩ := h.found hj hfj
    · exact absurd hfj₀ ((hcond _ _ hi₀ hli).1 _ _ hj₀)
    · exact Label.look.inj hlook

theorem Claims.holding_step (hcl : Claims s) (hcond : DecidesOnce s l) (h : Step cfg s l s')
    {i : ℕ} {r' : Resolve} {c : CallId} (hr' : s'.resolves i = some r')
    (hp' : r'.phase = .holding c) : ∃ k, s'.calls c = some k ∧ k.phase.Open := by
  obtain ⟨r, hr, hcase⟩ := h.found hr' (by rw [hp']; rfl)
  rcases hcase with hf | ⟨rfl, -, hl⟩
  · -- the call was open and nothing that closes it is allowed
    have hp : r.phase = .holding c := by
      obtain ⟨r'', hr'', hch⟩ := h.resolve hr
      obtain rfl := Option.some.inj (hr''.symm.trans hr')
      cases hch <;> simp_all [ResolvePhase.found]
    obtain ⟨k, hk, ho⟩ := hcl.holding hr hp
    obtain ⟨k', hk', hch⟩ := h.call hk
    rcases hch.open_or ho with ho' | rfl | rfl | rfl | rfl
    · exact ⟨k', hk', ho'⟩
    · exact absurd hf (hcond _ _ hr)
    · exact absurd hf (hcond _ _ hr)
    · exact absurd hf (hcond _ _ hr)
    · exact absurd hp (hcond _ _ hr)
  · obtain ⟨k, hk, ho⟩ := (hcond _ _ hr hl).2
    obtain ⟨k', hk', hch⟩ := h.call hk
    rcases hch.open_or ho with ho' | h' | h' | h' | h'
    · exact ⟨k', hk', ho'⟩
    all_goals cases h'

/-- A bound call stays bound unless its response is overwritten, or it expires or
loses its card. -/
theorem CallChange.bound {c : CallId} {k k' : Call} {response : ApprovalResponse}
    (h : CallChange s c k l k') (hb : k.Bound response) :
    k'.Bound response ∨ l = .move c .expire ∨ l = .move c .sendRaised ∨
      l = .move c .sendGaveUp ∨ k.phase.Open ∧
      ((∃ i r, l = .write i ∧ s.resolves i = some r ∧ r.phase = .holding c) ∨
        ∃ todo, l = .sweepWrite ∧ s.stop = .sweeping (c :: todo)) := by
  cases h with
  | move hm =>
    cases hm with
    | build h => simp [Call.Bound, h, Phase.Open] at hb
    | sendRaised | sendGaveUp | expire => simp
    | wake h he hr =>
      simp only [Call.Bound, h, reduceCtorEq, or_false] at hb
      obtain ⟨-, hb⟩ := hb
      rw [hr] at hb
      obtain rfl := Option.some.inj hb
      exact .inl (.inr (.inl rfl))
    | sendReturned h | block h | poll h =>
      simp only [Call.Bound, h, reduceCtorEq, or_false] at hb
      exact .inl (.inl ⟨trivial, hb.2⟩)
  | register h | leaveFailing h => simp [Call.Bound, h, Phase.Open] at hb
  | leaveAnswered h =>
    obtain rfl := by simpa [Call.Bound, h, Phase.Open] using hb
    exact .inl (.inr (.inr rfl))
  | write hr hp =>
    by_cases ho : k.phase.Open
    · exact .inr (.inr (.inr (.inr ⟨ho, .inl ⟨_, _, rfl, hr, hp⟩⟩)))
    · exact .inl (.inr (hb.resolve_left fun h => ho h.1))
  | sweepWrite hs =>
    by_cases ho : k.phase.Open
    · exact .inr (.inr (.inr (.inr ⟨ho, .inr ⟨_, rfl, hs⟩⟩)))
    · exact .inl (.inr (hb.resolve_left fun h => ho h.1))
  | snoozeExtend =>
    refine .inl ?_
    simp only [Call.Bound, PendingApproval.extendBy] at hb ⊢
    split <;> exact hb
  | _ => exact .inl hb

theorem Claims.taken_step (hcl : Claims s) (hcond : DecidesOnce s l) (h : Step cfg s l s')
    {i : ℕ} {r' : Resolve} {c : CallId} (hr' : s'.resolves i = some r')
    (hp' : r'.phase = .written c ∨ r'.phase = .done (some c)) :
    ∃ k, s'.calls c = some k ∧ k.Bound r'.response := by
  rcases hr : s.resolves i with _ | r
  · cases h.resolve_new hr hr' <;> simp at hp'
  obtain ⟨r'', hr'', hch⟩ := h.resolve hr
  obtain rfl := Option.some.inj (hr''.symm.trans hr')
  -- a call that was bound before the step is bound after it
  have keep : (r.phase = .written c ∨ r.phase = .done (some c)) →
      ∃ k, s'.calls c = some k ∧ k.Bound r.response := by
    intro hp
    have hf : r.phase.found = some c := by rcases hp with hp | hp <;> rw [hp] <;> rfl
    obtain ⟨k, hk, hb⟩ := hcl.taken hr hp
    obtain ⟨k', hk', hck⟩ := h.call hk
    rcases hck.bound hb with hb' | rfl | rfl | rfl | ⟨ho, ⟨j, rj, rfl, hj, hpj⟩ | ⟨_, rfl, hs⟩⟩
    · exact ⟨k', hk', hb'⟩
    · exact absurd hf (hcond _ _ hr)
    · exact absurd hf (hcond _ _ hr)
    · exact absurd hf (hcond _ _ hr)
    · -- nobody else can be about to write
      obtain rfl := hcl.unique hr hj hf (by rw [hpj]; rfl)
      obtain rfl := Option.some.inj (hr.symm.trans hj)
      simp [hpj] at hp
    · rcases hcond _ _ hs _ _ hr hf with hh | ⟨k₀, hk₀, hno⟩
      · simp [hh] at hp
      · obtain rfl := Option.some.inj (hk.symm.trans hk₀)
        exact absurd ho hno
  cases hch with
  | same => exact keep hp'
  | hit => simp at hp'
  | miss => simp at hp'
  | @write c₀ hp =>
    obtain rfl : c₀ = c := by simpa using hp'
    obtain ⟨k, hk, ho⟩ := hcl.holding hr hp
    cases h with
    | silent hl => exact hl.elim
    | @write _ r₀ c₁ hr₀ hp₀ =>
      obtain rfl := Option.some.inj (hr.symm.trans hr₀)
      obtain rfl : c₀ = c₁ := by simpa [hp] using hp₀
      exact ⟨_, State.modifyPending_calls_self _ _ hk, .inl ⟨ho, rfl⟩⟩
  | @set c₀ hp =>
    obtain rfl : c₀ = c := by simpa using hp'
    exact keep (.inl hp)

theorem Claims.step (hcl : Claims s) (hcond : DecidesOnce s l) (h : Step cfg s l s') :
    Claims s' where
  unique hi hj hfi hfj := hcl.unique_step hcond h hi hj hfi hfj
  holding hr hp := hcl.holding_step hcond h hr hp
  taken hr hp := hcl.taken_step hcond h hr hp

theorem ReachesOnce.claims (h : ReachesOnce cfg ls s) : Claims s :=
  Lts.Run.inv_state Claims.init (fun _ _ _ hcl hs => hcl.step hs.1 (Step.of_step hs.2)) h

/-! ### The main result -/

/-- **On the runs that leave a call to its first decision, the first decision wins**:
at most one `resolve` call on it returns `True`, and the hook is told what that call
delivered. -/
theorem firstDecision_of_decidesOnce (h : ReachesOnce cfg ls s) : FirstDecision s where
  unique hi hj hpi hpj := h.claims.unique hi hj (by rw [hpi]; rfl) (by rw [hpj]; rfl)
  agree hr hp hk hans := by
    obtain ⟨k, hk', hb⟩ := h.claims.taken hr (.inr hp)
    obtain rfl := Option.some.inj (hk.symm.trans hk')
    rcases hans with hans | hans <;> simpa [Call.Bound, hans, Phase.Open, eq_comm] using hb

/-- A call that one user approves, up to the lookup. -/
def singleTap : List Label :=
  [.postApproval 0 (some ⟨[], none, []⟩) 0 ⟨"r1", 540⟩, .move 0 .build, .register 0,
    .sendPosts 0 0, .move 0 .sendReturned, .move 0 .block, .callback 7 "A|r1", .listen 0]

/-- The same call, up to the wake-up of the waiter. -/
def singleTapDone : List Label :=
  singleTap ++ [.look 0] ++ [.write 0, .set 0]

/-- The hook is told the first decision where only one user decides. -/
theorem firstDecision_of_decidesOnce_tap :
    ∃ s r, ReachesOnce ⟨[7]⟩ (singleTapDone ++ [.move 0 .wake] ++ [.leave 0]) s ∧
      s.resolves 0 = some r ∧ r.phase = .done (some 0) ∧ FirstDecision s := by
  obtain ⟨a, ha, hpa⟩ := Lts.exists_exec (step ⟨[7]⟩) State.init singleTap
    (fun s => (s.resolves 0).any (fun r => r.phase = .looking ∧ r.requestId = "r1")
      ∧ s.table.lookup "r1" = some 0 ∧ (s.calls 0).any fun k => k.phase = .blocked 5)
    (by decide +kernel)
  obtain ⟨⟨r, hr, hp, hrid⟩, htable, k, hk, hkp⟩ : (∃ r, a.resolves 0 = some r ∧
      r.phase = .looking ∧ r.requestId = "r1") ∧ a.table.lookup "r1" = some 0 ∧
      ∃ k, a.calls 0 = some k ∧ k.phase = .blocked 5 := by
    simpa [Option.any_eq_true] using hpa
  have hrun : ReachesOnce ⟨[7]⟩ singleTap a :=
    Lts.Run.under_append .nil rfl ha (by simp [DecidesOnce])
  obtain ⟨b, hb, -⟩ := Lts.exists_exec (step ⟨[7]⟩) State.init (singleTap ++ [.look 0])
    (fun _ => true) (by decide +kernel)
  -- the lookup finds an object nobody else found, of a call in `event.wait`
  have hrun := hrun.under_snoc ha hb (by
    intro r₀ c hr₀ hl
    obtain rfl := Option.some.inj (hr.symm.trans hr₀)
    obtain rfl := Option.some.inj ((hrid ▸ htable).symm.trans hl)
    refine ⟨fun i r' hr' hf => ?_, k, hk, by rw [hkp]; trivial⟩
    obtain rfl : i = 0 := List.mem_singleton.mp (Reaches.opened hrun.of_under hr')
    obtain rfl := Option.some.inj (hr.symm.trans hr')
    simp [hp, ResolvePhase.found] at hf)
  obtain ⟨d, hd, hpd⟩ := Lts.exists_exec (step ⟨[7]⟩) State.init singleTapDone
    (fun s => (s.resolves 0).any fun r => r.phase = .done (some 0)) (by decide +kernel)
  obtain ⟨r', hr', hp'⟩ : ∃ r, d.resolves 0 = some r ∧ r.phase = .done (some 0) := by
    simpa [Option.any_eq_true] using hpd
  have hrun : ReachesOnce ⟨[7]⟩ singleTapDone d :=
    hrun.under_append hb hd (by simp [DecidesOnce])
  obtain ⟨e, he, -⟩ := Lts.exists_exec (step ⟨[7]⟩) State.init
    (singleTapDone ++ [.move 0 .wake]) (fun _ => true) (by decide +kernel)
  -- the waiter wakes up after the only `resolve` call has returned
  have hrun := hrun.under_snoc hd he (by
    intro i r hr hhold
    obtain rfl : i = 0 := List.mem_singleton.mp (Reaches.opened hrun.of_under hr)
    obtain rfl := Option.some.inj (hr'.symm.trans hr)
    simp [hp'] at hhold)
  obtain ⟨s, hs, hps⟩ := Lts.exists_exec (step ⟨[7]⟩) State.init
    (singleTapDone ++ [.move 0 .wake] ++ [.leave 0])
    (fun s => (s.resolves 0).any fun r => r.phase = .done (some 0)) (by decide +kernel)
  obtain ⟨r, hr, hp⟩ : ∃ r, s.resolves 0 = some r ∧ r.phase = .done (some 0) := by
    simpa [Option.any_eq_true] using hps
  have hrun := hrun.under_append he hs (by simp [DecidesOnce])
  exact ⟨s, r, hrun, hr, hp, firstDecision_of_decidesOnce hrun⟩

/-- A call that two users decide before its waiter wakes up. -/
def doubleTap : List Label :=
  [.postApproval 0 (some ⟨[], none, []⟩) 0 ⟨"r1", 540⟩, .move 0 .build, .register 0,
    .sendPosts 0 0, .move 0 .sendReturned, .move 0 .block,
    .callback 7 "A|r1", .callback 8 "R|r1", .listen 0, .look 0, .write 0, .set 0,
    .listen 1, .look 1, .write 1, .set 1, .move 0 .wake, .leave 0]

/-- **A double tap breaks it**: both `resolve` calls return `True`, and the hook is
told the second decision. -/
theorem not_firstDecision_doubleTap :
    ∃ s, Reaches ⟨[7, 8]⟩ doubleTap s ∧ ¬FirstDecision s := by
  obtain ⟨s, hrun, hs⟩ := Lts.exists_run_of_exec (step ⟨[7, 8]⟩) State.init doubleTap
    (fun s => ((s.resolves 0).any fun r => r.phase = .done (some 0)) ∧
      (s.resolves 1).any fun r => r.phase = .done (some 0)) (by decide +kernel)
  obtain ⟨⟨r₀, hr₀, hp₀⟩, r₁, hr₁, hp₁⟩ : (∃ r, s.resolves 0 = some r ∧ r.phase = .done (some 0)) ∧
      ∃ r, s.resolves 1 = some r ∧ r.phase = .done (some 0) := by
    simpa [Option.any_eq_true] using hs
  refine ⟨s, hrun, fun hfirst => ?_⟩
  have : 0 = 1 := hfirst.unique hr₀ hr₁ hp₀ hp₁
  omega

end Approval

end OtamanBridge
