import OtamanBridge.Approval.Effects

/-!
# Invariants every run keeps

What holds in every state a daemon reaches, whatever the clients choose as request
ids: an entry of the table is the registration of a call that has not answered
yet, and whatever thread holds an object it found in the table holds the object of
a call that was registered under the id the thread looked up.

The table can still lose an entry to another call with the same id: that is the
subject of `OtamanBridge.Approval.Ownership`.
-/

namespace OtamanBridge

namespace Approval

theorem Phase.InFlight.registered {p : Phase} (h : p.InFlight) : p.Registered := by
  cases p <;> trivial

theorem Phase.Open.inFlight {p : Phase} (h : p.Open) : p.InFlight := by
  cases p <;> trivial

/-- Call `c` exists, has been registered, and under this id. -/
def State.Holds (s : State) (rid : String) (c : CallId) : Prop :=
  ∃ k, s.calls c = some k ∧ k.phase.Registered ∧ k.request.requestId = rid

/-- The objects the shutdown sweep still has to answer. -/
def StopPhase.todo : StopPhase → List CallId
  | .sweeping todo => todo
  | .setting c todo => c :: todo
  | _ => []

/-- **The invariant of every run.** -/
structure Wf (s : State) : Prop where
  /-- The table leads to calls in flight, under their own ids. -/
  table : ∀ {rid c}, s.table.lookup rid = some c →
    ∃ k, s.calls c = some k ∧ k.phase.InFlight ∧ k.request.requestId = rid
  /-- An object carries the request of its call. -/
  pending : ∀ {c k}, s.calls c = some k → k.pending.request = k.request
  /-- A `resolve` call holds an object of the id it looked up. -/
  resolve : ∀ {i r c}, s.resolves i = some r → r.phase.found = some c → s.Holds r.requestId c
  /-- So does a snooze. -/
  snooze : ∀ {i z c}, s.snoozes i = some z → z.phase.found = some c → s.Holds z.requestId c
  /-- The sweep holds objects that were in the table. -/
  sweep : ∀ {c}, c ∈ s.stop.todo → ∃ rid, s.Holds rid c

variable {cfg : Config} {s s' : State} {l : Label}

/-- Being registered under an id is for good. -/
theorem State.Holds.step {rid : String} {c : CallId} (hc : s.Holds rid c)
    (h : Step cfg s l s') : s'.Holds rid c := by
  obtain ⟨k, hk, hreg, hrid⟩ := hc
  obtain ⟨k', hk', hch⟩ := h.call hk
  exact ⟨k', hk', hch.registered hreg, by rw [hch.request.1, hrid]⟩

theorem Wf.holds (hw : Wf s) {rid : String} {c : CallId} (hl : s.table.lookup rid = some c) :
    s.Holds rid c := by
  obtain ⟨k, hk, hfl, hrid⟩ := hw.table hl
  exact ⟨k, hk, hfl.registered, hrid⟩

theorem Wf.init : Wf State.init where
  table hl := by simp [State.init] at hl
  pending hk := by simp [State.init] at hk
  resolve hr := by simp [State.init] at hr
  snooze hz := by simp [State.init] at hz
  sweep hc := by simp [State.init, StopPhase.todo] at hc

/-- A call in flight leaves the flight only by its own `leave`. -/
theorem CallChange.inFlight {c : CallId} {k k' : Call} (h : CallChange s c k l k')
    (hfl : k.phase.InFlight) : k'.phase.InFlight ∨ l = .leave c := by
  cases h with
  | move hm =>
    cases hm with
    | build h => simp [h, Phase.InFlight] at hfl
    | _ => exact .inl trivial
  | register => exact .inl trivial
  | leaveFailing | leaveAnswered => exact .inr rfl
  | _ => exact .inl hfl

theorem CallChange.pending_request {c : CallId} {k k' : Call} (h : CallChange s c k l k')
    (hp : k.pending.request = k.request) : k'.pending.request = k'.request := by
  cases h with
  | move hm =>
    cases hm with
    | build => rfl
    | _ => exact hp
  | snoozeExtend =>
    simp only [PendingApproval.extendBy]
    split <;> exact hp
  | _ => exact hp

/-- A `leave` takes the entry of its own id out. -/
theorem Step.table_leave {c : CallId} {k : Call} (h : Step cfg s (.leave c) s')
    (hk : s.calls c = some k) : s'.table = s.table.erase k.request.requestId := by
  cases h with
  | silent hl => exact hl.elim
  | leaveFailing hk₀ hp =>
    obtain rfl := Option.some.inj (hk.symm.trans hk₀)
    rfl
  | leaveAnswered hk₀ hp =>
    obtain rfl := Option.some.inj (hk.symm.trans hk₀)
    rfl

theorem Wf.table_step (hw : Wf s) (h : Step cfg s l s') {rid : String} {c : CallId}
    (hl : s'.table.lookup rid = some c) :
    ∃ k, s'.calls c = some k ∧ k.phase.InFlight ∧ k.request.requestId = rid := by
  rcases h.table.lookup hl with hold | ⟨k, rfl, hk, hp, hrid⟩
  · obtain ⟨k, hk, hfl, hrid⟩ := hw.table hold
    obtain ⟨k', hk', hch⟩ := h.call hk
    rcases hch.inFlight hfl with hfl' | rfl
    · exact ⟨k', hk', hfl', by rw [hch.request.1, hrid]⟩
    · -- the call left, so its id has no entry any more
      rw [h.table_leave hk, hrid] at hl
      simp at hl
  · cases h with
    | silent hr => exact hr.elim
    | register hk₀ hp₀ =>
      obtain rfl := Option.some.inj (hk.symm.trans hk₀)
      exact ⟨_, State.setCall_calls_self _ _ _, trivial, hrid⟩

theorem Wf.pending_step (hw : Wf s) (h : Step cfg s l s') {c : CallId} {k' : Call}
    (hk' : s'.calls c = some k') : k'.pending.request = k'.request := by
  rcases hk : s.calls c with _ | k
  · obtain ⟨-, _, _, _, -, -, rfl⟩ := h.call_new hk hk'
    rfl
  · obtain ⟨k'', hk'', hch⟩ := h.call hk
    obtain rfl := Option.some.inj (hk''.symm.trans hk')
    exact hch.pending_request (hw.pending hk)

theorem Wf.resolve_step (hw : Wf s) (h : Step cfg s l s') {i : ℕ} {r' : Resolve} {c : CallId}
    (hr' : s'.resolves i = some r') (hf : r'.phase.found = some c) :
    s'.Holds r'.requestId c := by
  rcases hr : s.resolves i with _ | r
  · cases h.resolve_new hr hr' <;> simp [ResolvePhase.found] at hf
  · obtain ⟨r'', hr'', hch⟩ := h.resolve hr
    obtain rfl := Option.some.inj (hr''.symm.trans hr')
    cases hch with
    | same => exact (hw.resolve hr hf).step h
    | hit hp hl =>
      obtain rfl := by simpa [ResolvePhase.found] using hf
      exact (hw.holds hl).step h
    | miss => simp [ResolvePhase.found] at hf
    | write hp => exact (hw.resolve hr (by rw [hp]; exact hf)).step h
    | set hp => exact (hw.resolve hr (by rw [hp]; exact hf)).step h

/-- The sweep takes its objects from the table. -/
theorem Step.todo (h : Step cfg s l s') {c : CallId} (hc : c ∈ s'.stop.todo) :
    c ∈ s.stop.todo ∨ ∃ rid, s.table.lookup rid = some c := by
  cases h with
  | stop hs =>
    obtain ⟨⟨rid, c'⟩, hmem, rfl⟩ := List.mem_map.mp hc
    exact .inr ⟨rid, AList.mem_lookup_iff.mpr hmem⟩
  | sweepWrite hs =>
    rw [hs]
    exact .inl hc
  | sweepSet hs =>
    rw [hs]
    exact .inl (List.mem_cons_of_mem _ hc)
  | sweepReturn | closeServer => simp [StopPhase.todo] at hc
  | _ => exact .inl hc

theorem Wf.step (hw : Wf s) (h : Step cfg s l s') : Wf s' where
  table hl := hw.table_step h hl
  pending hk := hw.pending_step h hk
  resolve hr hf := hw.resolve_step h hr hf
  snooze hz' hf := by
    obtain ⟨z, hz, hrid, hold | hl⟩ := h.snooze_found hz' hf
    · exact hrid ▸ (hw.snooze hz hold).step h
    · exact (hw.holds hl).step h
  sweep hc := by
    rcases h.todo hc with hold | ⟨rid, hl⟩
    · obtain ⟨rid, hh⟩ := hw.sweep hold
      exact ⟨rid, hh.step h⟩
    · exact ⟨rid, (hw.holds hl).step h⟩

/-- **Every run keeps the invariant.** -/
theorem Reaches.wf {ls : List Label} (h : Reaches cfg ls s) : Wf s :=
  Lts.Run.inv_state Wf.init (fun _ _ _ hw hs => hw.step (Step.of_step hs)) h

end Approval

end OtamanBridge
