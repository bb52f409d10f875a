import OtamanBridge.Spawn.Session

/-!
# A warm hit and the linger timer

A call that finds its key sessioned returns at once, and the timer runs on: nothing calls
`reset`. Where a call returns so only when each timer of the key that is still to run was
started at that time, and is due a whole delay from then, the session is not expired before
(`OtamanBridge.Spawn.extends_of_rearmed`). A hit halfway through the delay is enough to see
it expired halfway through what it was to be given (`OtamanBridge.Spawn.not_extends`).
-/

namespace OtamanBridge

namespace Spawn

open Py

/-- **A warm hit extends the session**: one that lingers when a call returns that it is warm is
not expired before the delay of its agent has passed. -/
def Extends (cfg : Config) (log : List Event) : Prop :=
  ∀ later key hit sid earlier, log = later ++ .warm key hit (some sid) :: earlier →
    ∀ time, .expired key sid time ∈ later → hit + cfg.delay key.1 ≤ time

/-- The timer does nothing before this time. -/
def TimerPhase.Waits (phase : TimerPhase) (time : Seconds) : Prop :=
  match phase with
  | .armed due => time ≤ due
  | .ended => True
  | .woken | .firing _ => False

variable {T : Type}

/-- A call returns that a lingering session is warm only where the timers of its key have
been started for that time. -/
def Rearmed (cfg : Config) (s : State T) : Label T → Prop
  | .leave t => ∀ call ∈ s.calls t, call.phase = .leaving .warmSession →
      (s.entries call.task.key).isSome → ∀ i < s.next, ∀ timer ∈ s.timers i,
        timer.key = call.task.key → timer.phase.Waits (s.now + cfg.delay call.task.key.1)
  | _ => True

section Decidable

instance (phase : TimerPhase) (time : Seconds) : Decidable (phase.Waits time) :=
  match phase with
  | .armed due => inferInstanceAs (Decidable (time ≤ due))
  | .ended => .isTrue trivial
  | .woken | .firing _ => .isFalse not_false

instance (cfg : Config) (s : State T) : (l : Label T) → Decidable (Rearmed cfg s l)
  | .leave t => inferInstanceAs (Decidable (∀ call ∈ s.calls t, _ → _ → ∀ i < s.next,
      ∀ timer ∈ s.timers i, _ → TimerPhase.Waits _ _))
  | .spawn _ _ | .tick _ | .call _ _ | .look _ | .claim _ | .linger _ | .abort _ | .release _ _
  | .cleanup _ _ | .heartbeat _ _ | .wake _ | .fire _ | .expire _ | .reset _ | .cancel _ =>
    .isTrue trivial

end Decidable

/-! ### What is due no earlier -/

/-- What the timer does, it does not do before this time. -/
def TimerPhase.NotBefore (phase : TimerPhase) (now time : Seconds) : Prop :=
  match phase with
  | .armed due => time ≤ due
  | .woken | .firing _ => time ≤ now
  | .ended => True

theorem TimerPhase.Waits.notBefore {phase : TimerPhase} {time : Seconds} (h : phase.Waits time)
    (now : Seconds) : phase.NotBefore now time := by
  cases phase with
  | armed due => exact h
  | woken => exact h.elim
  | firing entry => exact h.elim
  | ended => trivial

theorem TimerPhase.NotBefore.mono {phase : TimerPhase} {now now' time : Seconds}
    (h : phase.NotBefore now time) (hle : now ≤ now') : phase.NotBefore now' time := by
  cases phase with
  | armed due => exact h
  | woken => exact le_trans h hle
  | firing entry => exact le_trans h hle
  | ended => trivial

/-- No timer of the key does anything before this time. -/
def Quiet (s : State T) (key : Key) (time : Seconds) : Prop :=
  ∀ i timer, s.timers i = some timer → timer.key = key → timer.phase.NotBefore s.now time

variable {cfg : Config} {s s' : State T} {l : Label T} {key : Key} {time : Seconds}

theorem Quiet.setTimer (h : Quiet s key time) {i : ℕ} {timer : Timer}
    (hnew : timer.key = key → timer.phase.NotBefore s.now time) :
    Quiet (s.setTimer i timer) key time := by
  refine Lts.forall_update (P := fun _ (timer : Timer) => timer.key = key →
    timer.phase.NotBefore s.now time) ?_ fun j timer _ => h j timer
  rintro _ ⟨⟩
  exact hnew

/-- A timer that is cancelled is no nearer its time. -/
theorem Quiet.cancelExisting (h : Quiet s key time) (key' : Key) {i : ℕ} {timer : Timer}
    (htimer : cancelExisting s key' i = some timer) (hkey : timer.key = key) :
    timer.phase.NotBefore s.now time := by
  rcases hentry : s.entries key' with _ | entry
  · rw [Spawn.cancelExisting, hentry] at htimer
    exact h i timer htimer hkey
  · rw [Spawn.cancelExisting, hentry] at htimer
    refine Lts.forall_update (P := fun _ (timer : Timer) => timer.key = key →
      timer.phase.NotBefore s.now time) (fun timer hmap hkey => ?_) (fun j timer _ => h j timer)
      i timer htimer hkey
    obtain ⟨⟨bkey, phase⟩, hbefore, rfl⟩ := Option.map_eq_some_iff.mp hmap
    cases phase with
    | armed due => trivial
    | woken => exact h _ _ hbefore hkey
    | firing entry => exact h _ _ hbefore hkey
    | ended => trivial

/-- A timer that is started now is due a delay from now. -/
theorem Quiet.arm {hit : Seconds} (h : Quiet s key (hit + cfg.delay key.1)) (hle : hit ≤ s.now)
    (key' : Key) (sessionId changeId : Text) :
    Quiet (arm cfg s key' sessionId changeId) key (hit + cfg.delay key.1) := by
  refine Lts.forall_update (P := fun _ (timer : Timer) => timer.key = key →
    timer.phase.NotBefore s.now (hit + cfg.delay key.1)) ?_ fun i timer _ htimer =>
      h.cancelExisting key' htimer
  rintro _ ⟨⟩ hkey
  obtain rfl : key' = key := hkey
  exact add_le_add_left hle _

/-- The timers are numbered one after the other. -/
def Numbered (s : State T) : Prop := ∀ i timer, s.timers i = some timer → i < s.next

theorem numbered_of_update {timers : ℕ → Option Timer} {next i : ℕ} {new : Option Timer}
    (h : ∀ i timer, timers i = some timer → i < next) (hi : new ≠ none → i < next) :
    ∀ j timer, Function.update timers i new j = some timer → j < next :=
  Lts.forall_update (P := fun j _ => j < next) (fun timer hnew => hi (by simp [hnew]))
    fun j timer _ => h j timer

theorem Numbered.cancelExisting (h : Numbered s) (key : Key) :
    ∀ i timer, cancelExisting s key i = some timer → i < s.next := by
  rcases hentry : s.entries key with _ | entry
  · rw [Spawn.cancelExisting, hentry]
    exact h
  · rw [Spawn.cancelExisting, hentry]
    refine numbered_of_update h fun hne => ?_
    rcases htimer : s.timers entry.timer with _ | timer
    · simp [htimer] at hne
    · exact h _ timer htimer

theorem Numbered.arm (h : Numbered s) (key : Key) (sessionId changeId : Text) :
    Numbered (arm cfg s key sessionId changeId) :=
  numbered_of_update (fun i timer htimer => (h.cancelExisting key i timer htimer).trans
    s.next.lt_succ_self) fun _ => s.next.lt_succ_self

variable [DecidableEq T]

/-- **The clock and the timers**: no step brings a timer of the key nearer to its time. -/
theorem Quiet.step {hit : Seconds} (h : Quiet s key (hit + cfg.delay key.1)) (hle : hit ≤ s.now)
    (hstep : Step cfg s l s') : Quiet s' key (hit + cfg.delay key.1) := by
  cases hstep with
  | tick hd =>
    exact fun i timer htimer hkey => (h i timer htimer hkey).mono (le_add_of_nonneg_right hd)
  | wake htimer hdue => exact h.setTimer fun hkey => le_trans (h _ _ htimer hkey) hdue
  | fire htimer hentry =>
    exact h.setTimer fun hkey => show _ ≤ s.now from h _ _ htimer hkey
  | lapse htimer => exact h.setTimer fun _ => trivial
  | expire htimer => exact h.setTimer fun _ => trivial
  | @linger t task sid hcall hlingers =>
    exact Quiet.arm (s := s.setCall t _) h hle task.key sid task.changeId
  | reset hentry => exact h.arm hle _ _ _
  | cancel key' => exact fun i timer htimer => h.cancelExisting key' htimer
  | _ => exact h

theorem Step.now_le (h : Step cfg s l s') : s.now ≤ s'.now := by
  cases h with
  | tick hd => exact le_add_of_nonneg_right hd
  | _ => exact le_rfl

theorem Numbered.step (h : Numbered s) (hstep : Step cfg s l s') : Numbered s' := by
  cases hstep with
  | wake htimer hdue => exact numbered_of_update h fun _ => h _ _ htimer
  | fire htimer hentry => exact numbered_of_update h fun _ => h _ _ htimer
  | lapse htimer => exact numbered_of_update h fun _ => h _ _ htimer
  | expire htimer => exact numbered_of_update h fun _ => h _ _ htimer
  | @linger t task sid hcall hlingers =>
    exact Numbered.arm (s := s.setCall t _) h task.key sid task.changeId
  | reset hentry => exact h.arm _ _ _
  | cancel key => exact h.cancelExisting key
  | _ => exact h

/-! ### What a warm hit promises -/

/-- The clock has not gone back behind the hit, and no timer of the key is due before the hit
has had its delay. -/
def Granted (cfg : Config) (s : State T) : Event → Prop
  | .warm key hit (some _) => hit ≤ s.now ∧ Quiet s key (hit + cfg.delay key.1)
  | _ => True

/-- The session of the hit is expired too early. -/
def Cuts (cfg : Config) : Event → Event → Prop
  | .warm key hit (some _), .expired key' _ time => key' = key ∧ time < hit + cfg.delay key.1
  | _, _ => False

theorem Granted.step {e : Event} (h : Granted cfg s e) (hstep : Step cfg s l s') :
    Granted cfg s' e := by
  unfold Granted at h ⊢
  split at h
  · exact ⟨h.1.trans hstep.now_le, h.2.step h.1 hstep⟩
  · trivial

/-- The invariant: what was promised is kept. -/
structure Lingering (cfg : Config) (s : State T) : Prop where
  numbered : Numbered s
  respected : Lts.Respected (fun e _ => Granted cfg s e) (fun e _ x => Cuts cfg e x) s.log

omit [DecidableEq T] in
theorem lingering_init (rows : Key → Option Row) : Lingering cfg (State.init rows : State T) :=
  ⟨fun _ _ h => absurd h (by simp [State.init]), Lts.respected_nil⟩

theorem Lingering.step (hI : Lingering cfg s) (hg : Rearmed cfg s l) (h : Step cfg s l s') :
    Lingering cfg s' := by
  have hstep := h
  refine ⟨hI.numbered.step h, ?_⟩
  have hkept : Lts.Respected (fun e _ => Granted cfg s' e) (fun e _ x => Cuts cfg e x) s.log :=
    hI.respected.mono fun e _ _ hgranted => hgranted.step h
  -- an event that expires nothing
  have hcons : ∀ {log : List Event} (x : Event),
      Lts.Respected (fun e _ => Granted cfg s' e) (fun e _ x => Cuts cfg e x) log →
      (∀ e, ¬Cuts cfg e x) → Granted cfg s' x →
      Lts.Respected (fun e _ => Granted cfg s' e) (fun e _ x => Cuts cfg e x) (x :: log) :=
    fun x hlog hx hgranted => hlog.cons (fun _ _ _ => id) (fun e _ _ => hx e) hgranted
  cases h with
  | spawned sid hcall => exact hcons _ hkept (by simp [Cuts]) trivial
  | linger hcall hlingers => exact hcons _ hkept (by simp [Cuts]) trivial
  | leave hcall hcold => exact hcons _ hkept (by simp [Cuts]) trivial
  | release hrow => exact hcons _ hkept (by simp [Cuts]) trivial
  | clean hrow hold => exact hcons _ hkept (by simp [Cuts]) trivial
  | @leaveWarm t task hcall =>
    refine hcons _ (hcons _ hkept (by simp [Cuts]) trivial) (by simp [Cuts]) ?_
    rcases hentry : s.entries task.key with _ | entry
    · trivial
    · refine ⟨le_rfl, fun i timer htimer hkey => ?_⟩
      exact (hg _ hcall rfl (by simp [hentry]) i (hI.numbered i timer htimer) timer htimer
        hkey).notBefore _
  | @expire i key entry htimer =>
    refine hI.respected.cons (fun e _ _ hgranted => hgranted.step hstep)
      (fun e _ hgranted hcuts => ?_) trivial
    unfold Cuts at hcuts
    split at hcuts
    next key' hit sid key'' sid' time hexpired =>
      obtain ⟨rfl, rfl, rfl⟩ := Event.expired.inj hexpired
      obtain ⟨rfl, hearly⟩ := hcuts
      exact absurd (hgranted.2 i _ htimer rfl) (not_le.mpr hearly)
    · exact hcuts
  | _ => exact hkept

/-- **A warm hit that finds the timers started for it extends the session**, in every run all
of whose warm hits do. -/
theorem extends_of_rearmed {rows : Key → Option Row} {s : State T} {ls : List (Label T)}
    (h : Lts.Run (Lts.Under (Rearmed cfg) (Lts.ofStep (step cfg))) (State.init rows) ls s) :
    Extends cfg s.log := by
  have hI : Lingering cfg s := h.inv_state (I := Lingering cfg) (lingering_init rows)
    fun a l b ha hl => ha.step hl.1 (.of_step hl.2)
  intro later key hit sid earlier hlog time hexpired
  by_contra hlt
  exact (hI.respected later _ earlier hlog).2 _ hexpired ⟨rfl, not_le.mp hlt⟩

/-- A call of a thread that comes to a session there is. -/
def hitting (t : Bool) : List (Label Bool) := [.call t headlessTask, .look t, .leave t]

/-- A timer runs to its end. -/
def expiring (i : ℕ) : List (Label Bool) := [.wake i, .fire i, .expire i]

/-- A hit a minute after the session was spawned, when its timer has just been started again:
it is expired half an hour after the hit. -/
theorem extends_of_reset : ∃ s : State Bool,
    s.log.head? = some (.expired ([1], [2]) [4] (60 + 1800)) ∧
      .warm ([1], [2]) 60 (some [4]) ∈ s.log ∧ Extends lingering s.log := by
  obtain ⟨s, hrun, hs⟩ := Lts.exists_under_run_of_exec (step lingering) (C := Rearmed lingering)
    (fun s l => decide (Rearmed lingering s l)) (fun _ _ => of_decide_eq_true)
    (State.init fun _ => none)
    (spawning true [4] ++ [.tick 60, .reset ([1], [2])] ++ hitting false ++ [.tick 1800] ++
      expiring 1)
    (fun s => s.log.head? = some (.expired ([1], [2]) [4] (60 + 1800)) ∧
      .warm ([1], [2]) 60 (some [4]) ∈ s.log)
    (by decide +kernel)
  obtain ⟨hexpired, hwarm⟩ := of_decide_eq_true hs
  exact ⟨s, hexpired, hwarm, extends_of_rearmed hrun⟩

/-- A hit a quarter of an hour after the session was spawned: a quarter of an hour later it is
expired. -/
theorem not_extends : ∃ (ls : List (Label Bool)) (s : State Bool),
    Lts.Run (Lts.ofStep (step lingering)) (State.init fun _ => none) ls s ∧
      ¬Extends lingering s.log := by
  obtain ⟨s, hrun, hs⟩ := Lts.exists_run_of_exec (step lingering) (State.init fun _ => none)
    (spawning true [4] ++ [.tick 900] ++ hitting false ++ [.tick 900] ++ expiring 0)
    (fun s => s.log.take 2 = [.expired ([1], [2]) [4] 1800, .warm ([1], [2]) 900 (some [4])])
    (by decide +kernel)
  refine ⟨_, s, hrun, fun h => ?_⟩
  have hlog : s.log = [.expired ([1], [2]) [4] 1800] ++
      .warm ([1], [2]) 900 (some [4]) :: s.log.drop 2 := by
    conv_lhs => rw [← List.take_append_drop 2 s.log, of_decide_eq_true hs]
    rfl
  have hlate := h _ _ _ _ _ hlog 1800 (List.mem_singleton_self _)
  exact absurd hlate (by decide +kernel)

end Spawn

end OtamanBridge
