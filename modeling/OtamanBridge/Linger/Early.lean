import OtamanBridge.Linger.Manager

/-!
# Linger expires too early

A `_fire` that has yet to get the lock takes out whatever entry the key has when it gets it.
Where a `reset` or a `start` was there first, that is an entry whose own timer has just been
started, and the session is expired at once instead of a whole delay later
(`OtamanBridge.Linger.not_neverEarly`). Where every `_fire` finds either no entry or one whose
last timer is its own, and no `start` of a key comes between a `_fire` and its `on_expire`,
nothing is expired before the last `start` or `reset` of its key is a delay ago
(`OtamanBridge.Linger.neverEarly_of_timely`).
-/

namespace OtamanBridge

namespace Linger

open Py

/-- The key whose timer was started, and when. -/
def Event.arms : Event → Option (Key × Seconds)
  | .started account time => some (account.ids.key, time)
  | .extended key time => some (key, time)
  | .replaced _ | .cancelled _ | .expired .. => none

/-- Every `start` and `reset` of the key is a delay before this time. As the clock does not go
back, it is enough that the last is. -/
def Served (cfg : Config) (log : List Event) (key : Key) (time : Seconds) : Prop :=
  ∀ e ∈ log, ∀ start, e.arms = some (key, start) → start + cfg.delay key.1 ≤ time

/-- **Linger never expires early**: `on_expire` is called for a key when each `start` and
`reset` of it that came before is a delay ago. -/
def NeverEarly (cfg : Config) (log : List Event) : Prop :=
  ∀ later account time earlier, log = later ++ .expired account time :: earlier →
    Served cfg earlier account.ids.key time

variable {T : Type}

/-- A `_fire` takes out an entry only if its timer is the last that was started for it; and no
`start` of a key comes between a `_fire` that took its entry out and `on_expire`. -/
def Timely (s : State T) : Label T → Prop
  | .fire i => ∀ timer ∈ s.timers i, ∀ entry ∈ s.entries.lookup timer.key, entry.armed = i
  | .start ids => ∀ i < s.next, ∀ timer ∈ s.timers i, timer.key = ids.key →
      ∀ account, timer.phase ≠ .firing account
  | _ => True

/-- `_fire` has taken an entry out. -/
def Phase.fires : Phase → Bool
  | .firing _ => true
  | .waiting | .woken | .ended => false

theorem Phase.fires_eq_false {phase : Phase} :
    phase.fires = false ↔ ∀ account, phase ≠ .firing account := by
  cases phase with
  | firing account => simp [fires]
  | _ => simp [fires]

section Decidable

instance (phase : Phase) : Decidable (∀ account, phase ≠ .firing account) :=
  decidable_of_iff _ Phase.fires_eq_false

instance (s : State T) : (l : Label T) → Decidable (Timely s l)
  | .fire i => inferInstanceAs (Decidable (∀ timer ∈ s.timers i,
      ∀ entry ∈ s.entries.lookup timer.key, entry.armed = i))
  | .start ids => inferInstanceAs (Decidable (∀ i < s.next, ∀ timer ∈ s.timers i,
      timer.key = ids.key → ∀ account, timer.phase ≠ .firing account))
  | .tick _ | .reset _ | .unstarted _ | .cancel _ | .shutdown _ _ | .drop _ | .wake _
  | .expire _ => .isTrue trivial

end Decidable

/-! ### The invariant -/

/-- What is due, and when. -/
structure Punctual (cfg : Config) (s : State T) : Prop where
  /-- The timers are numbered one after the other. -/
  numbered : ∀ i, s.next ≤ i → s.timers i = none
  /-- The clock does not go back. -/
  past : ∀ e ∈ s.log, ∀ key start, e.arms = some (key, start) → start ≤ s.now
  /-- An entry is under its own key. -/
  keyed : ∀ key entry, s.entries.lookup key = some entry → entry.account.ids.key = key
  /-- The last timer of an entry is due when its key has had its delay. -/
  armed : ∀ key entry, s.entries.lookup key = some entry →
    ∃ timer, s.timers entry.armed = some timer ∧ timer.key = key ∧ Served cfg s.log key timer.due
  /-- A timer wakes when it is due. -/
  woken : ∀ i timer, s.timers i = some timer → timer.phase = .woken → timer.due ≤ s.now
  /-- Where an entry was taken out, its key has had its delay and has no other entry. -/
  firing : ∀ i timer account, s.timers i = some timer → timer.phase = .firing account →
    account.ids.key = timer.key ∧ s.entries.lookup timer.key = none ∧
      Served cfg s.log timer.key s.now
  /-- What was expired was not expired early. -/
  never : NeverEarly cfg s.log

variable {cfg : Config} {s s' : State T} {key : Key} {log : List Event}

theorem Served.mono {time time' : Seconds} (h : Served cfg log key time) (hle : time ≤ time') :
    Served cfg log key time' :=
  fun e he start hstart => (h e he start hstart).trans hle

/-- An event that starts no timer of the key. -/
theorem Served.cons {time : Seconds} (h : Served cfg log key time) {x : Event}
    (hx : ∀ start, x.arms ≠ some (key, start)) : Served cfg (x :: log) key time := by
  intro e he start hstart
  rcases List.mem_cons.mp he with rfl | he
  · exact absurd hstart (hx start)
  · exact h e he start hstart

/-- An event that expires nothing. -/
theorem NeverEarly.cons (h : NeverEarly cfg log) {x : Event}
    (hx : ∀ account time, x ≠ .expired account time) : NeverEarly cfg (x :: log) := by
  intro later account time earlier heq
  rcases later with _ | ⟨y, later⟩
  · exact absurd (List.cons.inj heq).1 (hx account time)
  · exact h later account time earlier (List.cons.inj heq).2

/-- **An event that expires a session** when its key has had its delay. -/
theorem NeverEarly.expire (h : NeverEarly cfg log) {account : Account} {time : Seconds}
    (hserved : Served cfg log account.ids.key time) :
    NeverEarly cfg (.expired account time :: log) := by
  intro later account' time' earlier heq
  rcases later with _ | ⟨y, later⟩
  · obtain ⟨hexpired, rfl⟩ := List.cons.inj heq
    obtain ⟨rfl, rfl⟩ := Event.expired.inj hexpired
    exact hserved
  · exact h later account' time' earlier (List.cons.inj heq).2

theorem punctual_init : Punctual cfg (State.init : State T) where
  numbered _ _ := rfl
  past _ h := absurd h List.not_mem_nil
  keyed key entry h := by
    rw [State.init, AList.lookup_empty] at h
    exact absurd h (by simp)
  armed key entry h := by
    rw [State.init, AList.lookup_empty] at h
    exact absurd h (by simp)
  woken _ _ h := absurd h (by simp [State.init])
  firing _ _ _ h := absurd h (by simp [State.init])
  never _ _ _ _ h := absurd h (by simp [State.init])

/-- The clock goes on. -/
theorem Punctual.tick (h : Punctual cfg s) {d : Seconds} (hd : 0 ≤ d) :
    Punctual cfg { s with now := s.now + d } where
  numbered := h.numbered
  past e he key start hstart := (h.past e he key start hstart).trans (le_add_of_nonneg_right hd)
  keyed := h.keyed
  armed := h.armed
  woken i timer htimer hphase :=
    (h.woken i timer htimer hphase).trans (le_add_of_nonneg_right hd)
  firing i timer account htimer hphase := by
    obtain ⟨hkey, hnone, hserved⟩ := h.firing i timer account htimer hphase
    exact ⟨hkey, hnone, hserved.mono (le_add_of_nonneg_right hd)⟩
  never := h.never

/-- An event that neither starts a timer nor expires anything. -/
theorem Punctual.note (h : Punctual cfg s) {x : Event} (harms : x.arms = none)
    (hx : ∀ account time, x ≠ .expired account time) : Punctual cfg (s.note x) where
  numbered := h.numbered
  past e he key start hstart := by
    rcases List.mem_cons.mp he with rfl | he
    · rw [harms] at hstart
      exact absurd hstart (by simp)
    · exact h.past e he key start hstart
  keyed := h.keyed
  armed key entry hentry := by
    obtain ⟨timer, htimer, hkey, hserved⟩ := h.armed key entry hentry
    exact ⟨timer, htimer, hkey, hserved.cons (by simp [harms])⟩
  woken := h.woken
  firing i timer account htimer hphase := by
    obtain ⟨hkey, hnone, hserved⟩ := h.firing i timer account htimer hphase
    exact ⟨hkey, hnone, hserved.cons (by simp [harms])⟩
  never := h.never.cons hx

/-- The entry of a key is taken out. -/
theorem Punctual.erase (h : Punctual cfg s) (key : Key) :
    Punctual cfg { s with entries := s.entries.erase key } where
  numbered := h.numbered
  past := h.past
  keyed k entry hentry := h.keyed k entry (Dict.lookup_of_erase hentry)
  armed k entry hentry := h.armed k entry (Dict.lookup_of_erase hentry)
  woken := h.woken
  firing i timer account htimer hphase := by
    obtain ⟨hkey, hnone, hserved⟩ := h.firing i timer account htimer hphase
    refine ⟨hkey, ?_, hserved⟩
    rcases eq_or_ne timer.key key with heq | hne
    · rw [heq]
      exact AList.lookup_erase ..
    · rwa [AList.lookup_erase_ne hne]
  never := h.never

/-- `_cancel_existing`. -/
theorem Punctual.cancelExisting (h : Punctual cfg s) (key : Key) :
    Punctual cfg (cancelExisting s key) where
  numbered i hi := by
    have hnone := h.numbered i (cancelExisting_next ▸ hi)
    rcases cancelExisting_timers s key i with heq | heq <;> rw [heq, hnone]
    rfl
  past e he k start hstart := by
    rw [cancelExisting_log] at he
    rw [cancelExisting_now]
    exact h.past e he k start hstart
  keyed k entry hentry := by
    obtain ⟨entry₀, hentry₀, haccount, -⟩ := lookup_of_cancelExisting hentry
    rw [haccount]
    exact h.keyed k entry₀ hentry₀
  armed k entry hentry := by
    obtain ⟨entry₀, hentry₀, -, harmed⟩ := lookup_of_cancelExisting hentry
    obtain ⟨timer, htimer, hkey, hserved⟩ := h.armed k entry₀ hentry₀
    rw [harmed, cancelExisting_log]
    rcases cancelExisting_timers s key entry₀.armed with heq | heq
    · exact ⟨timer, heq.trans htimer, hkey, hserved⟩
    · obtain ⟨phase, hcancel, -⟩ := timer.cancel_eq
      refine ⟨timer.cancel, by rw [heq, htimer]; rfl, ?_⟩
      rw [hcancel]
      exact ⟨hkey, hserved⟩
  woken i timer htimer hphase := by
    rw [cancelExisting_now]
    obtain ⟨timer₀, htimer₀, rfl | ⟨rfl, -⟩⟩ := timer_of_cancelExisting htimer
    · exact h.woken i timer htimer₀ hphase
    · exact absurd hphase (by simp)
  firing i timer account htimer hphase := by
    rw [cancelExisting_now, cancelExisting_log]
    obtain ⟨timer₀, htimer₀, rfl | ⟨rfl, -⟩⟩ := timer_of_cancelExisting htimer
    · obtain ⟨hkey, hnone, hserved⟩ := h.firing i timer account htimer₀ hphase
      refine ⟨hkey, ?_, hserved⟩
      rcases hentry : (Linger.cancelExisting s key).entries.lookup timer.key with _ | entry
      · rfl
      · obtain ⟨entry₀, hentry₀, -⟩ := lookup_of_cancelExisting hentry
        rw [hnone] at hentry₀
        exact absurd hentry₀ (by simp)
    · exact absurd hphase (by simp)
  never := by
    rw [cancelExisting_log]
    exact h.never

/-- `start` puts an entry in place of another. -/
theorem Punctual.replace (h : Punctual cfg s) (key : Key) : Punctual cfg (replace s key) := by
  unfold Linger.replace
  split
  · exact h
  · exact h.note rfl (by simp)

/-- **A timer is started** for a key that no `_fire` has just taken an entry of. -/
theorem Punctual.arm (h : Punctual cfg s) {account : Account} (hkey : account.ids.key = key)
    {x : Event} {time : Seconds} (hnow : time = s.now) (harms : x.arms = some (key, time))
    (hx : ∀ account time, x ≠ .expired account time)
    (hfree : ∀ i timer account, s.timers i = some timer → timer.phase = .firing account →
      timer.key ≠ key) :
    Punctual cfg ((arm cfg s key account).note x) := by
  subst hnow
  -- the timers that were there
  have hother : ∀ i timer, s.timers i = some timer →
      Function.update s.timers s.next (some ⟨key, s.now + cfg.delay key.1, .waiting⟩) i =
        some timer := by
    intro i timer htimer
    have hne : i ≠ s.next := by
      rintro rfl
      rw [h.numbered _ le_rfl] at htimer
      exact absurd htimer (by simp)
    rwa [Function.update_of_ne hne]
  constructor
  · intro i hi
    have hi' : s.next + 1 ≤ i := hi
    show Function.update s.timers s.next _ i = none
    rw [Function.update_of_ne (by omega)]
    exact h.numbered i (by omega)
  · intro e he k start hstart
    rcases List.mem_cons.mp he with rfl | he
    · rw [harms] at hstart
      obtain ⟨-, rfl⟩ := Prod.mk.inj (Option.some.inj hstart)
      exact le_rfl
    · exact h.past e he k start hstart
  · intro k entry hentry
    rcases Dict.lookup_of_insert hentry with ⟨rfl, rfl⟩ | ⟨-, hentry⟩
    · exact hkey
    · exact h.keyed k entry hentry
  · intro k entry hentry
    rcases Dict.lookup_of_insert hentry with ⟨rfl, rfl⟩ | ⟨hne, hentry⟩
    · refine ⟨_, Function.update_self .., rfl, fun e he start hstart => ?_⟩
      have hpast : start ≤ s.now := by
        rcases List.mem_cons.mp he with rfl | he
        · rw [harms] at hstart
          exact (Prod.mk.inj (Option.some.inj hstart)).2.ge
        · exact h.past e he k start hstart
      show start + cfg.delay k.1 ≤ s.now + cfg.delay k.1
      gcongr
    · obtain ⟨timer, htimer, hk, hserved⟩ := h.armed k entry hentry
      refine ⟨timer, hother _ _ htimer, hk, hserved.cons fun start hstart => ?_⟩
      rw [harms] at hstart
      exact hne (Prod.mk.inj (Option.some.inj hstart)).1.symm
  · intro i timer htimer hphase
    rcases Lts.update_eq_some htimer with ⟨rfl, hnew⟩ | ⟨-, htimer⟩
    · obtain rfl := Option.some.inj hnew
      exact absurd hphase (by simp)
    · exact h.woken i timer htimer hphase
  · intro i timer account' htimer hphase
    rcases Lts.update_eq_some htimer with ⟨rfl, hnew⟩ | ⟨-, htimer⟩
    · obtain rfl := Option.some.inj hnew
      exact absurd hphase (by simp)
    · obtain ⟨hkey', hnone, hserved⟩ := h.firing i timer account' htimer hphase
      have hne := hfree i timer account' htimer hphase
      refine ⟨hkey', ?_, hserved.cons fun start hstart => ?_⟩
      · show (s.entries.insert key _).lookup timer.key = none
        rwa [AList.lookup_insert_ne hne]
      · rw [harms] at hstart
        exact hne (Prod.mk.inj (Option.some.inj hstart)).1.symm
  · exact h.never.cons hx

/-- A timer gets a new phase. -/
theorem Punctual.setPhase (h : Punctual cfg s) {i : ℕ} {timer : Timer}
    (htimer : s.timers i = some timer) {phase : Phase}
    (hwoken : phase = .woken → timer.due ≤ s.now)
    (hfires : ∀ account, phase = .firing account → account.ids.key = timer.key ∧
      s.entries.lookup timer.key = none ∧ Served cfg s.log timer.key s.now) :
    Punctual cfg (s.setPhase i timer phase) where
  numbered j hj := by
    have hne : j ≠ i := by
      rintro rfl
      rw [h.numbered j hj] at htimer
      exact absurd htimer (by simp)
    show Function.update s.timers i _ j = none
    rw [Function.update_of_ne hne]
    exact h.numbered j hj
  past := h.past
  keyed := h.keyed
  armed key entry hentry := by
    obtain ⟨timer', htimer', hkey, hserved⟩ := h.armed key entry hentry
    show ∃ timer'', Function.update s.timers i _ entry.armed = some timer'' ∧ _
    rcases eq_or_ne entry.armed i with heq | hne
    · rw [heq] at htimer' ⊢
      obtain rfl := Option.some.inj (htimer.symm.trans htimer')
      exact ⟨_, Function.update_self .., hkey, hserved⟩
    · exact ⟨timer', by rwa [Function.update_of_ne hne], hkey, hserved⟩
  woken j timer' htimer' hphase := by
    rcases Lts.update_eq_some htimer' with ⟨rfl, hnew⟩ | ⟨-, htimer'⟩
    · obtain rfl := Option.some.inj hnew
      exact hwoken hphase
    · exact h.woken j timer' htimer' hphase
  firing j timer' account htimer' hphase := by
    rcases Lts.update_eq_some htimer' with ⟨rfl, hnew⟩ | ⟨-, htimer'⟩
    · obtain rfl := Option.some.inj hnew
      exact hfires account hphase
    · exact h.firing j timer' account htimer' hphase
  never := h.never

/-- **`_fire`** takes out an entry whose last timer is its own. -/
theorem Punctual.fire (h : Punctual cfg s) {i : ℕ} {timer : Timer} {entry : Entry}
    (htimer : s.timers i = some timer) (hphase : timer.phase = .woken)
    (hentry : s.entries.lookup timer.key = some entry) (hown : entry.armed = i) :
    Punctual cfg { s.setPhase i timer (.firing entry.account) with
      entries := s.entries.erase timer.key } := by
  refine (h.erase timer.key).setPhase htimer (by simp) ?_
  rintro _ ⟨⟩
  obtain ⟨last, hlast, -, hserved⟩ := h.armed timer.key entry hentry
  obtain rfl : timer = last := by
    rw [hown, htimer] at hlast
    exact Option.some.inj hlast
  exact ⟨h.keyed timer.key entry hentry, AList.lookup_erase ..,
    hserved.mono (h.woken i timer htimer hphase)⟩

/-- **`on_expire`** is called for a key that has had its delay. -/
theorem Punctual.expire (h : Punctual cfg s) {i : ℕ} {timer : Timer} {account : Account}
    (htimer : s.timers i = some timer) (hphase : timer.phase = .firing account) :
    Punctual cfg ((s.setPhase i timer .ended).note (.expired account s.now)) := by
  obtain ⟨hkey, -, hserved⟩ := h.firing i timer account htimer hphase
  have hended : Punctual cfg (s.setPhase i timer .ended) := h.setPhase htimer (by simp) (by simp)
  constructor
  · exact hended.numbered
  · intro e he key start hstart
    rcases List.mem_cons.mp he with rfl | he
    · exact absurd hstart (by simp [Event.arms])
    · exact h.past e he key start hstart
  · exact h.keyed
  · intro key entry hentry
    obtain ⟨timer', htimer', hk, hs⟩ := hended.armed key entry hentry
    exact ⟨timer', htimer', hk, hs.cons (by simp [Event.arms])⟩
  · exact hended.woken
  · intro j timer' account' htimer' hphase'
    obtain ⟨hk, hnone, hs⟩ := hended.firing j timer' account' htimer' hphase'
    exact ⟨hk, hnone, hs.cons (by simp [Event.arms])⟩
  · exact h.never.expire (hkey ▸ hserved)

variable [DecidableEq T] {l : Label T}

/-- What a thread in `shutdown` has still to do makes no difference. -/
theorem Punctual.setShutdown (h : Punctual cfg s) (t : T) (keys : List Key) :
    Punctual cfg (s.setShutdown t keys) :=
  ⟨h.numbered, h.past, h.keyed, h.armed, h.woken, h.firing, h.never⟩

omit [DecidableEq T] in
/-- `cancel`, where there is an entry. -/
theorem Punctual.cancel (h : Punctual cfg s) (key : Key) (account : Account) :
    Punctual cfg { (Linger.cancelExisting s key).note (.cancelled account) with
      entries := (Linger.cancelExisting s key).entries.erase key } :=
  ((h.cancelExisting key).note rfl (by simp)).erase key

/-- **A timely step keeps the invariant.** -/
theorem Punctual.step (h : Punctual cfg s) (htimely : Timely s l) (hstep : Step cfg s l s') :
    Punctual cfg s' := by
  cases hstep with
  | tick hd => exact h.tick hd
  | start ids =>
    have hbefore := (h.cancelExisting ids.key).replace ids.key
    refine hbefore.arm (x := .started ⟨s.next, ids⟩ s.now) rfl ?_ rfl (by simp) ?_
    · rw [replace_now, cancelExisting_now]
    · intro i timer account htimer hphase hkey
      rw [replace_timers] at htimer
      obtain ⟨timer₀, htimer₀, rfl | ⟨rfl, -⟩⟩ := timer_of_cancelExisting htimer
      · have hlt : i < s.next := by
          by_contra hge
          rw [h.numbered i (not_lt.mp hge)] at htimer₀
          exact absurd htimer₀ (by simp)
        exact htimely i hlt timer htimer₀ hkey account hphase
      · exact absurd hphase (by simp)
  | @reset key entry hentry =>
    refine (h.cancelExisting key).arm (h.keyed key entry hentry) cancelExisting_now.symm rfl
      (by simp) fun i timer account htimer hphase hkey => ?_
    obtain ⟨entry', hentry'⟩ : ∃ e, (Linger.cancelExisting s key).entries.lookup key = some e :=
      (lookup_cancelExisting hentry).imp fun _ h => h.1
    have hnone := ((h.cancelExisting key).firing i timer account htimer hphase).2.1
    rw [hkey, hentry'] at hnone
    exact absurd hnone (by simp)
  | unstarted key => exact h.cancelExisting key
  | cancel hentry => exact h.cancel _ _
  | idle => exact h
  | shutdown hkeys => exact h.setShutdown _ _
  | drop hkeys hentry => exact (h.cancel _ _).setShutdown _ _
  | skip hkeys hentry => exact h.setShutdown _ _
  | wake htimer hphase hdue => exact h.setPhase htimer (fun _ => hdue) (by simp)
  | fire htimer hphase hentry =>
    exact h.fire htimer hphase hentry (htimely _ htimer _ hentry)
  | lapse htimer hphase => exact h.setPhase htimer (by simp) (by simp)
  | expire htimer hphase => exact h.expire htimer hphase

/-- **Linger never expires early** in a run all of whose steps are timely. -/
theorem neverEarly_of_timely {s : State T} {ls : List (Label T)}
    (h : Lts.Run (Lts.Under Timely (Lts.ofStep (step cfg))) State.init ls s) :
    NeverEarly cfg s.log := by
  have hI : Punctual cfg s := h.inv_state (I := Punctual cfg) punctual_init
    fun a l b ha hl => ha.step hl.1 (.of_step hl.2)
  exact hI.never

/-- A session that is reset after a quarter of an hour is expired half an hour later, by the
timer of the `reset`. -/
theorem neverEarly_of_reset : ∃ s : State Bool,
    s.log.head? = some (.expired ⟨0, ⟨[1], [2], [4], [3]⟩⟩ 2700) ∧
      .extended ([1], [2]) 900 ∈ s.log ∧ NeverEarly ⟨[], 1800⟩ s.log := by
  obtain ⟨s, hrun, hs⟩ := Lts.exists_under_run_of_exec (step ⟨[], 1800⟩) (C := Timely)
    (fun s l => decide (Timely s l)) (fun _ _ => of_decide_eq_true) (State.init : State Bool)
    [.start ⟨[1], [2], [4], [3]⟩, .tick 900, .reset ([1], [2]), .tick 1800, .wake 1, .fire 1,
      .expire 1]
    (fun s => s.log.head? = some (.expired ⟨0, ⟨[1], [2], [4], [3]⟩⟩ 2700) ∧
      .extended ([1], [2]) 900 ∈ s.log)
    (by decide +kernel)
  obtain ⟨hexpired, hreset⟩ := of_decide_eq_true hs
  exact ⟨s, hexpired, hreset, neverEarly_of_timely hrun⟩

/-- The timer of a session wakes; a `reset` gets the lock before its `_fire` does, and returns
`True`; and then the session is expired, half an hour too early. -/
theorem not_neverEarly : ∃ (ls : List (Label Bool)) (s : State Bool),
    Lts.Run (Lts.ofStep (step ⟨[], 1800⟩)) State.init ls s ∧ ¬NeverEarly ⟨[], 1800⟩ s.log := by
  obtain ⟨s, hrun, hs⟩ := Lts.exists_run_of_exec (step ⟨[], 1800⟩) (State.init : State Bool)
    [.start ⟨[1], [2], [4], [3]⟩, .tick 1800, .wake 0, .reset ([1], [2]), .fire 0, .expire 0]
    (fun s => s.log = [.expired ⟨0, ⟨[1], [2], [4], [3]⟩⟩ 1800, .extended ([1], [2]) 1800,
      .started ⟨0, ⟨[1], [2], [4], [3]⟩⟩ 0])
    (by decide +kernel)
  refine ⟨_, s, hrun, fun h => ?_⟩
  rw [of_decide_eq_true hs] at h
  have hlate := h [] _ _ _ rfl (.extended ([1], [2]) 1800) List.mem_cons_self 1800 rfl
  exact absurd hlate (by decide +kernel)

end Linger

end OtamanBridge
