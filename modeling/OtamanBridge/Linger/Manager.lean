import OtamanBridge.Core
import OtamanBridge.Lib.Dict
import OtamanBridge.Lib.Run

/-!
# The linger manager

`SessionLingerManager` of `session_linger.py`, called by anyone at any time: `start`, `reset`,
`cancel` and `shutdown`, and the callbacks of the timers they start. Every operation holds the
lock from its first look at `_entries` to its last, except that `_fire` calls `on_expire` after
it has let the lock go, and that `shutdown` takes the lock once for the list of the keys and
once more for each of them. So these are the steps.

A `threading.Timer` waits for its delay, then looks once whether it was cancelled, and only
then calls `_fire`, which has yet to get the lock: `cancel` stops a timer that waits, and no
other. The timers are numbered as they are made, and an entry keeps the number of the first,
which is that of its `start`. What nothing in the program reads is this number and the log.
-/

namespace OtamanBridge

namespace Linger

open Py

/-! ### What is kept -/

/-- The agent and the human. -/
abbrev Key := Text × Text

/-- What `start` is called with, and `on_expire` after it. -/
structure Ids where
  agentId : Text
  humanId : Text
  sessionId : Text
  changeId : Text
  deriving DecidableEq

/-- `(agent_id, human_id)`. -/
def Ids.key (ids : Ids) : Key := (ids.agentId, ids.humanId)

/-- A `start`, by its number, and what it was called with. -/
structure Account where
  origin : ℕ
  ids : Ids
  deriving DecidableEq

/-- `_LingerEntry`, for the `start` that made it. -/
structure Entry where
  account : Account
  /-- `timer`, which `_cancel_existing` clears. -/
  timer : Option ℕ
  /-- The timer that was started last for the entry, cancelled or not. -/
  armed : ℕ
  deriving DecidableEq

/-- `_entries`. -/
abbrev Entries := AList fun _ : Key => Entry

/-- Where a `threading.Timer` stands. -/
inductive Phase
  /-- It waits. -/
  | waiting
  /-- Its delay is over and it was not cancelled: the lock in `_fire` comes next. -/
  | woken
  /-- `_fire` has taken this entry out: `on_expire` comes next. -/
  | firing (account : Account)
  /-- Cancelled, or at its end. -/
  | ended
  deriving DecidableEq

/-- A timer, the key its `_fire` is called with, and the time its delay is over. -/
structure Timer where
  key : Key
  due : Seconds
  phase : Phase
  deriving DecidableEq

/-- What has happened. -/
inductive Event
  /-- This `start` put its entry in. -/
  | started (account : Account) (time : Seconds)
  /-- A `start` put its entry into the place of this one's. -/
  | replaced (account : Account)
  /-- `reset` returned `True`. -/
  | extended (key : Key) (time : Seconds)
  /-- `cancel` took the entry out, and returned `True`. -/
  | cancelled (account : Account)
  /-- `on_expire` was called. -/
  | expired (account : Account) (time : Seconds)
  deriving DecidableEq

/-- `_overrides` and `_default_linger`: the delay of an agent. -/
structure Config where
  overrides : List (Text × Seconds)
  defaultLinger : Seconds

/-- `self._overrides.get(agent_id, self._default_linger)`. -/
def Config.delay (cfg : Config) (agentId : Text) : Seconds :=
  (cfg.overrides.lookup agentId).getD cfg.defaultLinger

/-- The whole state, with a place for each thread that is in `shutdown`. -/
structure State (T : Type) where
  now : Seconds
  entries : Entries
  timers : ℕ → Option Timer
  /-- The number of the next timer. -/
  next : ℕ
  /-- The keys `shutdown` has still to cancel. -/
  shutdowns : T → Option (List Key)
  log : List Event

namespace State

variable {T : Type}

/-- Nothing has happened. -/
def init : State T where
  now := 0
  entries := ∅
  timers := fun _ => none
  next := 0
  shutdowns := fun _ => none
  log := []

variable (s : State T)

/-- Write the phase of a timer. -/
def setPhase (i : ℕ) (timer : Timer) (phase : Phase) : State T :=
  { s with timers := Function.update s.timers i (some { timer with phase := phase }) }

/-- Note what happened. -/
def note (e : Event) : State T := { s with log := e :: s.log }

end State

variable {T : Type}

/-! ### The operations, under the lock -/

/-- `Timer.cancel`: one that has woken runs all the same. -/
def Timer.cancel (timer : Timer) : Timer :=
  match timer.phase with
  | .waiting => { timer with phase := .ended }
  | _ => timer

/-- `_cancel_existing`. -/
def cancelExisting (s : State T) (key : Key) : State T :=
  match s.entries.lookup key with
  | none => s
  | some entry =>
    match entry.timer with
    | none => s
    | some i =>
      { s with
        timers := Function.update s.timers i ((s.timers i).map Timer.cancel)
        entries := s.entries.insert key { entry with timer := none } }

/-- A new timer is started, for an entry that is put under its key. -/
def arm (cfg : Config) (s : State T) (key : Key) (account : Account) : State T :=
  { s with
    timers := Function.update s.timers s.next
      (some ⟨key, s.now + cfg.delay key.1, .waiting⟩)
    entries := s.entries.insert key ⟨account, some s.next, s.next⟩
    next := s.next + 1 }

/-- What is noted of the entry that `start` replaces. -/
def replace (s : State T) (key : Key) : State T :=
  match s.entries.lookup key with
  | none => s
  | some entry => s.note (.replaced entry.account)

theorem replace_now (s : State T) (key : Key) : (replace s key).now = s.now := by
  unfold replace
  split <;> rfl

theorem replace_next (s : State T) (key : Key) : (replace s key).next = s.next := by
  unfold replace
  split <;> rfl

theorem replace_timers (s : State T) (key : Key) : (replace s key).timers = s.timers := by
  unfold replace
  split <;> rfl

/-- `start`. -/
def start (cfg : Config) (s : State T) (ids : Ids) : State T :=
  (arm cfg (replace (cancelExisting s ids.key) ids.key) ids.key ⟨s.next, ids⟩).note
    (.started ⟨s.next, ids⟩ s.now)

/-- `reset`, and what it returns. -/
def reset (cfg : Config) (s : State T) (key : Key) : State T × Bool :=
  match s.entries.lookup key with
  | none => (s, false)
  | some entry =>
    ((arm cfg (cancelExisting s key) key entry.account).note (.extended key s.now), true)

/-- `cancel`, and what it returns. -/
def cancel (s : State T) (key : Key) : State T × Bool :=
  match s.entries.lookup key with
  | none => (s, false)
  | some entry =>
    ({ (cancelExisting s key).note (.cancelled entry.account) with
        entries := (cancelExisting s key).entries.erase key }, true)

/-! ### Steps -/

/-- What a step is told: who moves. -/
inductive Label (T : Type)
  /-- Time passes. -/
  | tick (d : Seconds)
  | start (ids : Ids)
  | reset (key : Key)
  /-- A `start` of the key, or a `reset` that finds an entry, in which the thread of the new
  timer cannot be started: it raises when `_cancel_existing` is over. -/
  | unstarted (key : Key)
  | cancel (key : Key)
  /-- `shutdown` lists the keys. -/
  | shutdown (t : T) (keys : List Key)
  /-- `shutdown` comes to the next of them. -/
  | drop (t : T)
  /-- The delay of a timer is over. -/
  | wake (i : ℕ)
  /-- `_fire` takes the entry of the key out. -/
  | fire (i : ℕ)
  /-- `_fire` calls `on_expire`; whether that raises makes no difference. -/
  | expire (i : ℕ)

/-- One step of a timer. -/
def stepTimer (s : State T) (i : ℕ) (timer : Timer) : Label T → Option (State T)
  | .wake _ =>
    if timer.phase = .waiting ∧ timer.due ≤ s.now then some (s.setPhase i timer .woken) else none
  | .fire _ =>
    if timer.phase = .woken then
      match s.entries.lookup timer.key with
      | some entry =>
        some { s.setPhase i timer (.firing entry.account) with
          entries := s.entries.erase timer.key }
      | none => some (s.setPhase i timer .ended)
    else none
  | .expire _ =>
    match timer.phase with
    | .firing account => some ((s.setPhase i timer .ended).note (.expired account s.now))
    | _ => none
  | _ => none

variable [DecidableEq T]

/-- Write what a thread in `shutdown` has still to do. -/
def State.setShutdown (s : State T) (t : T) (keys : List Key) : State T :=
  { s with shutdowns := Function.update s.shutdowns t (some keys) }

/-- One step. -/
def step (cfg : Config) (s : State T) : Label T → Option (State T)
  | .tick d => if 0 ≤ d then some { s with now := s.now + d } else none
  | .start ids => some (start cfg s ids)
  | .reset key => some (reset cfg s key).1
  | .unstarted key => some (cancelExisting s key)
  | .cancel key => some (cancel s key).1
  | .shutdown t keys =>
    if s.shutdowns t = none ∧ keys.Perm s.entries.keys then some (s.setShutdown t keys) else none
  | .drop t =>
    match s.shutdowns t with
    | some (key :: keys) => some ((cancel s key).1.setShutdown t keys)
    | _ => none
  | .wake i => (s.timers i).bind fun timer => stepTimer s i timer (.wake i)
  | .fire i => (s.timers i).bind fun timer => stepTimer s i timer (.fire i)
  | .expire i => (s.timers i).bind fun timer => stepTimer s i timer (.expire i)

/-! ### What a step can do -/

variable {cfg : Config} {s s' : State T}

/-- The steps, by what they do. -/
inductive Step (cfg : Config) (s : State T) : Label T → State T → Prop
  | tick {d : Seconds} (hd : 0 ≤ d) : Step cfg s (.tick d) { s with now := s.now + d }
  | start (ids : Ids) : Step cfg s (.start ids) (start cfg s ids)
  | reset {key : Key} {entry : Entry} (hentry : s.entries.lookup key = some entry) :
      Step cfg s (.reset key)
        ((arm cfg (cancelExisting s key) key entry.account).note (.extended key s.now))
  | unstarted (key : Key) : Step cfg s (.unstarted key) (cancelExisting s key)
  | cancel {key : Key} {entry : Entry} (hentry : s.entries.lookup key = some entry) :
      Step cfg s (.cancel key)
        { (cancelExisting s key).note (.cancelled entry.account) with
          entries := (cancelExisting s key).entries.erase key }
  | idle (l : Label T) : Step cfg s l s
  | shutdown {t : T} {keys : List Key} (hkeys : keys.Perm s.entries.keys) :
      Step cfg s (.shutdown t keys) (s.setShutdown t keys)
  | drop {t : T} {key : Key} {keys : List Key} {entry : Entry}
      (hkeys : s.shutdowns t = some (key :: keys)) (hentry : s.entries.lookup key = some entry) :
      Step cfg s (.drop t)
        (State.setShutdown { (cancelExisting s key).note (.cancelled entry.account) with
          entries := (cancelExisting s key).entries.erase key } t keys)
  | skip {t : T} {key : Key} {keys : List Key} (hkeys : s.shutdowns t = some (key :: keys))
      (hentry : s.entries.lookup key = none) : Step cfg s (.drop t) (s.setShutdown t keys)
  | wake {i : ℕ} {timer : Timer} (htimer : s.timers i = some timer)
      (hphase : timer.phase = .waiting) (hdue : timer.due ≤ s.now) :
      Step cfg s (.wake i) (s.setPhase i timer .woken)
  | fire {i : ℕ} {timer : Timer} {entry : Entry} (htimer : s.timers i = some timer)
      (hphase : timer.phase = .woken) (hentry : s.entries.lookup timer.key = some entry) :
      Step cfg s (.fire i)
        { s.setPhase i timer (.firing entry.account) with entries := s.entries.erase timer.key }
  | lapse {i : ℕ} {timer : Timer} (htimer : s.timers i = some timer)
      (hphase : timer.phase = .woken) : Step cfg s (.fire i) (s.setPhase i timer .ended)
  | expire {i : ℕ} {timer : Timer} {account : Account} (htimer : s.timers i = some timer)
      (hphase : timer.phase = .firing account) :
      Step cfg s (.expire i) ((s.setPhase i timer .ended).note (.expired account s.now))

/-- **Every step is one of these.** -/
theorem Step.of_step {l : Label T} (h : step cfg s l = some s') : Step cfg s l s' := by
  cases l with
  | tick d =>
    simp only [step] at h
    split_ifs at h with hd
    obtain rfl := Option.some.inj h
    exact .tick hd
  | start ids =>
    obtain rfl := Option.some.inj h
    exact .start ids
  | reset key =>
    obtain rfl := Option.some.inj h
    rcases hentry : s.entries.lookup key with _ | entry
    · rw [Linger.reset, hentry]
      exact .idle _
    · rw [Linger.reset, hentry]
      exact .reset hentry
  | unstarted key =>
    obtain rfl := Option.some.inj h
    exact .unstarted key
  | cancel key =>
    obtain rfl := Option.some.inj h
    rcases hentry : s.entries.lookup key with _ | entry
    · rw [Linger.cancel, hentry]
      exact .idle _
    · rw [Linger.cancel, hentry]
      exact .cancel hentry
  | shutdown t keys =>
    simp only [step] at h
    split_ifs at h with hkeys
    obtain rfl := Option.some.inj h
    exact .shutdown hkeys.2
  | drop t =>
    simp only [step] at h
    split at h
    next key keys hkeys =>
      obtain rfl := Option.some.inj h
      rcases hentry : s.entries.lookup key with _ | entry
      · rw [Linger.cancel, hentry]
        exact .skip hkeys hentry
      · rw [Linger.cancel, hentry]
        exact .drop hkeys hentry
    · exact absurd h (by simp)
  | wake i =>
    obtain ⟨timer, htimer, h⟩ := Option.bind_eq_some_iff.mp h
    simp only [stepTimer] at h
    split_ifs at h with hwait
    obtain rfl := Option.some.inj h
    exact .wake htimer hwait.1 hwait.2
  | fire i =>
    obtain ⟨timer, htimer, h⟩ := Option.bind_eq_some_iff.mp h
    simp only [stepTimer] at h
    split_ifs at h with hphase
    split at h
    next entry hentry =>
      obtain rfl := Option.some.inj h
      exact .fire htimer hphase hentry
    · obtain rfl := Option.some.inj h
      exact .lapse htimer hphase
  | expire i =>
    obtain ⟨timer, htimer, h⟩ := Option.bind_eq_some_iff.mp h
    simp only [stepTimer] at h
    split at h
    next account hphase =>
      obtain rfl := Option.some.inj h
      exact .expire htimer hphase
    · exact absurd h (by simp)

/-! ### `_cancel_existing` -/

variable {key : Key}

omit [DecidableEq T] in
/-- **`_cancel_existing` changes nothing** but a timer that waits, and that an entry has one. -/
theorem cancelExisting_eq (s : State T) (key : Key) : ∃ timers entries,
    cancelExisting s key = { s with timers := timers, entries := entries } := by
  unfold cancelExisting
  split
  · exact ⟨s.timers, s.entries, rfl⟩
  · split
    · exact ⟨s.timers, s.entries, rfl⟩
    · exact ⟨_, _, rfl⟩

omit [DecidableEq T] in
theorem cancelExisting_log : (cancelExisting s key).log = s.log := by
  obtain ⟨timers, entries, h⟩ := cancelExisting_eq s key
  rw [h]

omit [DecidableEq T] in
theorem cancelExisting_next : (cancelExisting s key).next = s.next := by
  obtain ⟨timers, entries, h⟩ := cancelExisting_eq s key
  rw [h]

omit [DecidableEq T] in
theorem cancelExisting_now : (cancelExisting s key).now = s.now := by
  obtain ⟨timers, entries, h⟩ := cancelExisting_eq s key
  rw [h]

/-- A timer that is cancelled keeps its key and its time. -/
theorem Timer.cancel_eq (timer : Timer) :
    ∃ phase, timer.cancel = { timer with phase := phase } ∧
      (phase = timer.phase ∨ timer.phase = .waiting ∧ phase = .ended) := by
  unfold Timer.cancel
  split
  next hwait => exact ⟨.ended, rfl, .inr ⟨hwait, rfl⟩⟩
  · exact ⟨timer.phase, rfl, .inl rfl⟩

omit [DecidableEq T] in
/-- The timers after `_cancel_existing`. -/
theorem cancelExisting_timers (s : State T) (key : Key) (i : ℕ) :
    (cancelExisting s key).timers i = s.timers i ∨
      (cancelExisting s key).timers i = (s.timers i).map Timer.cancel := by
  unfold cancelExisting
  split
  · exact .inl rfl
  next entry _ =>
    split
    · exact .inl rfl
    next j _ =>
      show Function.update s.timers j _ i = _ ∨ Function.update s.timers j _ i = _
      rcases eq_or_ne i j with rfl | hne
      · exact .inr (Function.update_self ..)
      · exact .inl (Function.update_of_ne hne ..)

omit [DecidableEq T] in
/-- The entries after `_cancel_existing`. -/
theorem lookup_cancelExisting {k : Key} {entry : Entry} (h : s.entries.lookup k = some entry) :
    ∃ entry', (cancelExisting s key).entries.lookup k = some entry' ∧
      entry'.account = entry.account ∧ entry'.armed = entry.armed := by
  unfold cancelExisting
  split
  · exact ⟨entry, h, rfl, rfl⟩
  next e he =>
    split
    · exact ⟨entry, h, rfl, rfl⟩
    · show ∃ entry', (s.entries.insert key { e with timer := none }).lookup k = _ ∧ _
      rcases eq_or_ne k key with rfl | hne
      · obtain rfl := Option.some.inj (he.symm.trans h)
        exact ⟨_, AList.lookup_insert _, rfl, rfl⟩
      · exact ⟨entry, by rwa [AList.lookup_insert_ne hne], rfl, rfl⟩

omit [DecidableEq T] in
/-- An entry after `_cancel_existing` was there before. -/
theorem lookup_of_cancelExisting {k : Key} {entry : Entry}
    (h : (cancelExisting s key).entries.lookup k = some entry) :
    ∃ entry₀, s.entries.lookup k = some entry₀ ∧ entry.account = entry₀.account ∧
      entry.armed = entry₀.armed := by
  unfold cancelExisting at h
  split at h
  · exact ⟨entry, h, rfl, rfl⟩
  next e he =>
    split at h
    · exact ⟨entry, h, rfl, rfl⟩
    · rcases Dict.lookup_of_insert h with ⟨rfl, rfl⟩ | ⟨-, h⟩
      · exact ⟨e, he, rfl, rfl⟩
      · exact ⟨entry, h, rfl, rfl⟩

omit [DecidableEq T] in
/-- A timer after `_cancel_existing` was there before. -/
theorem timer_of_cancelExisting {i : ℕ} {timer : Timer}
    (h : (cancelExisting s key).timers i = some timer) :
    ∃ timer₀, s.timers i = some timer₀ ∧
      (timer = timer₀ ∨ timer = { timer₀ with phase := .ended } ∧ timer₀.phase = .waiting) := by
  rcases cancelExisting_timers s key i with heq | heq
  · exact ⟨timer, heq ▸ h, .inl rfl⟩
  · rw [heq] at h
    obtain ⟨timer₀, htimer₀, rfl⟩ := Option.map_eq_some_iff.mp h
    refine ⟨timer₀, htimer₀, ?_⟩
    obtain ⟨phase, hcancel, rfl | ⟨hwait, rfl⟩⟩ := timer₀.cancel_eq
    · exact .inl hcancel
    · exact .inr ⟨hcancel, hwait⟩

end Linger

end OtamanBridge
