import OtamanBridge.Core
import OtamanBridge.Lib.Run

/-!
# Sessions that are spawned for a message

`handle_bus_event` of `spawn_decision.py` from where it has read its message, the registry
of `session_registry.py` it asks, and the timers of `session_linger.py`. Two threads may be
in `handle_bus_event` at once, the watchdog's and that of `process_pending`; the registry
and the linger manager have a lock each, and nothing holds one over two calls. So a step is
one call of the registry, of the runner or of the linger manager, or something a timer
does.

A message that is no task for an agent of the bridge ends before any of this; any other
comes to it with some task, whatever the message was. What nothing in the program reads is
the log.
-/

namespace OtamanBridge

namespace Spawn

open Py

/-! ### What is kept -/

/-- The agent and the human of a session. -/
abbrev Key := Text × Text

/-- What a message asks for. -/
structure Task where
  key : Key
  /-- `mode == "headless"`. -/
  headless : Bool
  changeId : Text
  deriving DecidableEq

/-- A row of `sessions`, under the agent and the human. -/
structure Row where
  sessionId : Text
  heartbeatAt : Seconds
  deriving DecidableEq

/-- `_LingerEntry`, with the number of its timer. -/
structure LingerEntry where
  sessionId : Text
  changeId : Text
  timer : ℕ
  deriving DecidableEq

/-- Where a `threading.Timer` stands. -/
inductive TimerPhase
  /-- Waiting. -/
  | armed (due : Seconds)
  /-- Its time has come and it was not cancelled: `_fire` comes next. -/
  | woken
  /-- `_fire` has taken this entry out: `on_expire` comes next. -/
  | firing (entry : LingerEntry)
  /-- Cancelled, or at its end. -/
  | ended
  deriving DecidableEq

/-- A timer of a key. -/
structure Timer where
  key : Key
  phase : TimerPhase
  deriving DecidableEq

/-- `SpawnOutcome.action`, with the session. -/
inductive Action
  | spawned (sessionId : Text)
  | warmSession
  | interactiveReview
  | spawnFailed
  deriving DecidableEq

/-- Where a `handle_bus_event` call stands. -/
inductive Phase
  /-- `is_sessioned` comes next. -/
  | looking
  /-- The runner is asked for a session. -/
  | spawning
  /-- The runner has started a session; `claim_session` comes next. -/
  | claiming (sessionId : Text)
  /-- `linger_manager.start` comes next, whatever `claim_session` returned. -/
  | lingering (sessionId : Text)
  /-- The call is about to return. -/
  | leaving (action : Action)
  deriving DecidableEq

/-- A `handle_bus_event` call. -/
structure Call where
  task : Task
  phase : Phase
  deriving DecidableEq

/-- What has happened. -/
inductive Event
  /-- The runner started a session for a call. -/
  | spawned (key : Key) (sessionId : Text)
  /-- The row of a session was removed. -/
  | removed (key : Key) (sessionId : Text)
  /-- A linger timer was started for a session, while this one had the row. -/
  | lingered (key : Key) (sessionId : Text) (holder : Option Text)
  /-- A call returned, while this session had the row. -/
  | returned (key : Key) (action : Action) (holder : Option Text)
  /-- A call returned that the session is warm, at this time, while this one lingered. -/
  | warm (key : Key) (time : Seconds) (lingering : Option Text)
  /-- `on_expire` was called, at this time. -/
  | expired (key : Key) (sessionId : Text) (time : Seconds)
  deriving DecidableEq

/-- The linger delay of an agent, and whether there is a linger manager. -/
structure Config where
  delay : Text → Seconds
  lingers : Bool

/-- `DEFAULT_LINGER_SECONDS`. -/
def defaultLingerSeconds : Seconds := 30 * 60

/-- The whole state, with a place for each thread. -/
structure State (T : Type) where
  now : Seconds
  rows : Key → Option Row
  calls : T → Option Call
  /-- `_entries`. -/
  entries : Key → Option LingerEntry
  timers : ℕ → Option Timer
  /-- The number of the next timer. -/
  next : ℕ
  log : List Event

namespace State

variable {T : Type}

/-- Nothing has happened; the registry may hold sessions. -/
def init (rows : Key → Option Row) : State T where
  now := 0
  rows := rows
  calls := fun _ => none
  entries := fun _ => none
  timers := fun _ => none
  next := 0
  log := []

variable (s : State T)

/-- The session that has the row. -/
def holder (key : Key) : Option Text := (s.rows key).map Row.sessionId

/-- Write a call. -/
def setCall [DecidableEq T] (t : T) (call : Option Call) : State T :=
  { s with calls := Function.update s.calls t call }

/-- Write a row. -/
def setRow (key : Key) (row : Option Row) : State T :=
  { s with rows := Function.update s.rows key row }

/-- Write a timer. -/
def setTimer (i : ℕ) (timer : Timer) : State T :=
  { s with timers := Function.update s.timers i (some timer) }

/-- Note what happened. -/
def note (e : Event) : State T := { s with log := e :: s.log }

end State

variable {T : Type}

/-! ### The registry -/

/-- `claim_session`: what it returns, and the row after it. -/
def claimSession (now : Seconds) (row : Option Row) (sessionId : Text) : Bool × Option Row :=
  match row with
  | some existing =>
    if existing.sessionId ≠ sessionId then (false, row) else (true, some ⟨sessionId, now⟩)
  | none => (true, some ⟨sessionId, now⟩)

/-! ### The linger manager -/

/-- `_cancel_existing`: a timer that has woken runs all the same. -/
def cancelTimer (timer : Timer) : Timer :=
  match timer.phase with
  | .armed _ => { timer with phase := .ended }
  | _ => timer

/-- `_cancel_existing`. -/
def cancelExisting (s : State T) (key : Key) : ℕ → Option Timer :=
  match s.entries key with
  | some entry => Function.update s.timers entry.timer ((s.timers entry.timer).map cancelTimer)
  | none => s.timers

/-- What `start` and `reset` do: the timer there is is cancelled, and a new one is armed. -/
def arm (cfg : Config) (s : State T) (key : Key) (sessionId changeId : Text) : State T :=
  { s with
    timers := Function.update (cancelExisting s key) s.next
      (some ⟨key, .armed (s.now + cfg.delay key.1)⟩)
    entries := Function.update s.entries key (some ⟨sessionId, changeId, s.next⟩)
    next := s.next + 1 }

/-! ### Steps -/

/-- What a step is told: who moves, and what the environment answers. -/
inductive Label (T : Type)
  /-- Time passes. -/
  | tick (d : Seconds)
  /-- A thread calls `handle_bus_event`. -/
  | call (t : T) (task : Task)
  /-- `is_sessioned`. -/
  | look (t : T)
  /-- The runner answers with a session, or an error. -/
  | spawn (t : T) (result : Option Text)
  /-- `claim_session`. -/
  | claim (t : T)
  /-- `linger_manager.start`, if there is one. -/
  | linger (t : T)
  /-- The call returns. -/
  | leave (t : T)
  /-- Something raises that the call does not catch. -/
  | abort (t : T)
  /-- `release_session`. -/
  | release (key : Key) (sessionId : Text)
  | heartbeat (key : Key) (sessionId : Text)
  /-- `cleanup_stale` comes to this row: one statement takes all of them, which is the same as
  one after the other. -/
  | cleanup (key : Key) (threshold : Seconds)
  /-- A timer wakes. -/
  | wake (i : ℕ)
  /-- `_fire` takes the entry of the key out. -/
  | fire (i : ℕ)
  /-- `on_expire`. -/
  | expire (i : ℕ)
  /-- `reset`, by someone else. -/
  | reset (key : Key)
  /-- `cancel`. -/
  | cancel (key : Key)

variable [DecidableEq T]

/-- One step of a `handle_bus_event` call. -/
def stepCall (cfg : Config) (s : State T) (t : T) (task : Task) : Phase → Label T → Option (State T)
  | .looking, .look _ =>
    some (s.setCall t (some ⟨task,
      if (s.rows task.key).isSome then .leaving .warmSession
      else if task.headless then .spawning
      else .leaving .interactiveReview⟩))
  | .spawning, .spawn _ none => some (s.setCall t (some ⟨task, .leaving .spawnFailed⟩))
  | .spawning, .spawn _ (some sessionId) =>
    some ((s.setCall t (some ⟨task, .claiming sessionId⟩)).note (.spawned task.key sessionId))
  | .claiming sessionId, .claim _ =>
    some ((s.setRow task.key (claimSession s.now (s.rows task.key) sessionId).2).setCall t
      (some ⟨task, .lingering sessionId⟩))
  | .lingering sessionId, .linger _ =>
    let s' := s.setCall t (some ⟨task, .leaving (.spawned sessionId)⟩)
    some (if cfg.lingers then
      (arm cfg s' task.key sessionId task.changeId).note
        (.lingered task.key sessionId (s.holder task.key))
    else s')
  | .leaving action, .leave _ =>
    let s' := (s.setCall t none).note (.returned task.key action (s.holder task.key))
    some (if action = .warmSession then
      s'.note (.warm task.key s.now ((s.entries task.key).map LingerEntry.sessionId))
    else s')
  | _, _ => none

/-- One step of a timer. -/
def stepTimer (s : State T) (i : ℕ) (key : Key) : TimerPhase → Label T → Option (State T)
  | .armed due, .wake _ => if due ≤ s.now then some (s.setTimer i ⟨key, .woken⟩) else none
  | .woken, .fire _ =>
    match s.entries key with
    | some entry =>
      some { s.setTimer i ⟨key, .firing entry⟩ with
        entries := Function.update s.entries key none }
    | none => some (s.setTimer i ⟨key, .ended⟩)
  | .firing entry, .expire _ =>
    some ((s.setTimer i ⟨key, .ended⟩).note (.expired key entry.sessionId s.now))
  | _, _ => none

/-- A row is taken away. -/
def removeRow (s : State T) (key : Key) (row : Row) : State T :=
  (s.setRow key none).note (.removed key row.sessionId)

/-- One step. -/
def step (cfg : Config) (s : State T) : Label T → Option (State T)
  | .tick d => if 0 ≤ d then some { s with now := s.now + d } else none
  | .call t task =>
    match s.calls t with
    | some _ => none
    | none => some (s.setCall t (some ⟨task, .looking⟩))
  | .look t => (s.calls t).bind fun c => stepCall cfg s t c.task c.phase (.look t)
  | .spawn t result => (s.calls t).bind fun c => stepCall cfg s t c.task c.phase (.spawn t result)
  | .claim t => (s.calls t).bind fun c => stepCall cfg s t c.task c.phase (.claim t)
  | .linger t => (s.calls t).bind fun c => stepCall cfg s t c.task c.phase (.linger t)
  | .leave t => (s.calls t).bind fun c => stepCall cfg s t c.task c.phase (.leave t)
  | .abort t => (s.calls t).map fun _ => s.setCall t none
  | .release key sessionId =>
    match s.rows key with
    | some row => if row.sessionId = sessionId then some (removeRow s key row) else some s
    | none => some s
  | .heartbeat key sessionId =>
    match s.rows key with
    | some row =>
      if row.sessionId = sessionId then some (s.setRow key (some { row with heartbeatAt := s.now }))
      else some s
    | none => some s
  | .cleanup key threshold =>
    match s.rows key with
    | some row =>
      if row.heartbeatAt < s.now - threshold then some (removeRow s key row) else some s
    | none => some s
  | .wake i => (s.timers i).bind fun timer => stepTimer s i timer.key timer.phase (.wake i)
  | .fire i => (s.timers i).bind fun timer => stepTimer s i timer.key timer.phase (.fire i)
  | .expire i => (s.timers i).bind fun timer => stepTimer s i timer.key timer.phase (.expire i)
  | .reset key =>
    match s.entries key with
    | some entry => some (arm cfg s key entry.sessionId entry.changeId)
    | none => some s
  | .cancel key =>
    some { s with timers := cancelExisting s key, entries := Function.update s.entries key none }

/-! ### What a step can do -/

variable {cfg : Config} {s s' : State T}

/-- The steps, by what they do. -/
inductive Step (cfg : Config) (s : State T) : Label T → State T → Prop
  | tick {d : Seconds} (hd : 0 ≤ d) : Step cfg s (.tick d) { s with now := s.now + d }
  | call {t : T} (task : Task) (hnone : s.calls t = none) :
      Step cfg s (.call t task) (s.setCall t (some ⟨task, .looking⟩))
  | warm {t : T} {task : Task} {row : Row} (hcall : s.calls t = some ⟨task, .looking⟩)
      (hrow : s.rows task.key = some row) :
      Step cfg s (.look t) (s.setCall t (some ⟨task, .leaving .warmSession⟩))
  | cold {t : T} {task : Task} (hcall : s.calls t = some ⟨task, .looking⟩)
      (hrow : s.rows task.key = none) :
      Step cfg s (.look t) (s.setCall t (some ⟨task,
        if task.headless then .spawning else .leaving .interactiveReview⟩))
  | refused {t : T} {task : Task} (hcall : s.calls t = some ⟨task, .spawning⟩) :
      Step cfg s (.spawn t none) (s.setCall t (some ⟨task, .leaving .spawnFailed⟩))
  | spawned {t : T} {task : Task} (sessionId : Text)
      (hcall : s.calls t = some ⟨task, .spawning⟩) :
      Step cfg s (.spawn t (some sessionId))
        ((s.setCall t (some ⟨task, .claiming sessionId⟩)).note (.spawned task.key sessionId))
  | claim {t : T} {task : Task} {sessionId : Text}
      (hcall : s.calls t = some ⟨task, .claiming sessionId⟩) :
      Step cfg s (.claim t)
        ((s.setRow task.key (claimSession s.now (s.rows task.key) sessionId).2).setCall t
          (some ⟨task, .lingering sessionId⟩))
  | linger {t : T} {task : Task} {sessionId : Text}
      (hcall : s.calls t = some ⟨task, .lingering sessionId⟩) (hlingers : cfg.lingers) :
      Step cfg s (.linger t)
        ((arm cfg (s.setCall t (some ⟨task, .leaving (.spawned sessionId)⟩)) task.key sessionId
          task.changeId).note (.lingered task.key sessionId (s.holder task.key)))
  | skip {t : T} {task : Task} {sessionId : Text}
      (hcall : s.calls t = some ⟨task, .lingering sessionId⟩) :
      Step cfg s (.linger t) (s.setCall t (some ⟨task, .leaving (.spawned sessionId)⟩))
  | leave {t : T} {task : Task} {action : Action}
      (hcall : s.calls t = some ⟨task, .leaving action⟩) (hcold : action ≠ .warmSession) :
      Step cfg s (.leave t)
        ((s.setCall t none).note (.returned task.key action (s.holder task.key)))
  | leaveWarm {t : T} {task : Task} (hcall : s.calls t = some ⟨task, .leaving .warmSession⟩) :
      Step cfg s (.leave t)
        (((s.setCall t none).note (.returned task.key .warmSession (s.holder task.key))).note
          (.warm task.key s.now ((s.entries task.key).map LingerEntry.sessionId)))
  | abort {t : T} {call : Call} (hcall : s.calls t = some call) :
      Step cfg s (.abort t) (s.setCall t none)
  | release {key : Key} {row : Row} (hrow : s.rows key = some row) :
      Step cfg s (.release key row.sessionId) (removeRow s key row)
  | beat {key : Key} {row : Row} (hrow : s.rows key = some row) :
      Step cfg s (.heartbeat key row.sessionId)
        (s.setRow key (some { row with heartbeatAt := s.now }))
  | clean {key : Key} {row : Row} {threshold : Seconds} (hrow : s.rows key = some row)
      (hold : row.heartbeatAt < s.now - threshold) :
      Step cfg s (.cleanup key threshold) (removeRow s key row)
  | idle (l : Label T) : Step cfg s l s
  | wake {i : ℕ} {key : Key} {due : Seconds} (htimer : s.timers i = some ⟨key, .armed due⟩)
      (hdue : due ≤ s.now) : Step cfg s (.wake i) (s.setTimer i ⟨key, .woken⟩)
  | fire {i : ℕ} {key : Key} {entry : LingerEntry} (htimer : s.timers i = some ⟨key, .woken⟩)
      (hentry : s.entries key = some entry) :
      Step cfg s (.fire i) { s.setTimer i ⟨key, .firing entry⟩ with
        entries := Function.update s.entries key none }
  | lapse {i : ℕ} {key : Key} (htimer : s.timers i = some ⟨key, .woken⟩) :
      Step cfg s (.fire i) (s.setTimer i ⟨key, .ended⟩)
  | expire {i : ℕ} {key : Key} {entry : LingerEntry}
      (htimer : s.timers i = some ⟨key, .firing entry⟩) :
      Step cfg s (.expire i)
        ((s.setTimer i ⟨key, .ended⟩).note (.expired key entry.sessionId s.now))
  | reset {key : Key} {entry : LingerEntry} (hentry : s.entries key = some entry) :
      Step cfg s (.reset key) (arm cfg s key entry.sessionId entry.changeId)
  | cancel (key : Key) :
      Step cfg s (.cancel key)
        { s with timers := cancelExisting s key, entries := Function.update s.entries key none }

theorem Step.of_stepCall {l : Label T} {t : T} {task : Task} {phase : Phase}
    (hcall : s.calls t = some ⟨task, phase⟩)
    (ht : l = .look t ∨ (∃ result, l = .spawn t result) ∨ l = .claim t ∨ l = .linger t ∨
      l = .leave t)
    (h : stepCall cfg s t task phase l = some s') : Step cfg s l s' := by
  unfold stepCall at h
  split at h
  · obtain rfl : _ = t := by simpa using ht
    rcases hrow : s.rows task.key with _ | row
    · rw [hrow] at h
      obtain rfl := Option.some.inj h
      exact .cold hcall hrow
    · rw [hrow] at h
      obtain rfl := Option.some.inj h
      exact .warm hcall hrow
  · obtain rfl := Option.some.inj h
    obtain rfl : _ = t := by simpa using ht
    exact .refused hcall
  · obtain rfl := Option.some.inj h
    obtain rfl : _ = t := by simpa using ht
    exact .spawned _ hcall
  · obtain rfl := Option.some.inj h
    obtain rfl : _ = t := by simpa using ht
    exact .claim hcall
  · obtain rfl : _ = t := by simpa using ht
    dsimp only at h
    split_ifs at h with hlingers
    · obtain rfl := Option.some.inj h
      exact .linger hcall hlingers
    · obtain rfl := Option.some.inj h
      exact .skip hcall
  · obtain rfl : _ = t := by simpa using ht
    dsimp only at h
    split_ifs at h with hwarm
    · obtain rfl := Option.some.inj h
      subst hwarm
      exact .leaveWarm hcall
    · obtain rfl := Option.some.inj h
      exact .leave hcall hwarm
  · exact absurd h (by simp)

theorem Step.of_stepTimer {l : Label T} {i : ℕ} {key : Key} {phase : TimerPhase}
    (htimer : s.timers i = some ⟨key, phase⟩) (hi : l = .wake i ∨ l = .fire i ∨ l = .expire i)
    (h : stepTimer s i key phase l = some s') : Step cfg s l s' := by
  unfold stepTimer at h
  split at h
  · obtain rfl : _ = i := by simpa using hi
    split_ifs at h with hdue
    obtain rfl := Option.some.inj h
    exact .wake htimer hdue
  · obtain rfl : _ = i := by simpa using hi
    split at h
    next entry hentry =>
      obtain rfl := Option.some.inj h
      exact .fire htimer hentry
    · obtain rfl := Option.some.inj h
      exact .lapse htimer
  · obtain rfl : _ = i := by simpa using hi
    obtain rfl := Option.some.inj h
    exact .expire htimer
  · exact absurd h (by simp)

/-- **Every step is one of these.** -/
theorem Step.of_step {l : Label T} (h : step cfg s l = some s') : Step cfg s l s' := by
  cases l with
  | tick d =>
    simp only [step] at h
    split_ifs at h with hd
    obtain rfl := Option.some.inj h
    exact .tick hd
  | call t task =>
    simp only [step] at h
    split at h
    · exact absurd h (by simp)
    next hnone =>
      obtain rfl := Option.some.inj h
      exact .call task hnone
  | look t | spawn t result | claim t | linger t | leave t =>
    obtain ⟨c, hcall, h⟩ := Option.bind_eq_some_iff.mp h
    exact .of_stepCall hcall (by simp) h
  | abort t =>
    obtain ⟨call, hcall, rfl⟩ := Option.map_eq_some_iff.mp h
    exact .abort hcall
  | wake i | fire i | expire i =>
    obtain ⟨timer, htimer, h⟩ := Option.bind_eq_some_iff.mp h
    exact .of_stepTimer htimer (by simp) h
  | release key sessionId =>
    simp only [step] at h
    split at h
    next row hrow =>
      split_ifs at h with hsession
      · obtain rfl := Option.some.inj h
        subst hsession
        exact .release hrow
      · obtain rfl := Option.some.inj h
        exact .idle _
    · obtain rfl := Option.some.inj h
      exact .idle _
  | heartbeat key sessionId =>
    simp only [step] at h
    split at h
    next row hrow =>
      split_ifs at h with hsession
      · obtain rfl := Option.some.inj h
        subst hsession
        exact .beat hrow
      · obtain rfl := Option.some.inj h
        exact .idle _
    · obtain rfl := Option.some.inj h
      exact .idle _
  | cleanup key threshold =>
    simp only [step] at h
    split at h
    next row hrow =>
      split_ifs at h with hold
      · obtain rfl := Option.some.inj h
        exact .clean hrow hold
      · obtain rfl := Option.some.inj h
        exact .idle _
    · obtain rfl := Option.some.inj h
      exact .idle _
  | reset key =>
    simp only [step] at h
    split at h
    next entry hentry =>
      obtain rfl := Option.some.inj h
      exact .reset hentry
    · obtain rfl := Option.some.inj h
      exact .idle _
  | cancel key =>
    obtain rfl := Option.some.inj h
    exact .cancel key

/-! ### Runs of two threads -/

/-- A linger manager with its default delay. -/
def lingering : Config := ⟨fun _ => defaultLingerSeconds, true⟩

/-- A headless task. -/
def headlessTask : Task := ⟨([1], [2]), true, [3]⟩

/-- A call of a thread that comes to a session. -/
def spawning (t : Bool) (sid : Text) : List (Label Bool) :=
  [.call t headlessTask, .look t, .spawn t (some sid), .claim t, .linger t, .leave t]

end Spawn

end OtamanBridge
