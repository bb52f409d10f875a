import Mathlib.Logic.Function.Basic
import OtamanBridge.Lib.Run

/-!
# Daemons, their endpoint file, and the command that stops them

`BridgeDaemon.start` and `BridgeDaemon.stop`, with `read_endpoint_file`, `write_endpoint_file`
and `_endpoint_is_live` of `daemon.py`, and `cmd_stop` of `cli.py`, for one account. The daemons
are processes, and so are the commands; all they share is the endpoint file, and the ports. The
file names a port and, by its token, a daemon: the token is drawn at random by each daemon, so
that no other daemon takes a request with it.

Nothing is locked. A step is one access to the file, one request to a port, or one change of a
process, and a process may die anywhere, with the file as it is then. What a request to a port
comes to is told with the step: a port may belong to a program of somebody else, and a daemon
may be too slow to answer.
-/

namespace OtamanBridge

namespace Daemon

/-- The endpoint file. -/
inductive EndpointFile (D : Type)
  | absent
  /-- It was opened by `write_text`, and is still empty: no JSON. -/
  | torn
  /-- The port, and the daemon whose token and pid are there. -/
  | full (port : ℕ) (owner : D)

/-- `read_endpoint_file`. -/
def EndpointFile.read {D : Type} : EndpointFile D → Option (ℕ × D)
  | .absent => none
  | .torn => none
  | .full port owner => some (port, owner)

/-- Where a daemon stands. -/
inductive Phase (D : Type)
  /-- In `start`: this was read, and `_endpoint_is_live` comes next. -/
  | probing (port : ℕ) (owner : D)
  /-- Nobody answered; the stale file is unlinked next. -/
  | replacing
  /-- The server comes next. -/
  | binding
  /-- The server is bound to the port, and `write_endpoint_file` comes next. -/
  | bound (port : ℕ)
  /-- The file is open. -/
  | writing (port : ℕ)
  | serving (port : ℕ)
  /-- In `stop`: no request is refused yet. -/
  | stopping (port : ℕ)
  /-- The server is closed; the endpoint file is unlinked next. -/
  | closed
  /-- It has stopped, or has died. -/
  | down
  /-- `start` has raised: another daemon is running. -/
  | refused

/-- Where a `cmd_stop` stands. -/
inductive StopPhase (D : Type)
  /-- `POST /shutdown` comes next, to this port with the token of this daemon. -/
  | posting (port : ℕ) (owner : D)
  /-- The request was accepted, and the file is waited for to go. -/
  | polling (port : ℕ) (owner : D)
  /-- Nobody seems to be there; the file is unlinked next. -/
  | removing
  | returned (code : ℕ)

/-- What comes of `POST /shutdown`. -/
inductive Answer
  | accepted
  /-- The text of the error has one of the words for a daemon that is gone. -/
  | unreachable
  /-- Another error, as the 401 of a daemon with another token. -/
  | failed

/-- The whole state. -/
structure State (D C : Type) where
  file : EndpointFile D
  daemons : D → Option (Phase D)
  stops : C → Option (StopPhase D)

/-- What a step is told. -/
inductive Label (D C : Type)
  /-- `start` reads the endpoint file. -/
  | read (d : D)
  /-- `_endpoint_is_live` returns. -/
  | probe (d : D) (live : Bool)
  /-- The stale file is unlinked, or cannot be. -/
  | replace (d : D) (ok : Bool)
  /-- The server gets this port. -/
  | bind (d : D) (port : ℕ)
  | truncate (d : D)
  | write (d : D)
  /-- `stop` begins: by a signal or by a request. -/
  | stop (d : D)
  | close (d : D)
  /-- The endpoint file is unlinked by `stop`, or cannot be. -/
  | remove (d : D) (ok : Bool)
  /-- The process dies. -/
  | crash (d : D)
  /-- `cmd_stop` reads the endpoint file. -/
  | stopRead (c : C)
  | post (c : C) (answer : Answer)
  /-- `endpoint_file.exists()` is false. -/
  | look (c : C)
  /-- It was true for 5 s, and `GET /status` is answered or not. -/
  | giveUp (c : C) (alive : Bool)
  /-- `cmd_stop` unlinks the file, or cannot. -/
  | clean (c : C) (ok : Bool)

namespace State

variable {D C : Type}

/-- Nothing runs, and nothing is left. -/
def init : State D C := ⟨.absent, fun _ => none, fun _ => none⟩

variable (s : State D C)

/-- A daemon gets further. -/
def moveDaemon [DecidableEq D] (d : D) (p : Phase D) : State D C :=
  { s with daemons := Function.update s.daemons d (some p) }

/-- A command gets further. -/
def moveStop [DecidableEq C] (c : C) (p : StopPhase D) : State D C :=
  { s with stops := Function.update s.stops c (some p) }

/-- The endpoint file is written. -/
def withFile (file : EndpointFile D) : State D C := { s with file }

/-- The endpoint file is unlinked, if it can be. -/
def unlinked (ok : Bool) : State D C := if ok then s.withFile .absent else s

end State

variable {D C : Type} [DecidableEq D] [DecidableEq C]

/-- What `start` does when it has read the file. -/
def afterRead (file : EndpointFile D) : Phase D :=
  match file.read with
  | none => .binding
  | some (port, owner) => .probing port owner

/-- What `cmd_stop` does when it has read the file: without one there is nothing to stop. -/
def afterStopRead (file : EndpointFile D) : StopPhase D :=
  match file.read with
  | none => .returned 0
  | some (port, owner) => .posting port owner

/-- A daemon that takes requests at this port. -/
def Phase.takes (port : ℕ) : Phase D → Bool
  | .serving p => p = port
  | .stopping p => p = port
  | _ => false

/-- `cmd_stop` unlinks the file, which raises where there is none. -/
def clean (s : State D C) (c : C) (ok : Bool) : State D C :=
  match s.file, ok with
  | .absent, _ => s.moveStop c (.returned 1)
  | _, false => s.moveStop c (.returned 1)
  | _, true => (s.withFile .absent).moveStop c (.returned 0)

/-- One step. -/
def step (s : State D C) : Label D C → Option (State D C)
  | .read d =>
    match s.daemons d with
    | none => some (s.moveDaemon d (afterRead s.file))
    | some _ => none
  | .probe d live =>
    match s.daemons d with
    | some (.probing _ _) => some (s.moveDaemon d (if live then .refused else .replacing))
    | _ => none
  | .replace d ok =>
    match s.daemons d with
    | some .replacing => some ((s.unlinked ok).moveDaemon d .binding)
    | _ => none
  | .bind d port =>
    match s.daemons d with
    | some .binding => some (s.moveDaemon d (.bound port))
    | _ => none
  | .truncate d =>
    match s.daemons d with
    | some (.bound port) => some ((s.withFile .torn).moveDaemon d (.writing port))
    | _ => none
  | .write d =>
    match s.daemons d with
    | some (.writing port) => some ((s.withFile (.full port d)).moveDaemon d (.serving port))
    | _ => none
  | .stop d =>
    match s.daemons d with
    | some (.serving port) => some (s.moveDaemon d (.stopping port))
    | _ => none
  | .close d =>
    match s.daemons d with
    | some (.stopping _) => some (s.moveDaemon d .closed)
    | _ => none
  | .remove d ok =>
    match s.daemons d with
    | some .closed => some ((s.unlinked ok).moveDaemon d .down)
    | _ => none
  | .crash d =>
    match s.daemons d with
    | some _ => some (s.moveDaemon d .down)
    | none => none
  | .stopRead c =>
    match s.stops c with
    | none => some (s.moveStop c (afterStopRead s.file))
    | some _ => none
  | .post c answer =>
    match s.stops c with
    | some (.posting port owner) =>
      match answer with
      | .accepted =>
        if (s.daemons owner).any (Phase.takes port) then some (s.moveStop c (.polling port owner))
        else none
      | .unreachable => some (s.moveStop c .removing)
      | .failed => some (s.moveStop c (.returned 1))
    | _ => none
  | .look c =>
    match s.stops c, s.file with
    | some (.polling _ _), .absent => some (s.moveStop c (.returned 0))
    | _, _ => none
  | .giveUp c alive =>
    match s.stops c with
    | some (.polling _ _) => some (s.moveStop c (if alive then .returned 1 else .removing))
    | _ => none
  | .clean c ok =>
    match s.stops c with
    | some .removing => some (clean s c ok)
    | _ => none

/-! ### What a step can do -/

/-- The steps of the daemons, by what they do to one of them and to the file. -/
inductive DaemonStep (s : State D C) (d : D) : Label D C → State D C → Prop
  | read (hnew : s.daemons d = none) :
      DaemonStep s d (.read d) (s.moveDaemon d (afterRead s.file))
  | live {port : ℕ} {owner : D} (hat : s.daemons d = some (.probing port owner)) :
      DaemonStep s d (.probe d true) (s.moveDaemon d .refused)
  | stale {port : ℕ} {owner : D} (hat : s.daemons d = some (.probing port owner)) :
      DaemonStep s d (.probe d false) (s.moveDaemon d .replacing)
  | replace {ok : Bool} (hat : s.daemons d = some .replacing) :
      DaemonStep s d (.replace d ok) ((s.unlinked ok).moveDaemon d .binding)
  | bind {port : ℕ} (hat : s.daemons d = some .binding) :
      DaemonStep s d (.bind d port) (s.moveDaemon d (.bound port))
  | truncate {port : ℕ} (hat : s.daemons d = some (.bound port)) :
      DaemonStep s d (.truncate d) ((s.withFile .torn).moveDaemon d (.writing port))
  | write {port : ℕ} (hat : s.daemons d = some (.writing port)) :
      DaemonStep s d (.write d) ((s.withFile (.full port d)).moveDaemon d (.serving port))
  | stop {port : ℕ} (hat : s.daemons d = some (.serving port)) :
      DaemonStep s d (.stop d) (s.moveDaemon d (.stopping port))
  | close {port : ℕ} (hat : s.daemons d = some (.stopping port)) :
      DaemonStep s d (.close d) (s.moveDaemon d .closed)
  | remove {ok : Bool} (hat : s.daemons d = some .closed) :
      DaemonStep s d (.remove d ok) ((s.unlinked ok).moveDaemon d .down)
  | crash {p : Phase D} (hat : s.daemons d = some p) :
      DaemonStep s d (.crash d) (s.moveDaemon d .down)

/-- The steps of the commands. -/
inductive CommandStep (s : State D C) (c : C) : Label D C → State D C → Prop
  | stopRead (hnew : s.stops c = none) :
      CommandStep s c (.stopRead c) (s.moveStop c (afterStopRead s.file))
  | accept {port : ℕ} {owner : D} (hat : s.stops c = some (.posting port owner)) :
      CommandStep s c (.post c .accepted) (s.moveStop c (.polling port owner))
  | miss {port : ℕ} {owner : D} (hat : s.stops c = some (.posting port owner)) :
      CommandStep s c (.post c .unreachable) (s.moveStop c .removing)
  | fail {port : ℕ} {owner : D} (hat : s.stops c = some (.posting port owner)) :
      CommandStep s c (.post c .failed) (s.moveStop c (.returned 1))
  | gone {port : ℕ} {owner : D} (hat : s.stops c = some (.polling port owner))
      (hfile : s.file = .absent) : CommandStep s c (.look c) (s.moveStop c (.returned 0))
  | hung {port : ℕ} {owner : D} (hat : s.stops c = some (.polling port owner)) :
      CommandStep s c (.giveUp c true) (s.moveStop c (.returned 1))
  | left {port : ℕ} {owner : D} (hat : s.stops c = some (.polling port owner)) :
      CommandStep s c (.giveUp c false) (s.moveStop c .removing)
  | clean {ok : Bool} (hat : s.stops c = some .removing) :
      CommandStep s c (.clean c ok) (clean s c ok)

variable {s s' : State D C} {l : Label D C}

/-- **Every step is one of these.** -/
theorem step_cases (h : step s l = some s') :
    (∃ d, DaemonStep s d l s') ∨ ∃ c, CommandStep s c l s' := by
  cases l with
  | read d =>
    simp only [step] at h
    split at h
    next hnew =>
      obtain rfl := Option.some.inj h
      exact .inl ⟨d, .read hnew⟩
    · exact absurd h (by simp)
  | probe d live =>
    simp only [step] at h
    split at h
    next hat =>
      obtain rfl := Option.some.inj h
      cases live with
      | true => exact .inl ⟨d, .live hat⟩
      | false => exact .inl ⟨d, .stale hat⟩
    · exact absurd h (by simp)
  | replace d ok =>
    simp only [step] at h
    split at h
    next hat =>
      obtain rfl := Option.some.inj h
      exact .inl ⟨d, .replace hat⟩
    · exact absurd h (by simp)
  | bind d port =>
    simp only [step] at h
    split at h
    next hat =>
      obtain rfl := Option.some.inj h
      exact .inl ⟨d, .bind hat⟩
    · exact absurd h (by simp)
  | truncate d =>
    simp only [step] at h
    split at h
    next hat =>
      obtain rfl := Option.some.inj h
      exact .inl ⟨d, .truncate hat⟩
    · exact absurd h (by simp)
  | write d =>
    simp only [step] at h
    split at h
    next hat =>
      obtain rfl := Option.some.inj h
      exact .inl ⟨d, .write hat⟩
    · exact absurd h (by simp)
  | stop d =>
    simp only [step] at h
    split at h
    next hat =>
      obtain rfl := Option.some.inj h
      exact .inl ⟨d, .stop hat⟩
    · exact absurd h (by simp)
  | close d =>
    simp only [step] at h
    split at h
    next hat =>
      obtain rfl := Option.some.inj h
      exact .inl ⟨d, .close hat⟩
    · exact absurd h (by simp)
  | remove d ok =>
    simp only [step] at h
    split at h
    next hat =>
      obtain rfl := Option.some.inj h
      exact .inl ⟨d, .remove hat⟩
    · exact absurd h (by simp)
  | crash d =>
    simp only [step] at h
    split at h
    next hat =>
      obtain rfl := Option.some.inj h
      exact .inl ⟨d, .crash hat⟩
    · exact absurd h (by simp)
  | stopRead c =>
    simp only [step] at h
    split at h
    next hnew =>
      obtain rfl := Option.some.inj h
      exact .inr ⟨c, .stopRead hnew⟩
    · exact absurd h (by simp)
  | post c answer =>
    simp only [step] at h
    split at h
    next hat =>
      cases answer with
      | accepted =>
        obtain ⟨-, h⟩ := Option.ite_none_right_eq_some.mp h
        obtain rfl := Option.some.inj h
        exact .inr ⟨c, .accept hat⟩
      | unreachable =>
        obtain rfl := Option.some.inj h
        exact .inr ⟨c, .miss hat⟩
      | failed =>
        obtain rfl := Option.some.inj h
        exact .inr ⟨c, .fail hat⟩
    · exact absurd h (by simp)
  | look c =>
    simp only [step] at h
    split at h
    next hat hfile =>
      obtain rfl := Option.some.inj h
      exact .inr ⟨c, .gone hat hfile⟩
    · exact absurd h (by simp)
  | giveUp c alive =>
    simp only [step] at h
    split at h
    next hat =>
      obtain rfl := Option.some.inj h
      cases alive with
      | true => exact .inr ⟨c, .hung hat⟩
      | false => exact .inr ⟨c, .left hat⟩
    · exact absurd h (by simp)
  | clean c ok =>
    simp only [step] at h
    split at h
    next hat =>
      obtain rfl := Option.some.inj h
      exact .inr ⟨c, .clean hat⟩
    · exact absurd h (by simp)

end Daemon

end OtamanBridge
