import Mathlib.Data.Fintype.Basic
import OtamanBridge.Core
import OtamanBridge.Lib.Run

/-!
# The endpoint file

`start()` and `stop()` of `daemon.py`, as far as they touch the endpoint file and the server,
with `read_endpoint_file`, `write_endpoint_file` and `_endpoint_is_live`. Any number of
daemons share one path, each in a process of its own, and what each of them does to the file
is a step of its own: the file is read, its port is asked, it is unlinked, it is opened for
writing and written. `stop()` may be running in several threads of a daemon.

When the file names the daemon that serves is the subject of `OtamanBridge.Endpoint.agrees`.
-/

namespace OtamanBridge

namespace Endpoint

open Py

/-! ### What is kept -/

/-- What the endpoint file may hold. -/
inductive Content
  /-- An object with a port, as `write_endpoint_file` writes it. -/
  | descriptor (port : ℕ) (token : Text)
  /-- An object without a port. -/
  | portless
  /-- Some other JSON. -/
  | foreign
  /-- Nothing that `read_endpoint_file` makes anything of. -/
  | malformed
  deriving DecidableEq

/-- Where a daemon stands. -/
inductive Phase
  /-- `start()` has not been called. -/
  | fresh
  /-- The file names this port; `_endpoint_is_live` comes next. -/
  | probing (port : ℕ)
  /-- The file is stale; `unlink` comes next. -/
  | unlinking
  /-- The server is made next. -/
  | binding
  /-- The server has this port; `write_text` comes next. -/
  | opening (port : ℕ)
  /-- `write_text` has opened the file. -/
  | writing (port : ℕ)
  /-- The file is written; the thread that serves is started next. -/
  | written (port : ℕ)
  /-- The server answers; `start()` may have returned. -/
  | serving (port : ℕ) (returned : Bool)
  /-- The server is closed. -/
  | closed
  /-- `start()` has raised, and there is no server. -/
  | failed
  /-- `start()` has raised, and the server has a port that nothing serves. -/
  | stuck (port : ℕ)
  /-- The process is no more. -/
  | gone
  deriving DecidableEq

/-- Where a thread that runs `stop()` stands. -/
inductive Stopping
  /-- `_shutdown_requested.set()` comes next. -/
  | flagging
  /-- `shutdown()` and `server_close()` come next. -/
  | closing
  /-- `unlink` comes next. -/
  | unlinking
  deriving DecidableEq

/-- The file, the daemons, and the threads that run `stop()`. -/
structure State (D K : Type) where
  file : Option Content
  phase : D → Phase
  /-- `_shutdown_requested`. -/
  flagged : D → Bool
  stops : K → Option (D × Stopping)

/-- No daemon has been started. -/
def State.init {D K : Type} (file : Option Content) : State D K where
  file := file
  phase := fun _ => .fresh
  flagged := fun _ => false
  stops := fun _ => none

/-- What a step is told: who moves, and what the environment answers. -/
inductive Label (D K : Type)
  /-- `start()` is called, and reads the file. -/
  | read (p : D)
  /-- `_endpoint_is_live`, with its answer. -/
  | probe (p : D) (live : Bool)
  /-- `start()` unlinks the file. -/
  | unlink (p : D)
  /-- The server is made, with this port, or cannot be. -/
  | bind (p : D) (port : Option ℕ)
  /-- `write_text` opens the file, or raises. -/
  | openFile (p : D) (ok : Bool)
  /-- `write_text` writes the file, or raises. -/
  | writeFile (p : D) (ok : Bool)
  | serve (p : D)
  /-- `start()` returns. -/
  | finish (p : D)
  /-- A thread calls `stop()`, and looks at the flag. -/
  | stop (k : K) (p : D)
  | flag (k : K)
  /-- The server is shut down and closed, if there is one. -/
  | close (k : K)
  /-- `stop()` unlinks the file. -/
  | remove (k : K)
  /-- The process dies, or exits. -/
  | crash (p : D)

/-- The port the server of the daemon has. -/
def Phase.port : Phase → Option ℕ
  | .opening port | .writing port | .written port | .serving port _ | .stuck port => some port
  | _ => none

/-! ### Steps -/

/-- What `start()` does about what it has read. -/
def readPhase : Option Content → Phase
  | none | some .malformed => .binding
  | some .foreign => .failed
  | some .portless => .unlinking
  | some (.descriptor port _) => if port = 0 then .unlinking else .probing port

variable {D K : Type}

/-- One step of `start()`. -/
def stepStart [Fintype D] [DecidableEq D] (token : D → Text) (s : State D K) (p : D) :
    Phase → Label D K → Option (State D K)
  | .fresh, .read _ => some { s with phase := Function.update s.phase p (readPhase s.file) }
  | .probing _, .probe _ live =>
    some { s with phase := Function.update s.phase p (if live then .failed else .unlinking) }
  | .unlinking, .unlink _ =>
    some { s with phase := Function.update s.phase p .binding, file := none }
  | .binding, .bind _ none => some { s with phase := Function.update s.phase p .failed }
  | .binding, .bind _ (some port) =>
    if 0 < port ∧ ∀ q, (s.phase q).port ≠ some port then
      some { s with phase := Function.update s.phase p (.opening port) }
    else none
  | .opening port, .openFile _ false =>
    some { s with phase := Function.update s.phase p (.stuck port) }
  | .opening port, .openFile _ true =>
    some { s with phase := Function.update s.phase p (.writing port), file := some .malformed }
  | .writing port, .writeFile _ false =>
    some { s with phase := Function.update s.phase p (.stuck port) }
  | .writing port, .writeFile _ true =>
    some { s with phase := Function.update s.phase p (.written port),
                  file := some (.descriptor port (token p)) }
  | .written port, .serve _ =>
    some { s with phase := Function.update s.phase p (.serving port false) }
  | .serving port false, .finish _ =>
    some { s with phase := Function.update s.phase p (.serving port true) }
  | _, _ => none

/-- The phase after the server is closed; `shutdown()` waits for a server that nothing
serves. -/
def closePhase : Phase → Option Phase
  | .serving _ _ => some .closed
  | .opening _ | .writing _ | .written _ | .stuck _ => none
  | phase => some phase

/-- One step of `stop()`. -/
def stepStop [DecidableEq D] [DecidableEq K] (s : State D K) (k : K) (p : D) :
    Stopping → Label D K → Option (State D K)
  | .flagging, .flag _ =>
    some { s with flagged := Function.update s.flagged p true,
                  stops := Function.update s.stops k (some (p, .closing)) }
  | .closing, .close _ => (closePhase (s.phase p)).map fun phase =>
    { s with phase := Function.update s.phase p phase,
             stops := Function.update s.stops k (some (p, .unlinking)) }
  | .unlinking, .remove _ =>
    some { s with file := none, stops := Function.update s.stops k none }
  | _, _ => none

/-- One step. -/
def step [Fintype D] [DecidableEq D] [DecidableEq K] (token : D → Text) (s : State D K) :
    Label D K → Option (State D K)
  | .read p => stepStart token s p (s.phase p) (.read p)
  | .probe p live => stepStart token s p (s.phase p) (.probe p live)
  | .unlink p => stepStart token s p (s.phase p) (.unlink p)
  | .bind p port => stepStart token s p (s.phase p) (.bind p port)
  | .openFile p ok => stepStart token s p (s.phase p) (.openFile p ok)
  | .writeFile p ok => stepStart token s p (s.phase p) (.writeFile p ok)
  | .serve p => stepStart token s p (s.phase p) (.serve p)
  | .finish p => stepStart token s p (s.phase p) (.finish p)
  | .stop k p =>
    match s.stops k with
    | some _ => none
    | none =>
      if s.phase p = .gone then none
      else if s.flagged p then some s
      else some { s with stops := Function.update s.stops k (some (p, .flagging)) }
  | .flag k => (s.stops k).bind fun stop => stepStop s k stop.1 stop.2 (.flag k)
  | .close k => (s.stops k).bind fun stop => stepStop s k stop.1 stop.2 (.close k)
  | .remove k => (s.stops k).bind fun stop => stepStop s k stop.1 stop.2 (.remove k)
  | .crash p =>
    some { s with phase := Function.update s.phase p .gone,
                  stops := fun k => (s.stops k).filter fun stop => stop.1 ≠ p }

/-- The steps, by what they do. -/
inductive Step [DecidableEq D] [DecidableEq K] (token : D → Text) (s : State D K) :
    Label D K → State D K → Prop
  | read {p : D} (hfresh : s.phase p = .fresh) :
      Step token s (.read p) { s with phase := Function.update s.phase p (readPhase s.file) }
  | refuse {p : D} {port : ℕ} (hp : s.phase p = .probing port) :
      Step token s (.probe p true) { s with phase := Function.update s.phase p .failed }
  | pass {p : D} {port : ℕ} (hp : s.phase p = .probing port) :
      Step token s (.probe p false) { s with phase := Function.update s.phase p .unlinking }
  | unlink {p : D} (hp : s.phase p = .unlinking) :
      Step token s (.unlink p)
        { s with phase := Function.update s.phase p .binding, file := none }
  | unbound {p : D} (hp : s.phase p = .binding) :
      Step token s (.bind p none) { s with phase := Function.update s.phase p .failed }
  | bind {p : D} {port : ℕ} (hp : s.phase p = .binding) (hport : 0 < port) :
      Step token s (.bind p (some port))
        { s with phase := Function.update s.phase p (.opening port) }
  | raiseOpen {p : D} {port : ℕ} (hp : s.phase p = .opening port) :
      Step token s (.openFile p false)
        { s with phase := Function.update s.phase p (.stuck port) }
  | openFile {p : D} {port : ℕ} (hp : s.phase p = .opening port) :
      Step token s (.openFile p true)
        { s with phase := Function.update s.phase p (.writing port), file := some .malformed }
  | raiseWrite {p : D} {port : ℕ} (hp : s.phase p = .writing port) :
      Step token s (.writeFile p false)
        { s with phase := Function.update s.phase p (.stuck port) }
  | writeFile {p : D} {port : ℕ} (hp : s.phase p = .writing port) :
      Step token s (.writeFile p true)
        { s with phase := Function.update s.phase p (.written port),
                 file := some (.descriptor port (token p)) }
  | serve {p : D} {port : ℕ} (hp : s.phase p = .written port) :
      Step token s (.serve p)
        { s with phase := Function.update s.phase p (.serving port false) }
  | finish {p : D} {port : ℕ} (hp : s.phase p = .serving port false) :
      Step token s (.finish p)
        { s with phase := Function.update s.phase p (.serving port true) }
  | again {k : K} {p : D} (hflagged : s.flagged p = true) : Step token s (.stop k p) s
  | stop {k : K} {p : D} (hk : s.stops k = none) (hflagged : s.flagged p = false) :
      Step token s (.stop k p)
        { s with stops := Function.update s.stops k (some (p, .flagging)) }
  | flag {k : K} {p : D} (hk : s.stops k = some (p, .flagging)) :
      Step token s (.flag k)
        { s with flagged := Function.update s.flagged p true,
                 stops := Function.update s.stops k (some (p, .closing)) }
  | close {k : K} {p : D} {phase : Phase} (hk : s.stops k = some (p, .closing))
      (hphase : closePhase (s.phase p) = some phase) :
      Step token s (.close k)
        { s with phase := Function.update s.phase p phase,
                 stops := Function.update s.stops k (some (p, .unlinking)) }
  | remove {k : K} {p : D} (hk : s.stops k = some (p, .unlinking)) :
      Step token s (.remove k)
        { s with file := none, stops := Function.update s.stops k none }
  | crash (p : D) :
      Step token s (.crash p)
        { s with phase := Function.update s.phase p .gone,
                 stops := fun k => (s.stops k).filter fun stop => stop.1 ≠ p }

section Steps

variable [DecidableEq D] [DecidableEq K] {token : D → Text} {s s' : State D K} {l : Label D K}

theorem Step.of_stepStop {k : K} {p : D} {stopping : Stopping}
    (hk : s.stops k = some (p, stopping)) (hl : l = .flag k ∨ l = .close k ∨ l = .remove k)
    (h : stepStop s k p stopping l = some s') : Step token s l s' := by
  unfold stepStop at h
  split at h
  · obtain rfl : _ = k := by simpa using hl
    obtain rfl := Option.some.inj h
    exact .flag hk
  · obtain rfl : _ = k := by simpa using hl
    obtain ⟨phase, hphase, rfl⟩ := Option.map_eq_some_iff.mp h
    exact .close hk hphase
  · obtain rfl : _ = k := by simpa using hl
    obtain rfl := Option.some.inj h
    exact .remove hk
  · exact absurd h (by simp)

variable [Fintype D]

theorem Step.of_stepStart {p : D} {phase : Phase} (hp : s.phase p = phase)
    (hl : l = .read p ∨ (∃ live, l = .probe p live) ∨ l = .unlink p ∨ (∃ port, l = .bind p port) ∨
      (∃ ok, l = .openFile p ok) ∨ (∃ ok, l = .writeFile p ok) ∨ l = .serve p ∨ l = .finish p)
    (h : stepStart token s p phase l = some s') : Step token s l s' := by
  unfold stepStart at h
  split at h
  · obtain rfl : _ = p := by simpa using hl
    obtain rfl := Option.some.inj h
    exact .read hp
  next live =>
    obtain rfl : _ = p := by simpa using hl
    obtain rfl := Option.some.inj h
    cases live with
    | true => exact .refuse hp
    | false => exact .pass hp
  · obtain rfl : _ = p := by simpa using hl
    obtain rfl := Option.some.inj h
    exact .unlink hp
  · obtain rfl : _ = p := by simpa using hl
    obtain rfl := Option.some.inj h
    exact .unbound hp
  · obtain rfl : _ = p := by simpa using hl
    split_ifs at h with hport
    obtain rfl := Option.some.inj h
    exact .bind hp hport.1
  · obtain rfl : _ = p := by simpa using hl
    obtain rfl := Option.some.inj h
    exact .raiseOpen hp
  · obtain rfl : _ = p := by simpa using hl
    obtain rfl := Option.some.inj h
    exact .openFile hp
  · obtain rfl : _ = p := by simpa using hl
    obtain rfl := Option.some.inj h
    exact .raiseWrite hp
  · obtain rfl : _ = p := by simpa using hl
    obtain rfl := Option.some.inj h
    exact .writeFile hp
  · obtain rfl : _ = p := by simpa using hl
    obtain rfl := Option.some.inj h
    exact .serve hp
  · obtain rfl : _ = p := by simpa using hl
    obtain rfl := Option.some.inj h
    exact .finish hp
  · exact absurd h (by simp)

/-- **Every step is one of these.** -/
theorem Step.of_step (h : step token s l = some s') : Step token s l s' := by
  cases l with
  | read p | probe p live | unlink p | bind p port | openFile p ok | writeFile p ok | serve p
  | finish p => exact .of_stepStart rfl (by simp) h
  | flag k | close k | remove k =>
    obtain ⟨stop, hk, h⟩ := Option.bind_eq_some_iff.mp h
    exact .of_stepStop hk (by simp) h
  | stop k p =>
    simp only [step] at h
    split at h
    · exact absurd h (by simp)
    next hk =>
      split_ifs at h with _ hflagged
      · obtain rfl := Option.some.inj h
        exact .again hflagged
      · obtain rfl := Option.some.inj h
        exact .stop hk (Bool.eq_false_iff.mpr hflagged)
  | crash p =>
    obtain rfl := Option.some.inj h
    exact .crash p

end Steps

end Endpoint

end OtamanBridge
