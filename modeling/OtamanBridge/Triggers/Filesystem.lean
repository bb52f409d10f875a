import OtamanBridge.Bus.Frontmatter
import OtamanBridge.Bus.Listing
import OtamanBridge.Lib.Run

/-!
# The event source of the file system

`FileSystemEventSource` of `triggers/filesystem.py`: the observer of watchdog calls
`on_created` for a new file of the watched directory, and the service calls
`process_pending` to go over those that are there. Both hand each path to `_dispatch`, which
marks it as seen under the lock, reads the file until its front matter parses or the attempts
are used up, and calls the handler.

Any number of these calls are under way at a time, each on its own thread, and other programs
write and remove files meanwhile. A step is one section under the lock, one reading of a
file, or one thing that another program does. What a call does on its way is its
`OtamanBridge.Triggers.Phase`; a call of `process_pending` also keeps, for the sake of what
is said about it, which files have had front matter since it began, and which paths had been
given up by then.

A file is known by its name in the directory. A directory that is not there holds no file.
PyYAML is installed, and so is watchdog: it is what calls `on_created`.
-/

namespace OtamanBridge

namespace Triggers

open Py

/-! ### The directory -/

/-- What is in the watched directory: a name leads to a file, or to something that cannot be
read as one, such as a directory. -/
abbrev Files : Type := AList fun _ : Text => Option Inbox.Content

variable (py : Bus.Python)

/-- One reading of a file in `_read_with_retry`: what that returns or raises, or nothing if the
file is to be read again. -/
def readOnce : Option Inbox.Content → Option (Except Unit Bool)
  | none => some (.ok false)
  | some (.undecodable _) => some (.error ())
  | some (.text raw) =>
    if (cut (lit "---") (universalNewlines raw)).isSome &&
        (Bus.parseFrontmatter py (universalNewlines raw)).isSome then some (.ok true)
    else none

/-- **`_read_with_retry` reads once** and, if that does not settle it, again. -/
theorem readWithRetry_cons (content : Option Inbox.Content)
    (contents : List (Option Inbox.Content)) :
    Bus.readWithRetry py (content :: contents) =
      (readOnce py content).getD (Bus.readWithRetry py contents) := by
  rcases content with _ | raw | error
  · rfl
  · rw [Bus.readWithRetry, readOnce]
    split_ifs <;> rfl
  · rfl

/-- The front matter of a file parses. -/
def Parses (files : Files) (path : Text) : Bool :=
  readOnce py (files.lookup path).join matches some (.ok true)

/-- The message files of the directory whose front matter parses. -/
def parsed (files : Files) : List Text :=
  files.keys.filter fun path => Bus.isMessageFile path && Parses py files path

/-! ### States -/

/-- Where a call is. -/
inductive Phase
  /-- `process_pending` has yet to list the directory. -/
  | entered
  /-- The next path is to be dispatched. -/
  | next
  /-- `_read_with_retry` is to read the file, after so many attempts. -/
  | reading (path : Text) (attempts : ℕ)
  /-- The handler is to be called. -/
  | handing (path : Text)
  deriving DecidableEq

/-- A call of `on_created` or `process_pending`. -/
structure Call where
  /-- It is a call of `process_pending`. -/
  pending : Bool
  /-- The message files whose front matter has parsed since the call began. -/
  steady : List Text
  /-- The paths that had been given up when it began. -/
  gaveUp : List Text
  /-- The paths that are still to be dispatched. -/
  todo : List Text
  phase : Phase

/-- What happens, newest first. -/
inductive Event
  /-- A path is put into `_seen`. -/
  | took (path : Text)
  /-- `_read_with_retry` returns `False` or raises. -/
  | dropped (path : Text)
  /-- The handler is called. -/
  | handed (path : Text)
  /-- `process_pending` returns. -/
  | returned (steady gaveUp : List Text)
  deriving DecidableEq

/-- The path that is given up. -/
def Event.drops : Event → Option Text
  | .dropped path => some path
  | .took _ | .handed _ | .returned .. => none

/-- The whole state. -/
structure State (T : Type) where
  files : Files
  /-- `_seen`. -/
  seen : Text → Bool
  calls : T → Option Call
  log : List Event

namespace State

variable {T : Type}

/-- Nothing is under way; the constructor was given `seen`. -/
def init (seen : Text → Bool) (files : Files) : State T where
  files := files
  seen := seen
  calls := fun _ => none
  log := []

variable (s : State T)

/-- Another program changes the directory. -/
def change (files : Files) : State T :=
  { s with
    files := files
    calls := fun t => (s.calls t).map fun call =>
      { call with steady := call.steady.filter (Parses py files) } }

variable [DecidableEq T]

/-- Write what a thread is in, if anything. -/
def setCall (t : T) (call : Option Call) : State T :=
  { s with calls := Function.update s.calls t call }

/-- Note what happened. -/
def note (e : Event) : State T := { s with log := e :: s.log }

end State

/-! ### Steps -/

/-- What a step is told: who moves. -/
inductive Label (T : Type)
  /-- A program writes a file, or makes something else of that name. -/
  | write (path : Text) (content : Option Inbox.Content)
  /-- A program removes one. -/
  | remove (path : Text)
  /-- The observer calls `on_created` for a file. -/
  | created (t : T) (path : Text)
  /-- The service calls `process_pending`. -/
  | pending (t : T)
  /-- `glob` reads the directory. -/
  | list (t : T) (names : List Text)
  /-- `_dispatch` looks the next path up in `_seen`. -/
  | claim (t : T)
  /-- `_read_with_retry` reads the file. -/
  | read (t : T)
  /-- `_dispatch` calls the handler; whether that raises makes no difference. -/
  | hand (t : T)
  /-- The call returns. -/
  | leave (t : T)

variable {T : Type} [DecidableEq T]

/-- One step of a call. The directory is not read at one moment: `glob` finds whatever was
there all the time, and may or may not find the rest. -/
def stepCall (s : State T) (t : T) (call : Call) : Label T → Option (State T)
  | .list _ names =>
    if call.phase = .entered ∧ call.steady ⊆ names then
      some (s.setCall t (some { call with
        todo := (names.filter Bus.isMessageFile).insertionSort (· ≤ ·)
        phase := .next }))
    else none
  | .claim _ =>
    match call.phase, call.todo with
    | .next, path :: todo =>
      if s.seen path then some (s.setCall t (some { call with todo := todo }))
      else
        some (({ s with seen := Function.update s.seen path true }.setCall t
          (some { call with todo := todo, phase := .reading path 0 })).note (.took path))
    | _, _ => none
  | .read _ =>
    match call.phase with
    | .reading path attempts =>
      match readOnce py (s.files.lookup path).join with
      | some (.ok true) => some (s.setCall t (some { call with phase := .handing path }))
      | some (.ok false) =>
        some ((s.setCall t (some { call with phase := .next })).note (.dropped path))
      | some (.error ()) => some ((s.setCall t none).note (.dropped path))
      | none =>
        if attempts + 1 < Bus.readAttempts then
          some (s.setCall t (some { call with phase := .reading path (attempts + 1) }))
        else some ((s.setCall t (some { call with phase := .next })).note (.dropped path))
    | _ => none
  | .hand _ =>
    match call.phase with
    | .handing path =>
      some ((s.setCall t (some { call with phase := .next })).note (.handed path))
    | _ => none
  | .leave _ =>
    if call.phase = .next ∧ call.todo = [] then
      some (if call.pending then (s.setCall t none).note (.returned call.steady call.gaveUp)
        else s.setCall t none)
    else none
  | _ => none

/-- One step. -/
def step (s : State T) : Label T → Option (State T)
  | .write path content => some (s.change py (s.files.insert path content))
  | .remove path => some (s.change py (s.files.erase path))
  | .created t path =>
    if s.calls t = none ∧ Bus.isMessageFile path then
      some (s.setCall t (some ⟨false, [], [], [path], .next⟩))
    else none
  | .pending t =>
    if s.calls t = none then
      some (s.setCall t
        (some ⟨true, parsed py s.files, s.log.filterMap Event.drops, [], .entered⟩))
    else none
  | .list t names => (s.calls t).bind fun call => stepCall py s t call (.list t names)
  | .claim t => (s.calls t).bind fun call => stepCall py s t call (.claim t)
  | .read t => (s.calls t).bind fun call => stepCall py s t call (.read t)
  | .hand t => (s.calls t).bind fun call => stepCall py s t call (.hand t)
  | .leave t => (s.calls t).bind fun call => stepCall py s t call (.leave t)

/-! ### What a step can do -/

variable {py} {s s' : State T}

variable (py) in
/-- The steps, by what they do. -/
inductive Step (s : State T) : Label T → State T → Prop
  | change {l : Label T} (files : Files) : Step s l (s.change py files)
  | created {t : T} {path : Text} (hfree : s.calls t = none) :
      Step s (.created t path) (s.setCall t (some ⟨false, [], [], [path], .next⟩))
  | pending {t : T} (hfree : s.calls t = none) :
      Step s (.pending t) (s.setCall t
        (some ⟨true, parsed py s.files, s.log.filterMap Event.drops, [], .entered⟩))
  | list {t : T} {call : Call} {names todo : List Text} (hcall : s.calls t = some call)
      (hphase : call.phase = .entered)
      (hall : ∀ path ∈ call.steady, Bus.isMessageFile path → path ∈ todo) :
      Step s (.list t names) (s.setCall t (some { call with todo := todo, phase := .next }))
  | skip {t : T} {call : Call} {path : Text} {todo : List Text} (hcall : s.calls t = some call)
      (hphase : call.phase = .next) (htodo : call.todo = path :: todo) (hseen : s.seen path) :
      Step s (.claim t) (s.setCall t (some { call with todo := todo }))
  | claim {t : T} {call : Call} {path : Text} {todo : List Text} (hcall : s.calls t = some call)
      (hphase : call.phase = .next) (htodo : call.todo = path :: todo)
      (hseen : s.seen path = false) :
      Step s (.claim t) (({ s with seen := Function.update s.seen path true }.setCall t
        (some { call with todo := todo, phase := .reading path 0 })).note (.took path))
  | again {t : T} {call : Call} {path : Text} {attempts : ℕ} (hcall : s.calls t = some call)
      (hphase : call.phase = .reading path attempts)
      (hread : readOnce py (s.files.lookup path).join = none) :
      Step s (.read t) (s.setCall t (some { call with phase := .reading path (attempts + 1) }))
  | accept {t : T} {call : Call} {path : Text} {attempts : ℕ} (hcall : s.calls t = some call)
      (hphase : call.phase = .reading path attempts) (hread : Parses py s.files path) :
      Step s (.read t) (s.setCall t (some { call with phase := .handing path }))
  | drop {t : T} {call : Call} {path : Text} {attempts : ℕ} (hcall : s.calls t = some call)
      (hphase : call.phase = .reading path attempts) (hread : Parses py s.files path = false) :
      Step s (.read t) ((s.setCall t (some { call with phase := .next })).note (.dropped path))
  | raise {t : T} {call : Call} {path : Text} {attempts : ℕ} (hcall : s.calls t = some call)
      (hphase : call.phase = .reading path attempts) (hread : Parses py s.files path = false) :
      Step s (.read t) ((s.setCall t none).note (.dropped path))
  | hand {t : T} {call : Call} {path : Text} (hcall : s.calls t = some call)
      (hphase : call.phase = .handing path) :
      Step s (.hand t) ((s.setCall t (some { call with phase := .next })).note (.handed path))
  | finish {t : T} {call : Call} (hcall : s.calls t = some call) (hpending : call.pending = false)
      (hphase : call.phase = .next) : Step s (.leave t) (s.setCall t none)
  | leave {t : T} {call : Call} (hcall : s.calls t = some call) (hpending : call.pending)
      (hphase : call.phase = .next) (htodo : call.todo = []) :
      Step s (.leave t) ((s.setCall t none).note (.returned call.steady call.gaveUp))

/-- **Every step is one of these.** -/
theorem Step.of_step {l : Label T} (h : step py s l = some s') : Step py s l s' := by
  cases l with
  | write path content =>
    obtain rfl := Option.some.inj h
    exact .change _
  | remove path =>
    obtain rfl := Option.some.inj h
    exact .change _
  | created t path =>
    simp only [step] at h
    split_ifs at h with hfree
    obtain rfl := Option.some.inj h
    exact .created hfree.1
  | pending t =>
    simp only [step] at h
    split_ifs at h with hfree
    obtain rfl := Option.some.inj h
    exact .pending hfree
  | list t names =>
    obtain ⟨call, hcall, h⟩ := Option.bind_eq_some_iff.mp h
    simp only [stepCall] at h
    split_ifs at h with hphase
    obtain rfl := Option.some.inj h
    refine .list hcall hphase.1 fun path hpath hmd => ?_
    exact (List.mem_insertionSort _).mpr (List.mem_filter.mpr ⟨hphase.2 hpath, hmd⟩)
  | claim t =>
    obtain ⟨call, hcall, h⟩ := Option.bind_eq_some_iff.mp h
    simp only [stepCall] at h
    split at h
    next path todo hphase htodo =>
      split_ifs at h with hseen
      · obtain rfl := Option.some.inj h
        exact .skip hcall hphase htodo hseen
      · obtain rfl := Option.some.inj h
        exact .claim hcall hphase htodo (Bool.eq_false_of_not_eq_true hseen)
    · exact absurd h (by simp)
  | read t =>
    obtain ⟨call, hcall, h⟩ := Option.bind_eq_some_iff.mp h
    simp only [stepCall] at h
    split at h
    next path attempts hphase =>
      split at h
      next hread =>
        obtain rfl := Option.some.inj h
        exact .accept hcall hphase (by rw [Parses, hread])
      next hread =>
        obtain rfl := Option.some.inj h
        exact .drop hcall hphase (by rw [Parses, hread])
      next hread =>
        obtain rfl := Option.some.inj h
        exact .raise hcall hphase (by rw [Parses, hread])
      next hread =>
        split_ifs at h
        · obtain rfl := Option.some.inj h
          exact .again hcall hphase hread
        · obtain rfl := Option.some.inj h
          exact .drop hcall hphase (by rw [Parses, hread])
    · exact absurd h (by simp)
  | hand t =>
    obtain ⟨call, hcall, h⟩ := Option.bind_eq_some_iff.mp h
    simp only [stepCall] at h
    split at h
    next path hphase =>
      obtain rfl := Option.some.inj h
      exact .hand hcall hphase
    · exact absurd h (by simp)
  | leave t =>
    obtain ⟨call, hcall, h⟩ := Option.bind_eq_some_iff.mp h
    simp only [stepCall] at h
    split_ifs at h with hphase hpending
    · obtain rfl := Option.some.inj h
      exact .leave hcall hpending hphase.1 hphase.2
    · obtain rfl := Option.some.inj h
      exact .finish hcall (Bool.eq_false_of_not_eq_true hpending) hphase.1

end Triggers

end OtamanBridge
