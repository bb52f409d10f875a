import OtamanBridge.Bus.Message

/-!
# The name of a project

`resolve_project_name` of `bus_surface.py`, which the daemon and the hook ask for the name of
a topic. The value of the first line of `platform.yaml` that begins with `project:` is taken
if it is a plain word; otherwise the file is loaded, and the name of the directory is what is
left. A file that is no UTF-8, and a scalar that no constructor takes, raise.
-/

namespace OtamanBridge

namespace Bus

open Py

/-- What a file is to `is_file()` and `read_text(encoding="utf-8")`. -/
inductive File
  | missing
  /-- `is_file()` raises: the directory may not be searched, for one. -/
  | unsearchable
  /-- Reading it raises an `OSError`. -/
  | unreadable
  /-- Its bytes are no UTF-8. -/
  | undecodable
  | text (t : Text)
  deriving DecidableEq

/-- `t.strip(c)` of one character. -/
def stripChar (c : ℕ) (t : Text) : Text := (t.dropWhile (· = c)).rdropWhile (· = c)

/-- `value and not any(c in value for c in ...)`. -/
def isSimple (value : Text) : Bool := value ≠ [] && value.all (· ∉ lit ":\x7b\x7d[]\n\t ")

/-- The scan for a top-level `project:`; quotes of either kind are taken off. -/
def scanProject (t : Text) : Option Text :=
  ((splitlines t).find? (lit "project:").isPrefixOf).bind fun line =>
    let value := stripChar 34 (stripChar 39 (strip (line.drop 8)))
    if isSimple value then some value else none

/-- The name in what the file loads to. -/
def loadedProject (data : Value) : Option Text :=
  match data.get "project" with
  | some (.str t) => if strip t = [] then none else some (strip t)
  | _ => none

variable (py : Python)

/-- `resolve_project_name`, of a root with this name; it may raise. -/
def resolveProjectName (name : Text) : File → Except Unit Text
  | .missing | .unreadable => .ok name
  | .unsearchable | .undecodable => .error ()
  | .text t =>
    match scanProject (universalNewlines t) with
    | some value => .ok value
    | none =>
      match py.safeLoad (universalNewlines t) with
      | .error .yaml => .ok name
      | .error .other => .error ()
      | .ok v => .ok ((loadedProject v).getD name)

variable {py}

end Bus

end OtamanBridge
