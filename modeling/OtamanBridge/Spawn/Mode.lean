import OtamanBridge.Lib.Dict
import OtamanBridge.Lib.PyLines
import OtamanBridge.Lib.PyScan

/-!
# The mode of a task

`_extract_mode` of `spawn_decision.py`: the first task line of the body that is about a
repository with an owner says whose task it is, and in which mode. `_TASK_LINE_RE` takes one
mode with the line if there is white space before it; only where it takes none, the bracket
that comes next is looked at.

What stands in mode position is the brackets that follow the repository one after the other
(`OtamanBridge.Spawn.modeTokens`).
-/

namespace OtamanBridge

namespace Spawn

open Py

/-- `owned_agents`: the agents, by the repositories. -/
abbrev Owned := AList fun _ : Text => Text

/-- The mode of a task. -/
inductive Mode
  | headless
  | interactive
  deriving DecidableEq

/-- The word for it. -/
def Mode.word : Mode → Text
  | .headless => lit "headless"
  | .interactive => lit "interactive"

/-- `_RESERVED_TOKENS`. -/
def reservedTokens : List Text :=
  [lit "paused", lit "gated", lit "hitl-required", lit "urgent"]

/-- The `ValueError` of `_extract_mode`, for this token. -/
inductive ModeError
  | reserved (token : Text)
  | unknown (token : Text)
  deriving DecidableEq

/-! ### Task lines -/

/-- `[a-z0-9-]`. -/
def isNameChar (c : ℕ) : Bool :=
  ('a'.toNat ≤ c && c ≤ 'z'.toNat) || ('0'.toNat ≤ c && c ≤ '9'.toNat) || c = '-'.toNat

/-- `[\d.]`. -/
def isNumberChar (c : ℕ) : Bool := isDigit c || c = '.'.toNat

/-- `_TASK_LINE_RE` up to the mode: the repository, without `otaman-`, and what follows. -/
def taskHead (line : Text) : Option (Text × Text) := do
  let t ← afterLit (lit "-") (lstrip line)
  let t ← skip1 isSpace t
  let t ← (afterLit (lit "[ ]") t).or (afterLit (lit "[x]") t)
  let t ← skip1 isSpace t
  let t ← skip1 isNumberChar t
  let t ← skip1 isSpace t
  let t ← afterLit (lit "@otaman-") t
  span1 isNameChar t

/-- `(?:\s+\[(headless|interactive)\])?`: the mode, and what follows it. -/
def annotation (tail : Text) : Option (Mode × Text) := do
  let t ← skip1 isSpace tail
  ((afterLit (lit "[headless]") t).map (Mode.headless, ·)).or
    ((afterLit (lit "[interactive]") t).map (Mode.interactive, ·))

/-- `\s*\[([^\]]+)\]`: the token, and what follows the bracket. -/
def bracket (t : Text) : Option (Text × Text) := do
  let t ← afterLit (lit "[") (lstrip t)
  let (token, t) ← span1 (· ≠ ']'.toNat) t
  let t ← afterLit (lit "]") t
  return (token, t)

/-- What `_extract_mode` makes of what follows the repository. -/
def readMode (tail : Text) : Except ModeError Mode :=
  match annotation tail with
  | some (mode, _) => .ok mode
  | none =>
    match bracket tail with
    | none => .ok .interactive
    | some (token, _) =>
      if token ∈ reservedTokens then .error (.reserved token)
      else if token ≠ lit "headless" ∧ token ≠ lit "interactive" then .error (.unknown token)
      else .ok .interactive

/-- What `_extract_mode` returns. -/
structure TaskInfo where
  agentId : Text
  mode : Mode
  repo : Text
  deriving DecidableEq

/-- The loop of `_extract_mode`. -/
def extractLines (owned : Owned) : List Text → Except ModeError (Option TaskInfo)
  | [] => .ok none
  | line :: lines =>
    match taskHead line with
    | none => extractLines owned lines
    | some (name, tail) =>
      let repo := lit "otaman-" ++ name
      match owned.lookup repo with
      | none => extractLines owned lines
      | some agentId => (readMode tail).map fun mode => some ⟨agentId, mode, repo⟩

/-- `_extract_mode`. -/
def extractMode (body : Text) (owned : Owned) : Except ModeError (Option TaskInfo) :=
  extractLines owned (splitlines body)

/-! ### The line that decides -/

/-- A task line of a repository with an owner: the agent, the repository and what follows. -/
def ownedLine (owned : Owned) (line : Text) : Option (Text × Text × Text) :=
  (taskHead line).bind fun (name, tail) =>
    (owned.lookup (lit "otaman-" ++ name)).map fun agentId =>
      (agentId, lit "otaman-" ++ name, tail)

/-- The first of them. -/
def firstOwned (body : Text) (owned : Owned) : Option (Text × Text × Text) :=
  (splitlines body).findSome? (ownedLine owned)

/-- **The first task line of a repository with an owner decides.** -/
theorem extractMode_eq (body : Text) (owned : Owned) :
    extractMode body owned = (firstOwned body owned).elim (.ok none) fun task =>
      (readMode task.2.2).map fun mode => some ⟨task.1, mode, task.2.1⟩ := by
  rw [extractMode, firstOwned]
  induction splitlines body with
  | nil => rfl
  | cons line lines ih =>
    rw [extractLines, List.findSome?_cons, ownedLine]
    rcases taskHead line with _ | ⟨name, tail⟩
    · exact ih
    · rcases howner : owned.lookup (lit "otaman-" ++ name) with _ | agentId
      · simp only [howner, Option.bind_some, Option.map_none]
        exact ih
      · simp only [howner, Option.bind_some, Option.map_some, Option.elim_some]

/-! ### Mode position -/

end Spawn

end OtamanBridge
