import OtamanBridge.Inbox.Message

/-!
# A bus message, and who gets to see it

`bus_surface.py`: how a file in `.agents/bus/active/` is read, what its envelope says, and
whether the human is to see it. A message file is called `<stem>.md`. The front matter is
cut out by a regular expression and read by PyYAML; what PyYAML makes of a text, and what
`str` and `str.lower` make of a value, is a parameter
(`OtamanBridge.Bus.Python`).
-/

namespace OtamanBridge

namespace Bus

open Py

/-! ### What Python and PyYAML do -/

/-- The exceptions of `yaml.safe_load`: a `YAMLError`, or one that a constructor raises, as
for a date that is none. -/
inductive LoadError
  | yaml
  | other
  deriving DecidableEq

/-- The functions of Python and PyYAML the bus reader calls. -/
structure Python where
  /-- `str(v)` of a value that is not a string. -/
  str : Value → Text
  /-- `str.lower`. -/
  lower : Text → Text
  /-- `yaml.safe_load`. -/
  safeLoad : Text → Except LoadError Value

variable (py : Python)

/-- `str(v)`. -/
def Python.text : Value → Text
  | .str t => t
  | v => py.str v

/-! ### Messages -/

/-- `BusMessage`: the frontmatter is a `dict`. -/
structure BusMessage where
  stem : Text
  frontmatter : List (Value × Value)
  body : Text

namespace BusMessage

variable (m : BusMessage)

/-- `frontmatter.get(key)`. -/
def get (key : String) : Option Value := (Value.dict m.frontmatter).get key

/-- `str(frontmatter.get(key, default))`. -/
def field (key default : String) : Text := py.text ((m.get key).getD (.str (lit default)))

/-- `str(frontmatter.get(key) or default)`. -/
def fieldOr (key : String) (default : Text) : Text :=
  match m.get key with
  | none => default
  | some v => if v.truthy then py.text v else default

/-- `id`. -/
def id : Text := m.fieldOr py "id" m.stem

/-- `type`. -/
def type : Text := m.field py "type" ""

/-- `from_`. -/
def from_ : Text := m.field py "from" ""

/-- `to`. -/
def to_ : Text := m.field py "to" ""

/-- `priority`. -/
def priority : Text := py.lower (m.field py "priority" "normal")

/-- `from_org`. -/
def fromOrg : Text := strip (m.fieldOr py "from_org" [])

/-- `to_org`. -/
def toOrg : Text := strip (m.fieldOr py "to_org" [])

/-- What `subject` scrapes from the body: the first heading of the second level, or the
first line that is no heading. -/
def scrape : List Text → Text
  | [] => []
  | line :: lines =>
    let stripped := strip line
    if (lit "##").isPrefixOf stripped then
      strip (stripped.dropWhile (· ∈ lit "# "))
    else if stripped ≠ [] ∧ ¬(lit "#").isPrefixOf stripped then stripped.take 120
    else scrape lines

/-- `subject`. -/
def subject : Text :=
  match m.get "subject" with
  | none => scrape (splitlines m.body)
  | some v => if v.truthy then strip (py.text v) else scrape (splitlines m.body)

end BusMessage

/-! ### The policy -/

/-- `SurfaceDecision.severity`. -/
inductive Severity
  | info
  | approval
  | blocking
  deriving DecidableEq

/-- `SurfaceMode`. -/
inductive SurfaceMode
  | always
  | configurable
  | never
  deriving DecidableEq

/-- `SurfaceDecision`, but for the reason it gives a reader of the log. -/
structure SurfaceDecision where
  surface : Bool
  severity : Severity := .info
  interactive : Bool := false
  actions : List String := []
  deriving DecidableEq

/-- `_DEFAULT_POLICY`. -/
def defaultPolicy : List (Text × SurfaceMode × Severity × List String) :=
  [(lit "spec-change-request", .always, .approval, ["approve", "reject", "details", "comment"]),
    (lit "review-request", .configurable, .info, []),
    (lit "task-complete", .configurable, .info, []),
    (lit "spec-change-approved", .configurable, .info, []),
    (lit "spec-change-rejected", .configurable, .info, []),
    (lit "task-assignment", .never, .info, []),
    (lit "info", .never, .info, []),
    (lit "spec-change", .configurable, .info, []),
    (lit "contract-change", .configurable, .info, []),
    (lit "proposal", .configurable, .info, [])]

/-- `_is_to_human`. -/
def isToHuman (recipient : Text) : Bool :=
  py.lower (strip recipient) ∈ ["human", "humans", "user"].map lit

/-- `is_cross_org`. -/
def isCrossOrg (m : BusMessage) : Bool :=
  m.fromOrg py ≠ [] && m.toOrg py ≠ [] && py.lower (m.fromOrg py) ≠ py.lower (m.toOrg py)

/-- `d.get(key)` for a key that is any text. -/
def lookup (v : Value) (key : Text) : Option Value :=
  match v with
  | .dict items => items.findSome? fun
    | (.str k, x) => if k = key then some x else none
    | _ => none
  | _ => none

/-- `t.replace(old, new)` for single characters. -/
def replaceAll (old new : Char) (t : Text) : Text :=
  t.map fun c => if c = old.toNat then new.toNat else c

/-- `_override_for`. -/
def overrideFor (overrides : Value) (key : Text) : Option Bool :=
  [replaceAll '-' '_' key, replaceAll '_' '-' key].findSome? fun variant =>
    match lookup overrides variant with
    | some (.bool b) => some b
    | _ => none

/-- `decide`, for a type with a rule in the table. -/
def decideByRule (m : BusMessage) (overrides : Value) :
    SurfaceMode × Severity × List String → SurfaceDecision
  | (.never, _, _) => { surface := false }
  | (.always, severity, actions) =>
    { surface := true, severity, interactive := actions ≠ [], actions }
  | (.configurable, severity, actions) =>
    let shown : SurfaceDecision :=
      { surface := true, severity, interactive := actions ≠ [], actions }
    let agent := ((lookup overrides (lit "by_agent")).getD .none)
    match overrideFor ((lookup agent (m.from_ py)).getD .none) (m.type py) with
    | some false => { surface := false }
    | some true => shown
    | none =>
      if overrideFor overrides (m.type py) = some true then shown else { surface := false }

/-- `decide`. -/
def decide (m : BusMessage) (overrides : Value) : SurfaceDecision :=
  if isCrossOrg py m then { surface := false }
  else if m.priority py = lit "urgent" then
    { surface := true, severity := .blocking
      interactive := m.to_ py ≠ [] && isToHuman py (m.to_ py)
      actions := if isToHuman py (m.to_ py) then ["acknowledge"] else [] }
  else
    match defaultPolicy.lookup (m.type py) with
    | some rule => decideByRule py m overrides rule
    | none =>
      if isToHuman py (m.to_ py) then
        { surface := true, severity := .approval, interactive := true
          actions := ["acknowledge", "comment"] }
      else if m.priority py = lit "high" then { surface := true, severity := .approval }
      else { surface := false }

/-- What the table says of a type does not depend on what is configured. -/
theorem actions_of_configurable : ∀ rule ∈ defaultPolicy, rule.2.1 = .configurable →
    rule.2.2.2 = [] := by decide

theorem interactive_decideByRule {py : Python} {m : BusMessage} {overrides : Value}
    {rule : SurfaceMode × Severity × List String}
    (hrule : rule.1 = .configurable → rule.2.2 = [])
    (h : (decideByRule py m overrides rule).interactive) (overrides' : Value) :
    (decideByRule py m overrides' rule).interactive ∧
      (decideByRule py m overrides' rule).surface := by
  obtain ⟨mode, severity, actions⟩ := rule
  cases mode with
  | never => exact absurd h (by simp [decideByRule])
  | always => exact ⟨h, rfl⟩
  | configurable =>
    obtain rfl : actions = [] := hrule rfl
    refine absurd h ?_
    simp only [decideByRule]
    split
    · simp
    · simp
    · split_ifs <;> simp

/-- **A message is interactive whatever the overrides are**, and then it is surfaced. -/
theorem interactive_decide {py : Python} {m : BusMessage} {overrides : Value}
    (h : (decide py m overrides).interactive) (overrides' : Value) :
    (decide py m overrides').interactive ∧ (decide py m overrides').surface := by
  unfold decide at h ⊢
  by_cases hcross : isCrossOrg py m
  · exact absurd h (by simp [hcross])
  · rw [if_neg hcross] at h ⊢
    by_cases hurgent : m.priority py = lit "urgent"
    · rw [if_pos hurgent] at h ⊢
      exact ⟨h, rfl⟩
    · rw [if_neg hurgent] at h ⊢
      rcases hrule : defaultPolicy.lookup (m.type py) with _ | rule
      · simp only [hrule] at h ⊢
        by_cases hhuman : isToHuman py (m.to_ py)
        · rw [if_pos hhuman]
          exact ⟨rfl, rfl⟩
        · rw [if_neg hhuman] at h
          split_ifs at h
      · simp only [hrule] at h ⊢
        obtain ⟨l₁, l₂, hl, -⟩ := List.lookup_eq_some_iff.mp hrule
        have hmem : (m.type py, rule) ∈ defaultPolicy := by
          rw [hl]
          simp
        exact interactive_decideByRule (actions_of_configurable _ hmem) h _

/-! ### Reading a file -/

/-- What stands after each newline of the white space a text begins with, the last
newline first: where `\s*\n` may end. -/
def afterNewlines : Text → List Text
  | [] => []
  | c :: t => if isSpace c then afterNewlines t ++ (if c = 10 then [t] else []) else []

/-- `(.+?)\n---\s*\n?(.*)$`: what stands before the first closing fence that has
something before it, and what comes after the fence and the white space there. -/
def closingFence : Text → Option (Text × Text)
  | [] => none
  | c :: t => (cut (lit "\n---") t).map fun (before, after) => (c :: before, lstrip after)

/-- `_FRONTMATTER_RE.match`. -/
def frontmatterMatch (t : Text) : Option (Text × Text) :=
  if (lit "---").isPrefixOf t then (afterNewlines (t.drop 3)).findSome? closingFence else none

/-- `parse_bus_file`, on the content of the file, if it is there to be read: the message,
or nothing, or an exception that is not caught. -/
def parseBusFile (stem : Text) : Option Inbox.Content → Except Unit (Option BusMessage)
  | none => .ok none
  | some (.undecodable _) => .error ()
  | some (.text raw) =>
    match frontmatterMatch (universalNewlines raw) with
    | none => .ok none
    | some (fm, body) =>
      match py.safeLoad fm with
      | .error .yaml => .ok none
      | .error .other => .error ()
      | .ok v =>
        match if v.truthy then v else .dict [] with
        | .dict items => .ok (some ⟨stem, items, body⟩)
        | _ => .ok none

/-- A message that is read has the stem of its file. -/
theorem stem_of_parseBusFile {stem : Text} {content : Option Inbox.Content} {m : BusMessage}
    (h : parseBusFile py stem content = .ok (some m)) : m.stem = stem := by
  unfold parseBusFile at h
  split at h
  · exact absurd h (by simp)
  · exact absurd h (by simp)
  · split at h
    · exact absurd h (by simp)
    · split at h
      · exact absurd h (by simp)
      · exact absurd h (by simp)
      · split at h
        · obtain rfl := Option.some.inj (Except.ok.inj h)
          rfl
        · exact absurd h (by simp)

/-- A message that a test found. -/
theorem eq_ok_of_join {ε α : Type*} {x : Except ε (Option α)} {a : α}
    (h : x.toOption.join = some a) : x = .ok (some a) := by
  rcases x with e | x
  · exact absurd h (by simp [Except.toOption])
  · exact congrArg Except.ok h

end Bus

end OtamanBridge
