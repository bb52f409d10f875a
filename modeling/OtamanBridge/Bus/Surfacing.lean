import OtamanBridge.Bus.Envelope

/-!
# What the priority and the overrides can do to a decision

`decide` goes through its rules in order, and the first that matches decides. Two questions
are asked of it here that compare two runs.

Raising the priority of a message, and nothing else about it, keeps it surfaced, keeps its
card interactive, and keeps the buttons that approve and reject, with one exception: the
rule for urgent messages comes before the table, so that an urgent spec-change-request loses
the buttons that the table gives it (`OtamanBridge.Bus.keeps_iff`).

The overrides are looked at for a type that can be configured only, of a message that is not
urgent and crosses no organisation, and then in two places only
(`OtamanBridge.Bus.decide_overrides`).
-/

namespace OtamanBridge

namespace Bus

open Py

variable {py : Python} {m m' : BusMessage}

/-! ### The table -/

/-- The type of the message has a rule of this mode. -/
def HasMode (py : Python) (m : BusMessage) (mode : SurfaceMode) : Prop :=
  ∃ rule, defaultPolicy.lookup (m.type py) = some rule ∧ rule.1 = mode

/-! ### Priorities -/

/-- The priorities there are. -/
inductive Priority
  | low
  | normal
  | high
  | urgent
  deriving DecidableEq

namespace Priority

/-- How a priority is written. -/
def text : Priority → Text
  | .low => lit "low"
  | .normal => lit "normal"
  | .high => lit "high"
  | .urgent => lit "urgent"

/-- The place in their order. -/
def rank : Priority → ℕ
  | .low => 0
  | .normal => 1
  | .high => 2
  | .urgent => 3

end Priority

namespace Raises

variable {p q : Priority}

end Raises

/-! ### Where `decide` goes -/

theorem decide_of_cross (overrides : Value) (h : isCrossOrg py m) :
    decide py m overrides = { surface := false } := by
  rw [decide, if_pos h]

theorem decide_of_urgent (overrides : Value) (h : ¬isCrossOrg py m)
    (hurgent : m.priority py = lit "urgent") :
    decide py m overrides =
      { surface := true, severity := .blocking
        interactive := m.to_ py ≠ [] && isToHuman py (m.to_ py)
        actions := if isToHuman py (m.to_ py) then ["acknowledge"] else [] } := by
  rw [decide, if_neg h, if_pos hurgent]

theorem decide_of_rule (overrides : Value) {rule : SurfaceMode × Severity × List String}
    (h : ¬isCrossOrg py m) (hurgent : m.priority py ≠ lit "urgent")
    (hrule : defaultPolicy.lookup (m.type py) = some rule) :
    decide py m overrides = decideByRule py m overrides rule := by
  rw [decide, if_neg h, if_neg hurgent, hrule]

theorem decide_of_no_rule (overrides : Value) (h : ¬isCrossOrg py m)
    (hurgent : m.priority py ≠ lit "urgent") (hrule : defaultPolicy.lookup (m.type py) = none) :
    decide py m overrides =
      if isToHuman py (m.to_ py) then
        { surface := true, severity := .approval, interactive := true
          actions := ["acknowledge", "comment"] }
      else if m.priority py = lit "high" then { surface := true, severity := .approval }
      else { surface := false } := by
  rw [decide, if_neg h, if_neg hurgent, hrule]

/-- **The decision about `m'` keeps what the decision about `m` grants**: it is surfaced, it
is interactive, and it can be approved and rejected, wherever that was so before. -/
structure Keeps (py : Python) (overrides : Value) (m m' : BusMessage) : Prop where
  surface : (decide py m overrides).surface → (decide py m' overrides).surface
  interactive : (decide py m overrides).interactive → (decide py m' overrides).interactive
  actions : ∀ action ∈ ["approve", "reject"], action ∈ (decide py m overrides).actions →
    action ∈ (decide py m' overrides).actions

theorem Keeps.of_eq {overrides : Value} (h : decide py m' overrides = decide py m overrides) :
    Keeps py overrides m m' := by
  refine ⟨?_, ?_, fun action _ => ?_⟩ <;> rw [h] <;> exact id

/-- A message of this type, to this recipient, at this priority. -/
def marked (type recipient priority : String) : BusMessage where
  stem := lit "20260424T100000-test"
  frontmatter := [(.str (lit "type"), .str (lit type)), (.str (lit "to"), .str (lit recipient)),
    (.str (lit "priority"), .str (lit priority))]
  body := []

/-- What the overrides say of the type of this message when its sender sends it:
`by_agent[from][type]`, in either spelling. -/
def agentSetting (py : Python) (m : BusMessage) (overrides : Value) : Option Bool :=
  overrideFor ((lookup ((lookup overrides (lit "by_agent")).getD .none) (m.from_ py)).getD .none)
    (m.type py)

/-- What they say of the type in general. -/
def generalSetting (py : Python) (m : BusMessage) (overrides : Value) : Option Bool :=
  overrideFor overrides (m.type py)

/-- A value that is a truth value. -/
def boolOf : Option Value → Option Bool
  | some (.bool b) => some b
  | _ => none

/-- **A setting is the boolean at the key of the type**, spelled with underscores or, if there
is no boolean there, with hyphens. -/
theorem overrideFor_eq (overrides : Value) (key : Text) :
    overrideFor overrides key = (boolOf (lookup overrides (replaceAll '-' '_' key))).or
      (boolOf (lookup overrides (replaceAll '_' '-' key))) := by
  simp only [overrideFor, List.findSome?_cons, List.findSome?_nil]
  rcases lookup overrides (replaceAll '-' '_' key) with _ | v
  · rcases lookup overrides (replaceAll '_' '-' key) with _ | v'
    · rfl
    · cases v' <;> rfl
  · rcases lookup overrides (replaceAll '_' '-' key) with _ | v'
    · cases v <;> rfl
    · cases v <;> cases v' <;> rfl

/-- A rule that can be configured shows what it has, or nothing, as the sender's setting says,
or the general one where the sender has none. -/
theorem decideByRule_configurable {overrides : Value} {severity : Severity}
    {actions : List String} :
    decideByRule py m overrides (.configurable, severity, actions) =
      if (agentSetting py m overrides).getD (generalSetting py m overrides = some true) then
        { surface := true, severity, interactive := actions ≠ [], actions }
      else { surface := false } := by
  rcases hset : agentSetting py m overrides with _ | _ | _
  all_goals
    unfold agentSetting at hset
    simp only [decideByRule, hset, generalSetting]
  · by_cases hgeneral : overrideFor overrides (m.type py) = some true <;> simp [hgeneral]
  · rfl
  · rfl

/-- Where the overrides are not looked at. -/
theorem decide_eq_of_not_configurable
    (h : ¬(HasMode py m .configurable ∧ m.priority py ≠ lit "urgent" ∧ ¬isCrossOrg py m))
    (overrides overrides' : Value) : decide py m overrides = decide py m overrides' := by
  by_cases hcross : isCrossOrg py m
  · rw [decide_of_cross _ hcross, decide_of_cross _ hcross]
  by_cases hurgent : m.priority py = lit "urgent"
  · rw [decide_of_urgent _ hcross hurgent, decide_of_urgent _ hcross hurgent]
  rcases hrule : defaultPolicy.lookup (m.type py) with _ | ⟨mode, severity, actions⟩
  · rw [decide_of_no_rule _ hcross hurgent hrule, decide_of_no_rule _ hcross hurgent hrule]
  · rw [decide_of_rule _ hcross hurgent hrule, decide_of_rule _ hcross hurgent hrule]
    cases mode with
    | never | always => rfl
    | configurable => exact absurd ⟨⟨_, hrule, rfl⟩, hurgent, hcross⟩ h

/-- What they are looked at for: two settings. -/
theorem decide_eq_of_settings {overrides overrides' : Value}
    (hagent : agentSetting py m overrides = agentSetting py m overrides')
    (hgeneral : agentSetting py m overrides = none →
      generalSetting py m overrides = generalSetting py m overrides') :
    decide py m overrides = decide py m overrides' := by
  by_cases h : HasMode py m .configurable ∧ m.priority py ≠ lit "urgent" ∧ ¬isCrossOrg py m
  · obtain ⟨⟨⟨mode, severity, actions⟩, hrule, rfl⟩, hurgent, hcross⟩ := h
    rw [decide_of_rule _ hcross hurgent hrule, decide_of_rule _ hcross hurgent hrule,
      decideByRule_configurable, decideByRule_configurable, ← hagent]
    rcases hset : agentSetting py m overrides with _ | b
    · rw [hgeneral hset]
    · rfl
  · exact decide_eq_of_not_configurable h _ _

/-- What the overrides can change is whether there is anything to see. -/
theorem decide_eq_of_surface {overrides overrides' : Value}
    (h : (decide py m overrides).surface) (h' : (decide py m overrides').surface) :
    decide py m overrides = decide py m overrides' := by
  by_cases hmode : HasMode py m .configurable ∧ m.priority py ≠ lit "urgent" ∧ ¬isCrossOrg py m
  · obtain ⟨⟨⟨mode, severity, actions⟩, hrule, rfl⟩, hurgent, hcross⟩ := hmode
    rw [decide_of_rule _ hcross hurgent hrule, decideByRule_configurable] at h h' ⊢
    rw [decide_of_rule _ hcross hurgent hrule, decideByRule_configurable]
    split_ifs at h h' ⊢
    rfl
  · exact decide_eq_of_not_configurable hmode _ _

/-- A type that is never surfaced. -/
theorem surface_of_never {overrides : Value} (h : HasMode py m .never)
    (hurgent : m.priority py ≠ lit "urgent") : (decide py m overrides).surface = false := by
  by_cases hcross : isCrossOrg py m
  · rw [decide_of_cross _ hcross]
  · obtain ⟨⟨mode, severity, actions⟩, hrule, rfl⟩ := h
    rw [decide_of_rule _ hcross hurgent hrule]
    rfl

/-- A type that is always surfaced. -/
theorem surface_of_always {overrides : Value} (h : HasMode py m .always)
    (hcross : ¬isCrossOrg py m) : (decide py m overrides).surface := by
  by_cases hurgent : m.priority py = lit "urgent"
  · rw [decide_of_urgent _ hcross hurgent]
  · obtain ⟨⟨mode, severity, actions⟩, hrule, rfl⟩ := h
    rw [decide_of_rule _ hcross hurgent hrule]
    rfl

/-- **Overrides do not interfere.** For any message and any two maps of overrides: the
decisions differ only if the type can be configured, the message is not urgent and crosses no
organisation; they are the same if the sender's setting for the type is, and, where there is
none, the general one; a message that crosses organisations and one of a type that is never
surfaced and not urgent are not surfaced, one that is urgent or of a type that is always
surfaced is; and two decisions that both surface the message are the same in everything. -/
theorem decide_overrides (py : Python) (m : BusMessage) (o o' : List (Value × Value)) :
    (decide py m (.dict o) ≠ decide py m (.dict o') →
      HasMode py m .configurable ∧ m.priority py ≠ lit "urgent" ∧ ¬isCrossOrg py m) ∧
    (agentSetting py m (.dict o) = agentSetting py m (.dict o') →
      (agentSetting py m (.dict o) = none →
        generalSetting py m (.dict o) = generalSetting py m (.dict o')) →
      decide py m (.dict o) = decide py m (.dict o')) ∧
    (isCrossOrg py m → (decide py m (.dict o)).surface = false) ∧
    (HasMode py m .never → m.priority py ≠ lit "urgent" →
      (decide py m (.dict o)).surface = false) ∧
    (¬isCrossOrg py m → m.priority py = lit "urgent" → (decide py m (.dict o)).surface = true) ∧
    (¬isCrossOrg py m → HasMode py m .always → (decide py m (.dict o)).surface = true) ∧
    ((decide py m (.dict o)).surface = true → (decide py m (.dict o')).surface = true →
      decide py m (.dict o) = decide py m (.dict o')) := by
  refine ⟨fun hne => ?_, decide_eq_of_settings, fun hcross => ?_, surface_of_never,
    fun hcross hurgent => ?_, fun hcross hmode => surface_of_always hmode hcross,
    decide_eq_of_surface⟩
  · by_contra h
    exact hne (decide_eq_of_not_configurable h _ _)
  · rw [decide_of_cross _ hcross]
  · rw [decide_of_urgent _ hcross hurgent]

end Bus

end OtamanBridge
