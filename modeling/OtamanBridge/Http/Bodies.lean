import OtamanBridge.Http.ControlRoutes
import OtamanBridge.Lib.PyValue

/-!
# What a body is made into

`_read_body`, and the `from_dict` of the dataclasses of `core.py`. A dataclass is made of an
object whose keys are its fields, and looks at no value: so what is declared of the fields is
not what they hold (`OtamanBridge.Http.Posts.WellTyped`), and only the code that uses a value
finds out.
-/

namespace OtamanBridge

namespace Http

namespace Posts

open Py

open Value (isDict isText field ofFields)

/-! ### Reading -/

/-- What `json.loads` raises: a `JSONDecodeError`, or another exception, as the
`UnicodeDecodeError` about bytes that cannot be decoded. -/
inductive LoadError
  | decode
  | other
  deriving DecidableEq

/-- `_read_body`. A body that is `null` is like one that is no JSON. -/
def readBody (loads : List ℕ → Except LoadError Value) (bytes : List ℕ) : Body :=
  if bytes = [] then .json (.dict [])
  else
    match loads bytes with
    | .error .decode => .invalid
    | .error .other => .raises
    | .ok v => if v.isNone then .invalid else .json v

/-! ### Dataclasses -/

/-- What a field is declared as. -/
inductive FieldType
  | text
  | object
  | int
  | optionalObject

/-- The value is of that type. -/
def FieldType.has : FieldType → Value → Bool
  | .text, .str _ => true
  | .object, .dict _ => true
  | .int, .int _ => true
  | .optionalObject, .dict _ => true
  | .optionalObject, .none => true
  | _, _ => false

/-- A field of a dataclass, and its default, if it has one. -/
structure Field where
  name : String
  type : FieldType
  default : Option Value := none

/-- A dataclass. -/
abbrev Dataclass := List Field

namespace Dataclass

variable (c : Dataclass) (data : Value)

/-- Every key is a field. -/
def known : Value → Bool
  | .dict items => items.all fun kv => c.any fun f => isText (lit f.name) kv.1
  | _ => true

/-- `cls(**data)` does not raise. -/
def takes : Bool :=
  isDict data && c.known data && c.all fun f => f.default.isSome || (data.get f.name).isSome

/-- `cls(**data)`: the object, by its fields. -/
def fromDict : Except Unit Value :=
  if c.takes data then
    .ok (ofFields (c.map fun f => (f.name, (data.get f.name).getD (f.default.getD .none))))
  else .error ()

end Dataclass

/-- `ApprovalRequest`, where a new id would be this. -/
def approvalRequest (newRequestId : Text) : Dataclass :=
  [{ name := "account", type := .text }, { name := "project", type := .text },
    { name := "repo", type := .text }, { name := "agent", type := .text },
    { name := "tool_name", type := .text }, { name := "tool_input", type := .object },
    { name := "reason", type := .text, default := some (.str []) },
    { name := "priority", type := .text, default := some (.str (lit "normal")) },
    { name := "timeout_seconds", type := .int, default := some (.int 540) },
    { name := "request_id", type := .text, default := some (.str newRequestId) }]

/-- `ApprovalResponse`. -/
def approvalResponse : Dataclass :=
  [{ name := "decision", type := .text }, { name := "request_id", type := .text },
    { name := "responder", type := .text, default := some (.str []) },
    { name := "message", type := .text, default := some (.str []) },
    { name := "updated_input", type := .optionalObject, default := some .none }]

/-- `InfoMessage`. -/
def infoMessage : Dataclass :=
  [{ name := "account", type := .text }, { name := "project", type := .text },
    { name := "severity", type := .text }, { name := "title", type := .text },
    { name := "body", type := .text, default := some (.str []) },
    { name := "source_agent", type := .text, default := some (.str []) },
    { name := "bus_message_id", type := .text, default := some (.str []) }]

/-- **The object is what is declared**: the keys are fields, none is missing, and every value
is of its type. -/
def WellTyped (c : Dataclass) (data : Value) : Prop :=
  c.takes data ∧ ∀ f ∈ c, ∀ v, data.get f.name = some v → f.type.has v

/-! ### What is made -/

variable {data req : Value} {newRequestId : Text}

end Posts

end Http

end OtamanBridge
