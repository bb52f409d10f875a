import Mathlib.Algebra.Order.Ring.Rat
import OtamanBridge.Lib.PyText

/-!
# What crosses the hook, the daemon and the transport

The dataclasses of `otaman_bridge/core.py` that the approval path reads and
writes, and the callback codec of the Telegram transport. `from_dict` checks the
names of the fields but not their values, so a decision or an action is any
string; the verbs the code compares with get a constructor of their own and
everything else is `other`.
-/

namespace OtamanBridge

/-- A reading of a clock, or a duration, in seconds. -/
abbrev Seconds := ℚ

/-- `ApprovalResponse.decision`. -/
inductive Decision
  | allow
  | deny
  | ask
  | timeout
  /-- A string `ApprovalResponse.from_dict` let through unchecked. -/
  | other (s : String)
  deriving DecidableEq, Repr

namespace Decision

/-- The decision a string of the wire stands for. -/
def ofString (s : String) : Decision :=
  if s = "allow" then .allow
  else if s = "deny" then .deny
  else if s = "ask" then .ask
  else if s = "timeout" then .timeout
  else .other s

/-- The string a decision is serialised as. -/
def toString : Decision → String
  | .allow => "allow"
  | .deny => "deny"
  | .ask => "ask"
  | .timeout => "timeout"
  | .other s => s

end Decision

/-- `InboundReply.action`. -/
inductive Action
  | approve
  | reject
  | comment
  | viewDiff
  | snooze
  | details
  | acknowledge
  /-- A code `decode_callback` passed through verbatim. -/
  | other (s : String)
  deriving DecidableEq, Repr

/-- The action a verb stands for. -/
def Action.ofString (s : String) : Action :=
  if s = "approve" then .approve
  else if s = "reject" then .reject
  else if s = "comment" then .comment
  else if s = "view-diff" then .viewDiff
  else if s = "snooze" then .snooze
  else if s = "details" then .details
  else if s = "acknowledge" then .acknowledge
  else .other s

/-- `ApprovalRequest`: the fields the approval table and its clock read. -/
structure ApprovalRequest where
  requestId : String
  timeoutSeconds : Seconds := 540
  deriving DecidableEq, Repr

/-- `ApprovalResponse`. -/
structure ApprovalResponse where
  decision : Decision
  requestId : String
  responder : String := ""
  message : String := ""
  deriving DecidableEq, Repr

/-- `InboundReply`. -/
structure InboundReply where
  requestId : String
  action : Action
  responder : String
  comment : String := ""
  deriving DecidableEq, Repr

/-- `CallContext`: who `auth_provider.identify` takes the caller of a request for.
Loopback callers have no user identity, so their `userId` is empty. -/
structure CallContext where
  userId : Py.Text
  userEmail : Option Py.Text := none
  roles : List Py.Text := []
  deriving DecidableEq, Repr

/-- `_ACTION_TO_DECISION.get`. -/
def actionToDecision : Action → Option Decision
  | .approve => some .allow
  | .reject => some .deny
  | _ => none

/-! ### Callback data of the Telegram transport -/

/-- `_ACTION_DECODE.get(code, code)`. -/
def actionDecode (code : String) : Action :=
  if code = "A" then .approve
  else if code = "R" then .reject
  else if code = "D" then .details
  else if code = "S" then .snooze
  else if code = "C" then .comment
  else if code = "V" then .viewDiff
  else Action.ofString code

/-- `data.partition("|")`, without the separator. -/
def partitionBar (data : String) : String × String :=
  (String.ofList (data.toList.takeWhile (· ≠ '|')),
    String.ofList ((data.toList.dropWhile (· ≠ '|')).drop 1))

/-- `decode_callback`, with the check its caller makes: callback data without an
action or without a request id is malformed. -/
def decodeCallback (data : String) : Option (Action × String) :=
  let (code, requestId) := partitionBar data
  if code = "" ∨ requestId = "" then none else some (actionDecode code, requestId)

/-- `encode_callback` for the four buttons of a card. -/
def encodeCallback (code requestId : String) : String := code ++ "|" ++ requestId

/-- The approve button of the card for `requestId` decodes to an approve for
`requestId`, whatever characters the id is made of. -/
theorem decodeCallback_approve {requestId : String} (h : requestId ≠ "") :
    decodeCallback (encodeCallback "A" requestId) = some (.approve, requestId) := by
  have hlist : (encodeCallback "A" requestId).toList = 'A' :: '|' :: requestId.toList := by
    simp [encodeCallback]
  simp [decodeCallback, partitionBar, hlist, h, actionDecode]

end OtamanBridge
