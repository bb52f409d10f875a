import OtamanBridge.Bus.Surfacing

/-!
# What is sent to Telegram

The requests and messages that `bus_watcher.py` and the hook hand to the transport, with all
the fields that its renderers read, and the request ids they carry: a generated one
(`core.py`), or the stem of a bus file.
-/

namespace OtamanBridge

namespace Telegram

open Py Bus

/-! ### Requests and messages -/

/-- What Python makes of the input of a tool. -/
structure Python extends Bus.Python where
  /-- `repr(v)`. -/
  repr : Value → Text
  /-- `json.dumps(v, indent=2, ensure_ascii=False)`, or its exception. -/
  dumps : Value → Option Text

/-- `ApprovalRequest`. -/
structure ApprovalRequest where
  account : Text
  project : Text
  repo : Text
  agent : Text
  toolName : Text
  toolInput : Value
  reason : Text
  priority : Text
  timeoutSeconds : ℤ
  requestId : Text

/-- `InfoMessage`. -/
structure InfoMessage where
  account : Text
  project : Text
  severity : Severity
  title : Text
  body : Text
  sourceAgent : Text
  busMessageId : Text

/-! ### Request ids -/

/-- What a clock can show: `datetime` ends with the year 9999. -/
structure Now where
  instant : Instant
  inRange : instant.second < 253402300800

/-- A digit of `secrets.token_hex`. -/
def hexDigit (n : ℕ) : ℕ := (lit "0123456789abcdef").getD n '0'.toNat

/-- `secrets.token_hex(4)`, of four random bytes. -/
def tokenHex (token : BitVec 32) : Text :=
  (List.range 8).map fun k => hexDigit (token.toNat / 16 ^ (7 - k) % 16)

/-- `_new_request_id`. -/
def newRequestId (now : Now) (token : BitVec 32) : Text :=
  now.instant.stamp ++ lit "-" ++ tokenHex token

/-! ### Requests of the hook -/

/-- What the hook puts into the body of `POST /approval`. -/
structure Payload where
  account : Text
  project : Text
  repo : Text
  agent : Text
  toolName : Text
  toolInput : List (Value × Value)
  priority : Text
  timeoutSeconds : ℤ

/-- `ApprovalRequest.from_dict` of it: the reason is empty, and the id is generated. -/
def Payload.request (p : Payload) (now : Now) (token : BitVec 32) : ApprovalRequest where
  account := p.account
  project := p.project
  repo := p.repo
  agent := p.agent
  toolName := p.toolName
  toolInput := .dict p.toolInput
  reason := []
  priority := p.priority
  timeoutSeconds := p.timeoutSeconds
  requestId := newRequestId now token

/-! ### Requests and messages of the bus -/

section Bus

variable (py : Bus.Python) (m : BusMessage) (account project : Text)

/-- `tool_input` of a bus request. -/
def busInput : List (Value × Value) :=
  [(.str (lit "id"), .str (m.id py)), (.str (lit "subject"), .str (m.subject py)),
    (.str (lit "body"), .str m.body), (.str (lit "from"), .str (m.from_ py)),
    (.str (lit "to"), .str (m.to_ py)),
    (.str (lit "timestamp"), .str (m.field py "timestamp" ""))]

/-- `build_approval_request`, with the time-out that is its default. -/
def buildApprovalRequest : ApprovalRequest where
  account := account
  project := project
  repo := m.to_ py
  agent := m.from_ py
  toolName := lit "bus:" ++ m.type py
  toolInput := .dict (busInput py m)
  reason := orText (m.subject py) (m.type py ++ lit " from " ++ m.from_ py)
  priority :=
    if m.priority py ∈ ["low", "normal", "high", "urgent"].map lit then m.priority py
    else lit "normal"
  timeoutSeconds := 3 * 60 * 60
  requestId := m.stem

/-- `_format_info_title`: the emoji is the one for `info`. -/
def formatInfoTitle : Text :=
  lit "🟢 [" ++ m.from_ py ++ lit " → " ++ m.to_ py ++ lit "] " ++ m.type py

/-- The line about the subject, if there is one. -/
def subjectLines : List Text :=
  if m.subject py = [] then [] else [lit "**" ++ m.subject py ++ lit "**"]

/-- The line about a priority that is not the usual one. -/
def priorityLines : List Text :=
  if m.priority py ≠ [] ∧ m.priority py ≠ lit "normal" then [lit "Priority: " ++ m.priority py]
  else []

/-- The body, cut to 800 characters. -/
def shortBody : Text :=
  if 800 < (strip m.body).length then (strip m.body).take 800 ++ lit "\n… (truncated)"
  else strip m.body

/-- An empty line and the body, if there is one. -/
def bodyLines : List Text := if shortBody m = [] then [] else [[], shortBody m]

/-- `_format_info_body`. -/
def formatInfoBody : Text := joinLines (subjectLines py m ++ priorityLines py m ++ bodyLines m)

/-- `build_info_message`. -/
def buildInfoMessage (severity : Severity) : InfoMessage where
  account := account
  project := project
  severity := severity
  title := formatInfoTitle py m
  body := formatInfoBody py m
  sourceAgent := m.from_ py
  busMessageId := m.id py

end Bus

/-! ### Generated ids are short -/

/-- A time stamp has fifteen characters. -/
theorem length_stamp (now : Now) : now.instant.stamp.length = 15 := by
  obtain ⟨hyear, hmonth, hday, hhour, hminute, hsecond⟩ := DateTime.ofTimestamp_lt now.inRange
  simp only [Instant.stamp, List.length_append, length_padded (by omega : 0 < 4) hyear,
    length_padded (by omega : 0 < 2) hmonth, length_padded (by omega : 0 < 2) hday,
    length_padded (by omega : 0 < 2) hhour, length_padded (by omega : 0 < 2) hminute,
    length_padded (by omega : 0 < 2) hsecond]
  decide

/-- A generated id has twenty-four characters. -/
theorem length_newRequestId (now : Now) (token : BitVec 32) :
    (newRequestId now token).length = 24 := by
  simp only [newRequestId, List.length_append, length_stamp, tokenHex, List.length_map,
    List.length_range]
  decide

/-- They are digits, hyphens and letters. -/
theorem newRequestId_ascii {now : Now} {token : BitVec 32} {c : ℕ}
    (h : c ∈ newRequestId now token) : c < 0x80 := by
  have hhex : ∀ n < 16, hexDigit n < 0x80 := by decide
  have hsep : ∀ s ∈ ["T", "-"], ∀ c ∈ lit s, c < 0x80 := by decide
  simp only [newRequestId, Instant.stamp, List.mem_append] at h
  rcases h with ((((((((h | h) | h) | h) | h) | h) | h)) | h) | h
  · have := mem_padded h
    omega
  · have := mem_padded h
    omega
  · have := mem_padded h
    omega
  · exact hsep "T" (by decide) c h
  · have := mem_padded h
    omega
  · have := mem_padded h
    omega
  · have := mem_padded h
    omega
  · exact hsep "-" (by decide) c h
  · obtain ⟨k, -, rfl⟩ := List.mem_map.mp h
    exact hhex _ (Nat.mod_lt _ (by omega))

end Telegram

end OtamanBridge
