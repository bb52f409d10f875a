import OtamanBridge.Bus.Message
import OtamanBridge.Inbox.Store

/-!
# The messages the bridge writes

The five writers of bus messages: decisions and replies (`bus_decision.py`), events of the
PM sync (`pm_sync_handler.py`), lifecycle events (`lifecycle_telemetry.py`) and requests
for a review (`spawn_decision.py`). Each makes a file name and a text from its arguments
and the clock. The texts have one shape, an envelope of `key: value` lines and a body
(`OtamanBridge.Bus.envelope`), and every value goes into it as it is.
-/

namespace OtamanBridge

namespace Bus

open Py

/-! ### The clock -/

/-- A reading of the clock, in UTC: a second and its microseconds. -/
structure Instant where
  second : ℕ
  micro : ℕ
  deriving DecidableEq

namespace Instant

variable (i : Instant)

/-- `strftime("%Y%m%dT%H%M%S")`. -/
def stamp : Text :=
  let d := DateTime.ofTimestamp i.second
  padded 4 d.year ++ padded 2 d.month ++ padded 2 d.day ++ lit "T" ++ padded 2 d.hour ++
    padded 2 d.minute ++ padded 2 d.second

/-- `isoformat()`. -/
def isoformat : Text :=
  let d := DateTime.ofTimestamp i.second
  padded 4 d.year ++ lit "-" ++ padded 2 d.month ++ lit "-" ++ padded 2 d.day ++ lit "T" ++
    padded 2 d.hour ++ lit ":" ++ padded 2 d.minute ++ lit ":" ++ padded 2 d.second ++
    (if i.micro = 0 then [] else lit "." ++ padded 6 i.micro) ++ lit "+00:00"

end Instant

/-- The clock is written in digits, and the letter T. -/
theorem mem_stamp {i : Instant} {c : ℕ} (h : c ∈ i.stamp) : (48 ≤ c ∧ c ≤ 57) ∨ c = 84 := by
  have hT : ∀ c ∈ lit "T", c = 84 := by decide
  simp only [Instant.stamp, List.mem_append] at h
  rcases h with (((((h | h) | h) | h) | h) | h) | h
  · exact .inl (mem_padded h)
  · exact .inl (mem_padded h)
  · exact .inl (mem_padded h)
  · exact .inr (hT c h)
  · exact .inl (mem_padded h)
  · exact .inl (mem_padded h)
  · exact .inl (mem_padded h)

/-! ### The shape of a message file -/

/-- A line of an envelope. -/
def envelopeLine (kv : Text × Text) : Text := kv.1 ++ lit ": " ++ kv.2

/-- A message file. -/
def envelope (fields : List (Text × Text)) (body : Text) : Text :=
  lit "---\n" ++ joinLines (fields.map envelopeLine) ++ lit "\n---\n" ++ body

/-- A file a writer makes: its name, its fields and its body. -/
structure MessageFile where
  name : Text
  fields : List (Text × Text)
  body : Text

/-- The text of the file. -/
def MessageFile.text (f : MessageFile) : Text := envelope f.fields f.body

/-- What `write_text` leaves in the file: nothing of a text that cannot be encoded. -/
def MessageFile.written (f : MessageFile) : Text := if Inbox.Encodable f.text then f.text else []

/-- `re.sub(r"[^a-z0-9]+", "-", text.lower())`. -/
def dashed (py : Python) (t : Text) : Text :=
  Inbox.squeeze (fun c => !(('a'.toNat ≤ c && c ≤ 'z'.toNat) || ('0'.toNat ≤ c && c ≤ '9'.toNat)))
    '-'.toNat (py.lower t)

/-- `t.strip("-")`. -/
def stripDashes (t : Text) : Text :=
  (t.dropWhile (· = '-'.toNat)).rdropWhile (· = '-'.toNat)

/-- `t or default`. -/
def orText (t default : Text) : Text := if t = [] then default else t

/-- `_slug`. -/
def slug (py : Python) (t : Text) : Text :=
  orText ((stripDashes (dashed py t)).take 30) (lit "decision")

/-! ### Decisions and replies -/

/-- The decisions on a spec-change-request. -/
inductive Verdict
  | approved
  | rejected
  deriving DecidableEq, Repr

/-- The word for it. -/
def Verdict.word : Verdict → String
  | .approved => "approved"
  | .rejected => "rejected"

/-- The text of the `human.ack` file. -/
def Verdict.ack (v : Verdict) : Text := lit (v.word ++ "\n")

section Decision

variable (py : Python) (m : BusMessage) (i : Instant) (responder comment : Text)

/-- `msg.subject or f"{msg.type} from {msg.from_}"`. -/
def decisionSubject : Text := orText (m.subject py) (m.type py ++ lit " from " ++ m.from_ py)

/-- `msg.from_ or "all"`. -/
def proposer : Text := orText (m.from_ py) (lit "all")

/-- `f"\n**{label}**: {responder}" if responder else ""`. -/
def responderLine (label : String) : Text :=
  if responder = [] then [] else lit ("\n**" ++ label ++ "**: ") ++ responder

/-- The message of an approval. -/
def approvedMessage : MessageFile where
  name := i.stamp ++ lit "-human-to-all-spec-change-approved.md"
  fields :=
    [(lit "id", i.stamp ++ lit "-approved-" ++ slug py (decisionSubject py m)),
      (lit "from", lit "human"), (lit "to", lit "all"), (lit "priority", lit "high"),
      (lit "type", lit "spec-change-approved"), (lit "timestamp", i.isoformat),
      (lit "status", lit "pending")]
  body := lit "\n## Subject: Approved: " ++ decisionSubject py m ++
    lit "\n\nThe spec-change-request from **" ++ proposer py m ++
    lit "** has been **approved** via the remote bridge." ++
    responderLine responder "Decided by" ++
    lit "\n\n**Original proposal**: " ++ m.stem ++ lit "\n" ++
    (if comment = [] then [] else lit "\n### Human comments\n" ++ comment ++ lit "\n") ++
    lit ("\n### Next steps\n" ++
      "1. Specs will be created/updated in the specs repo (via OpenSpec or manually)\n" ++
      "2. All agents will be notified when specs are committed (via post-commit hook)\n" ++
      "3. Affected agents should review updated specs and adapt implementation\n" ++
      "\nUse `/otaman:check` to track updates.\n")

theorem no_separator_approval :
    '/'.toNat ∉ (approvedMessage py m i responder comment).name := by
  have hword : '/'.toNat ∉ lit "-human-to-all-spec-change-approved.md" := by decide
  intro h
  rcases List.mem_append.mp h with h | h
  · rcases mem_stamp h with hdigit | hT
    · exact absurd hdigit (by decide)
    · exact absurd hT (by decide)
  · exact hword h

/-- The message of a rejection. -/
def rejectedMessage : MessageFile where
  name := i.stamp ++ lit "-human-to-" ++ proposer py m ++ lit "-spec-change-rejected.md"
  fields :=
    [(lit "id", i.stamp ++ lit "-rejected-" ++ slug py (decisionSubject py m)),
      (lit "from", lit "human"), (lit "to", proposer py m), (lit "priority", lit "normal"),
      (lit "type", lit "spec-change-rejected"), (lit "timestamp", i.isoformat),
      (lit "status", lit "pending")]
  body := lit "\n## Subject: Rejected: " ++ decisionSubject py m ++
    lit "\n\nThe spec-change-request from **" ++ proposer py m ++
    lit "** has been **rejected** via the remote bridge." ++
    responderLine responder "Decided by" ++
    lit "\n\n**Original proposal**: " ++ m.stem ++
    lit "\n\n### Reason\n" ++ orText comment (lit "No reason provided.") ++
    lit ("\n\nNo spec changes will be made. " ++
      "Adjust your approach and re-propose if needed.\n")

/-- `broadcast_decision`. -/
def broadcastDecision : Verdict → MessageFile
  | .approved => approvedMessage py m i responder comment
  | .rejected => rejectedMessage py m i responder comment

/-- `write_reply_message`. -/
def replyMessage (text : Text) : MessageFile where
  name := i.stamp ++ lit "-human-to-" ++ proposer py m ++ lit "-reply.md"
  fields :=
    [(lit "id", i.stamp ++ lit "-reply-" ++ slug py (orText text (orText (m.subject py)
        (lit "reply")))),
      (lit "from", lit "human"), (lit "to", proposer py m), (lit "priority", lit "normal"),
      (lit "type", lit "info"), (lit "timestamp", i.isoformat), (lit "status", lit "pending"),
      (lit "in_reply_to", m.stem)]
  body := lit "\n## Subject: Re: " ++ orText (m.subject py) (m.type py) ++ lit "\n\n" ++ text ++
    lit "\n" ++ responderLine responder "Via" ++
    lit "\n\n---\n*This is a human reply delivered via the remote bridge to message " ++
    m.stem ++ lit ".*\n"

end Decision

/-! ### Events -/

/-- `PmSyncHandler._write_bus_message`. -/
def pmMessage (py : Python) (i : Instant) (msgType recipient subject body priority : Text) :
    MessageFile :=
  let slug := stripDashes ((dashed py subject).take 40)
  { name := i.stamp ++ lit "-bridge-to-" ++ recipient ++ lit "-" ++ slug ++ lit ".md"
    fields :=
      [(lit "id", i.stamp ++ lit "-pm-sync-" ++ slug), (lit "from", lit "bridge-agent"),
        (lit "to", recipient), (lit "type", msgType), (lit "priority", priority),
        (lit "timestamp", i.isoformat), (lit "status", lit "pending")]
    body := lit "\n## " ++ subject ++ lit "\n\n" ++ body ++ lit "\n" }

/-- The arguments of `lifecycle_telemetry._write_bus_message`. -/
structure LifecycleEvent where
  msgType : Text
  fromAgent : Text
  recipient : Text
  priority : Text
  changeId : Text
  subject : Text
  body : Text

/-- `lifecycle_telemetry._write_bus_message`, which reads the clock twice. -/
def lifecycleMessage (ts prefixed : Instant) (e : LifecycleEvent) : MessageFile :=
  let slug := prefixed.stamp ++ lit "-" ++ e.fromAgent ++ lit "-to-" ++ e.recipient ++ lit "-" ++
    replaceAll '-' '_' e.msgType
  { name := slug ++ lit ".md"
    fields :=
      [(lit "id", slug), (lit "from", e.fromAgent), (lit "to", e.recipient),
        (lit "priority", e.priority), (lit "type", e.msgType), (lit "timestamp", ts.isoformat),
        (lit "status", lit "pending"), (lit "change", e.changeId)]
    body := lit "\n## Subject: " ++ e.subject ++ lit "\n\n" ++ e.body ++ lit "\n" }

/-- The arguments of `_emit_request_human_review`. -/
structure ReviewRequest where
  fromAgent : Text
  humanId : Text
  sessionId : Text
  agentId : Text
  changeId : Text
  /-- `message_path.name`. -/
  messageName : Text

/-- `_emit_request_human_review`. -/
def reviewMessage (ts prefixed : Instant) (r : ReviewRequest) : MessageFile :=
  let slug := prefixed.stamp ++ lit "-" ++ r.fromAgent ++ lit "-to-" ++ r.humanId ++
    lit "-review-" ++ r.sessionId.take 8
  { name := slug ++ lit ".md"
    fields :=
      [(lit "id", slug), (lit "from", r.fromAgent), (lit "to", r.humanId),
        (lit "priority", lit "normal"), (lit "type", lit "request-human-review"),
        (lit "timestamp", ts.isoformat), (lit "status", lit "pending"),
        (lit "session-id", r.sessionId), (lit "decision-type", lit "approve-reject"),
        (lit "change", r.changeId)]
    body := lit "\n## Subject: Interactive task requires human review — " ++ r.agentId ++
      lit ("\n\n### Context\nA `[interactive]` task-assignment was received for agent **") ++
      r.agentId ++ lit "** as part\nof change **" ++ r.changeId ++
      lit "**. Interactive tasks require a human-launched session.\n\nOriginal message: `" ++
      r.messageName ++
      lit "`\n\n### Question\nShould an interactive session be launched for **" ++ r.agentId ++
      lit ("** now?\n\n### Options\n" ++
        "- **approve**: Launch an interactive session immediately.\n" ++
        "- **reject**: Skip — task remains pending on the bus.\n" ++
        "- **approve-with-changes**: Launch with modified context (specify in rationale).\n" ++
        "\n### Auto-default if no decision by deadline\n" ++
        "None — task remains pending on the bus indefinitely.\n" ++
        "\n### Cost / risk if wrong\n" ++
        "Approving opens a new terminal session. Rejecting defers the work.\n") }

end Bus

end OtamanBridge
