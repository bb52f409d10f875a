import Mathlib.Algebra.GroupWithZero.Nat
import OtamanBridge.Core
import OtamanBridge.Inbox.Store

/-!
# The MCP tools over the inboxes

The handlers of `mcp_tools.py` that send, list and mark messages, on arguments of any
type and for any caller the auth layer found. A handler answers in one of three ways: with
its result, with an error result of its own, or with an exception, which `tools/call`
makes an error result of. The caller's user id is the only thing that says whose inbox is
meant.
-/

namespace OtamanBridge

namespace Inbox

open Py Posix

/-! ### Results -/

/-- A tool result. -/
structure ToolResult where
  isError : Bool := false
  text : Text
  structured : Value := .none

/-- A `dict` with string keys. -/
def object (items : List (String × Value)) : Value :=
  .dict (items.map fun (k, v) => (.str (lit k), v))

/-- A value that may be `None`. -/
def optional (v : Option Text) : Value := v.elim .none .str

/-- `_mcp_error`. -/
def mcpError (message : Text) : ToolResult := { isError := true, text := message }

/-- What `tools/call` makes of an exception of a handler. -/
def toolError (h : Host) (e : Failure) : ToolResult :=
  mcpError (lit "tool error: " ++ e.message h)

/-- What becomes of an exception where the handler catches a `ValueError`. -/
def caught (h : Host) (before : String) (e : Failure) : ToolResult :=
  if e.isValueError then mcpError (lit before ++ e.message h) else toolError h e

/-! ### Sending -/

/-- The checks of `write_message` that look at values that are no strings, in its order:
the draft it goes on with. -/
def draftOf (h : Host) (ctx : CallContext) (toUser body : Text)
    (subject inReplyTo priority msgType : Value) : Except Failure Draft :=
  let text : Value → Option Text
    | .none => none
    | .str t => some t
    | v => some (h.str v)
  let refused := Failure.value (lit "priority must be low|normal|high, got " ++ h.repr priority)
  match priority with
  | .str p =>
    if p ∉ priorities then .error refused
    else
      let draft (subject : Option Text) : Draft :=
        { fromUser := ctx.userId, fromEmail := ctx.userEmail, toUser, body, subject,
          inReplyTo := text inReplyTo, priority := p, msgType := text msgType }
      match subject with
      | .str t => .ok (draft (some t))
      | v =>
        if v.truthy then
          .error (.type (lit "'" ++ v.typeName ++ lit "' object has no attribute 'strip'"))
        else .ok (draft none)
  | _ => .error refused

/-- `write_message`, called by a tool. -/
def send (h : Host) (now : ℕ) (disk : Disk) (draft : Except Failure Draft) :
    Disk × Except Failure StoredMessage :=
  match draft with
  | .error e => (disk, .error e)
  | .ok d => writeMessage h now disk d

/-- The arguments that name a recipient and a text, or the error about them. -/
def recipientAndText (args : Value) (ctx : CallContext) (key missing : String) :
    Except ToolResult (Text × Text) :=
  match args.get "target_user_id" with
  | some (.str target) =>
    if target = [] then .error (mcpError (lit "missing or invalid target_user_id"))
    else
      match args.get key with
      | some (.str t) =>
        if strip t = [] then .error (mcpError (lit missing))
        else if ctx.userId = [] then
          .error (mcpError (lit ("sender identity required but call is unauthenticated" ++
            " (loopback-bearer calls have no user identity)")))
        else .ok (target, t)
      | _ => .error (mcpError (lit missing))
  | _ => .error (mcpError (lit "missing or invalid target_user_id"))

/-- An argument, or its default. -/
def argument (args : Value) (key : String) (default : Value := .none) : Value :=
  (args.get key).getD default

/-- The draft `send_message_to_user` hands to `write_message`, or the error before. -/
def messageDraft (h : Host) (args : Value) (ctx : CallContext) :
    Except ToolResult (Text × Except Failure Draft) :=
  (recipientAndText args ctx "body" "missing or empty body").map fun (target, body) =>
    (target, draftOf h ctx target body (argument args "subject") (argument args "in_reply_to")
      (argument args "priority" (.str (lit "normal"))) (argument args "type" (.str (lit "chat"))))

/-- What a sent message is reported as. -/
def sentResult (h : Host) (before : String) (target : Text) (sent : StoredMessage)
    (more : List (String × Value)) : ToolResult where
  text := lit before ++ target ++ lit " (subject: " ++ h.repr (.str sent.subject) ++
    lit ", id: " ++ sent.id ++ lit ")."
  structured := object ([("message_id", .str sent.id), ("to_user", .str sent.toUser),
    ("subject", .str sent.subject), ("sent_at", .str sent.sentAt)] ++ more)

/-- The handler of `send_message_to_user`. -/
def sendMessageToUser (h : Host) (now : ℕ) (disk : Disk) (args : Value) (ctx : CallContext) :
    Disk × ToolResult :=
  match messageDraft h args ctx with
  | .error r => (disk, r)
  | .ok (target, draft) =>
    match send h now disk draft with
    | (disk, .error e) => (disk, caught h "invalid message: " e)
    | (disk, .ok sent) => (disk, sentResult h "Sent message to " target sent [])

/-! ### Asking for a review -/

/-- `_compose_review_body`. -/
def composeReviewBody (summary : Text) (repo branch prUrl : Option Text)
    (checklist : Option (List Text)) : Text :=
  let given (v : Option Text) := v.any (· ≠ [])
  let line (before : String) (v : Option Text) (after : String) : List Text :=
    if given v then [lit before ++ v.getD [] ++ lit after] else []
  let metaLines := line "**Repo:** " repo "" ++ line "**Branch:** `" branch "`" ++
    line "**PR / link:** " prUrl ""
  let clean := ((checklist.getD []).map strip).filter (· ≠ [])
  let parts := [strip summary] ++ (if metaLines = [] then [] else [joinLines metaLines]) ++
    (if clean = [] then [] else
      [lit "**Please check:**\n" ++ joinLines (clean.map (lit "- " ++ ·))])
  (lit "\n\n").intercalate parts

/-- `_compose_review_subject`. -/
def composeReviewSubject (summary : Text) (repo branch : Option Text) : Text :=
  let given (v : Option Text) := v.any (· ≠ [])
  if given repo && given branch then
    lit "Review: " ++ repo.getD [] ++ lit " / " ++ branch.getD []
  else if given repo then lit "Review: " ++ repo.getD []
  else
    let head := if strip summary = [] then lit "request"
      else (splitlines (strip summary)).head?.getD []
    lit "Review: " ++ if 60 < head.length then rstrip (head.take 57) ++ lit "..." else head

/-- An argument that has to be a string where it is given. -/
def stringArgument (args : Value) (key : String) : Except ToolResult (Option Text) :=
  match argument args key with
  | .none => .ok none
  | .str t => .ok (some t)
  | _ => .error (mcpError (lit key ++ lit " must be a string"))

/-- The `checklist` argument. -/
def checklistArgument (args : Value) : Except ToolResult (Option (List Text)) :=
  let refused := mcpError (lit "checklist must be an array of strings")
  match argument args "checklist" with
  | .none => .ok none
  | .list items =>
    match items.mapM fun | .str t => some t | _ => none with
    | some texts => .ok (some texts)
    | none => .error refused
  | _ => .error refused

/-- The draft `request_review` hands to `write_message`, with its urgency, or the error
before. -/
def reviewDraft (h : Host) (args : Value) (ctx : CallContext) :
    Except ToolResult (Text × Text × Except Failure Draft) := do
  let (target, summary) ← recipientAndText args ctx "summary" "missing or empty summary"
  let urgency := argument args "urgency" (.str (lit "normal"))
  let refused := mcpError (lit "invalid urgency " ++ h.repr urgency ++
    lit ": must be low / normal / high")
  let urgency ← match urgency with
    | .str u => if u ∈ priorities then .ok u else .error refused
    | _ => .error refused
  let checklist ← checklistArgument args
  let repo ← stringArgument args "repo"
  let branch ← stringArgument args "branch"
  let prUrl ← stringArgument args "pr_url"
  let subject := argument args "subject"
  let subject :=
    if subject.truthy then subject else .str (composeReviewSubject summary repo branch)
  return (target, urgency, draftOf h ctx target
    (composeReviewBody summary repo branch prUrl checklist) subject .none (.str urgency)
    (.str (lit "review-request")))

/-- The handler of `request_review`. -/
def requestReview (h : Host) (now : ℕ) (disk : Disk) (args : Value) (ctx : CallContext) :
    Disk × ToolResult :=
  match reviewDraft h args ctx with
  | .error r => (disk, r)
  | .ok (target, urgency, draft) =>
    match send h now disk draft with
    | (disk, .error e) => (disk, caught h "invalid message: " e)
    | (disk, .ok sent) => (disk, sentResult h "Review request sent to " target sent
        [("urgency", .str urgency), ("type", .str (lit "review-request"))])

/-! ### Reading -/

/-- `text or default`, of a text that may be missing. -/
def orElse (v : Option Text) (default : Text) : Text :=
  match v with
  | none => default
  | some t => if t = [] then default else t

/-- `_format_messages_text`. -/
def formatMessagesText (messages : List StoredMessage) (unreadOnly : Bool) : Text :=
  if messages = [] then
    lit (if unreadOnly then "No unread messages." else "No messages in inbox.")
  else
    let label := lit (if unreadOnly then "unread" else "total")
    let line (m : StoredMessage) : Text :=
      let who := orElse m.fromEmail (orElse (some m.fromUser) (lit "(unknown)"))
      let priority := orElse (some m.priority) (lit "normal")
      let tag := if priority = lit "normal" then [] else lit " [" ++ priority ++ lit "]"
      lit "  - " ++ orElse (some m.sentAt) (lit "?") ++ lit " from " ++ who ++ tag ++
        lit ": " ++ orElse (some m.subject) (lit "(no subject)")
    joinLines ((decimal messages.length ++ lit " " ++ label ++ lit " message(s):") ::
      messages.map line)

/-- A message as `check_messages` reports it. -/
def messageView (m : StoredMessage) : Value :=
  object [("message_id", .str m.id), ("from_user", .str m.fromUser),
    ("from_email", optional m.fromEmail), ("subject", .str m.subject), ("body", .str m.body),
    ("sent_at", .str m.sentAt), ("read_at", optional m.readAt),
    ("in_reply_to", optional m.inReplyTo), ("priority", .str m.priority),
    ("type", optional m.type)]

/-- The error of the tools that are about the caller's own inbox. -/
def identityRequired : ToolResult :=
  mcpError (lit "caller identity required (loopback bearer has no user identity)")

/-- The handler of `check_messages`. -/
def checkMessages (h : Host) (disk : Disk) (args : Value) (ctx : CallContext) : ToolResult :=
  let unreadOnly := (argument args "unread_only" (.bool true)).truthy
  let filter : Filter :=
    { unreadOnly, fromUser := argument args "from_user", since := argument args "since" }
  let list (limit : ℤ) : ToolResult :=
    match listMessages h disk ctx.userId filter limit with
    | .error e => caught h "" e
    | .ok messages =>
      { text := formatMessagesText messages unreadOnly
        structured := object [("messages", .list (messages.map messageView)),
          ("total", .int messages.length),
          ("oldest_unread_at", optional
            ((messages.reverse.find? (·.readAt.isNone)).map StoredMessage.sentAt))] }
  if ctx.userId = [] then identityRequired
  else
    match argument args "limit" (.int 50) with
    | .int limit => list limit
    | .bool limit => list (if limit then 1 else 0)
    | v => mcpError (lit "limit must be int, got " ++ v.typeName)

/-! ### Recent activity -/

/-- A session of the runner's snapshot. -/
structure Session where
  user : Option Text
  userId : Option Text
  repo : Option Text

/-- `counts[key] = counts.get(key, 0) + 1`. -/
def bump (counts : List (Text × ℕ)) (key : Text) : List (Text × ℕ) :=
  if key ∈ counts.map Prod.fst then
    counts.map fun (k, n) => if k = key then (k, n + 1) else (k, n)
  else counts ++ [(key, 1)]

/-- Counts as a `dict`. -/
def countsValue (counts : List (Text × ℕ)) : Value :=
  .dict (counts.map fun (k, n) => (.str k, .int n))

/-- `sorted(counts.items())`. -/
def sortedCounts (counts : List (Text × ℕ)) : List (Text × ℕ) :=
  counts.insertionSort fun a b => a.1 ≤ b.1

/-- The type of a message, in a summary. -/
def messageType (m : StoredMessage) : Text := orElse m.type (lit "chat")

/-- The priority of a message, in a summary. -/
def messagePriority (m : StoredMessage) : Text := orElse (some m.priority) (lit "normal")

/-- `_summarize_team_sessions`: the sessions of the others by repository. -/
def summarizeTeamSessions (sessions : List Session) (excludeUserId : Text) :
    List (Text × ℕ) :=
  let others := sessions.filter fun s =>
    ¬(excludeUserId ≠ [] ∧ (if s.user.any (· ≠ []) then s.user else s.userId) = some excludeUserId)
  (others.map fun s => orElse s.repo (lit "(unknown)")).foldl bump []

/-- `_format_recent_activity`. -/
def formatRecentActivity (hours : ℤ) (messages : List StoredMessage)
    (team : Option (List (Text × ℕ))) : Text :=
  let unread := (messages.filter (·.readAt.isNone)).length
  let inboxLine := lit "Inbox: " ++ decimal messages.length ++ lit " message(s)" ++
    if messages = [] then [] else lit " (" ++ decimal unread ++ lit " unread)"
  let byType := sortedCounts ((messages.map messageType).foldl bump [])
  let types := lit "  types: " ++
    (lit ", ").intercalate (byType.map fun (t, n) => decimal n ++ lit " " ++ t)
  let line (m : StoredMessage) : Text :=
    lit "  - [" ++ m.sentAt ++ lit "] " ++ m.fromUser ++ lit " — " ++
      orElse (some m.subject) (lit "(no subject)") ++ lit " [" ++ messagePriority m ++ lit ", " ++
      messageType m ++ lit ", " ++ lit (if m.readAt.any (· ≠ []) then "read" else "unread") ++
      lit "]"
  let more := if 10 < messages.length then
    [lit "  (... " ++ decimal (messages.length - 10) ++ lit " more)"] else []
  let inboxLines := if messages = [] then [] else
    types :: (messages.take 10).map line ++ more
  let teamLines := match team with
    | none => []
    | some byRepo => [[], lit "Team: " ++ decimal (byRepo.map Prod.snd).sum ++
        lit " active session(s) from others"] ++
        (sortedCounts byRepo).map fun (repo, n) => lit "  - " ++ repo ++ lit ": " ++ decimal n
  joinLines ([lit "Recent activity (last " ++ decimal hours.toNat ++ lit "h):", []] ++
    [inboxLine] ++ inboxLines ++ teamLines)

/-- A message as `get_recent_activity` reports it. -/
def activityView (m : StoredMessage) : Value :=
  object [("id", .str m.id), ("from_user", .str m.fromUser), ("subject", .str m.subject),
    ("type", .str (messageType m)), ("priority", .str (messagePriority m)),
    ("sent_at", .str m.sentAt), ("read", .bool m.readAt.isSome)]

/-- The handler of `get_recent_activity`. `sessions` is what the runner answers, or what
the handler says about its failure. -/
def getRecentActivity (h : Host) (now : ℕ) (sessions : Except Text (List Session))
    (disk : Disk) (args : Value) (ctx : CallContext) : ToolResult :=
  if ctx.userId = [] then identityRequired
  else
    match argument args "hours" (.int 24), argument args "limit" (.int 50) with
    | .int hours, limit =>
      if hours < 1 ∨ 168 < hours then mcpError (lit "hours must be 1..168 (max 1 week)")
      else
        match limit with
        | .int limit =>
          if limit < 1 ∨ 200 < limit then mcpError (lit "limit must be 1..200")
          else
            let since := (DateTime.ofTimestamp (now - 3600 * hours.toNat)).iso
            let filter : Filter :=
              { unreadOnly := false, fromUser := .none, since := .str since }
            match listMessages h disk ctx.userId filter limit with
            | .error e => caught h "inbox query failed: " e
            | .ok messages =>
              let included := (argument args "include_team_sessions" (.bool true)).truthy
              let team := if included then sessions.toOption.map fun sessions =>
                summarizeTeamSessions sessions ctx.userId else none
              let teamError := match included, sessions with
                | true, .error e => if e = [] then none else some e
                | _, _ => none
              { text := formatRecentActivity hours messages team ++
                  teamError.elim [] (lit "\n\nTeam snapshot unavailable: " ++ ·)
                structured := object ([("window_hours", .int hours), ("since", .str since),
                  ("user_id", .str ctx.userId),
                  ("inbox", object [("total", .int messages.length),
                    ("unread", .int (messages.filter (·.readAt.isNone)).length),
                    ("by_type", countsValue ((messages.map messageType).foldl bump [])),
                    ("by_priority", countsValue ((messages.map messagePriority).foldl bump [])),
                    ("messages", .list (messages.map activityView))])] ++
                  (team.elim [] fun byRepo => [("team", object
                    [("total", .int (byRepo.map Prod.snd).sum),
                      ("by_repo", countsValue byRepo)])]) ++
                  teamError.elim [] fun e => [("team_error", .str e)]) }
        | _ => mcpError (lit "limit must be a positive integer")
    | _, _ => mcpError (lit "hours must be a positive integer")

/-! ### Marking -/

/-- What `mark_message_read` reports. -/
def markedResult (h : Host) (messageId : Text) (markAll : Bool) :
    Except Failure ℕ → ToolResult
  | .error e => mcpError (lit "mark_read failed: " ++ e.message h)
  | .ok count =>
    { text :=
        if count = 0 then lit "No change: message " ++ h.repr (.str messageId) ++
          lit " is already read or does not exist."
        else if markAll then lit "Marked " ++ decimal count ++
          lit " message(s) read (up through " ++ messageId ++ lit ")."
        else lit "Marked message " ++ h.repr (.str messageId) ++ lit " read."
      structured := object [("marked", .int count), ("message_id", .str messageId)] }

/-- The handler of `mark_message_read`. -/
def markMessageRead (h : Host) (now : ℕ) (disk : Disk) (args : Value) (ctx : CallContext) :
    Disk × ToolResult :=
  if ctx.userId = [] then (disk, identityRequired)
  else
    match argument args "message_id" with
    | .str messageId =>
      if messageId = [] then (disk, mcpError (lit "missing or invalid message_id"))
      else
        let markAll := (argument args "mark_all_before" (.bool false)).truthy
        let (disk, count) := markRead h now disk ctx.userId messageId markAll
        (disk, markedResult h messageId markAll count)
    | _ => (disk, mcpError (lit "missing or invalid message_id"))

/-! ### All of them -/

/-- The tools over the inboxes. -/
inductive Tool
  | sendMessageToUser
  | requestReview
  | checkMessages
  | markMessageRead
  | getRecentActivity

/-- A call of a tool. -/
structure ToolCall where
  tool : Tool
  args : Value
  ctx : CallContext
  /-- The clock, in seconds since 1970. -/
  now : ℕ
  /-- What the runner answers `get_recent_activity`. -/
  sessions : Except Text (List Session)

/-- What a call does to the disk, and its result. -/
def ToolCall.run (h : Host) (disk : Disk) (c : ToolCall) : Disk × ToolResult :=
  match c.tool with
  | .sendMessageToUser => sendMessageToUser h c.now disk c.args c.ctx
  | .requestReview => requestReview h c.now disk c.args c.ctx
  | .checkMessages => (disk, checkMessages h disk c.args c.ctx)
  | .markMessageRead => markMessageRead h c.now disk c.args c.ctx
  | .getRecentActivity =>
    (disk, getRecentActivity h c.now c.sessions disk c.args c.ctx)

end Inbox

end OtamanBridge
