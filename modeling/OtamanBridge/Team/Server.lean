import OtamanBridge.Team.Sessions

/-!
# The server of the bridge

`McpDispatchService`: the server with the two tools over the runner's sessions and the five over
the inboxes. Of these `get_recent_activity` asks the runner for its sessions too, once all its
arguments are in order.

A server wants to know that its tools answer with JSON. The tools over the inboxes do, for what
they report are texts and numbers, and objects and lists of such.
-/

namespace OtamanBridge

namespace Team

open Py

open Value (field isDict isJson ofFields)

open Http.Mcp (Outcome noGet)

open Inbox (Disk ToolResult argument)

variable {ρ : Type*} (b : Bridge ρ)

/-! ### Recent activity -/

/-- A text, if it is one. -/
def textOf : Value → Option Text
  | .str t => some t
  | _ => none

/-- The session, as `_summarize_team_sessions` looks at it. -/
def snapshotOf (s : Value) : Inbox.Session where
  user := textOf (field s "user")
  userId := textOf (field s "user_id")
  repo := textOf (field s "repo")

/-- The snapshot, unless one of the sessions is no object. -/
def snapshot (raw : List Value) : Except Text (List Inbox.Session) :=
  match raw.find? fun s => ¬isDict s with
  | none => .ok (raw.map snapshotOf)
  | some s => .error (lit "runner error: " ++ noGet s)

/-- What `get_recent_activity` says about a failure of the client. -/
def activityError : Failure → Text
  | .unreachable m => (runnerFeatureUnavailableText b "The team activity snapshot").getD
      (lit "runner unreachable: " ++ m)
  | .auth m => lit "runner auth failed: " ++ m
  | .notFound m | .value m | .other m => lit "runner error: " ++ m

/-- `get_recent_activity` comes to ask the runner. -/
def wantsSessions (args : Value) (ctx : CallContext) (w : World ρ) : Bool :=
  match argument args "hours" (.int 24), argument args "limit" (.int 50) with
  | .int hours, .int limit =>
    ctx.userId ≠ [] && 1 ≤ hours && hours ≤ 168 && 1 ≤ limit && limit ≤ 200 &&
      (Inbox.listMessages b.host w.disk ctx.userId
        { unreadOnly := false, fromUser := .none,
          since := .str (DateTime.ofTimestamp (w.clock - 3600 * hours.toNat)).iso }
        limit).toOption.isSome &&
      (argument args "include_team_sessions" (.bool true)).truthy
  | _, _ => false

/-- What it is answered. -/
def activitySessions (args : Value) (ctx : CallContext) (w : World ρ) :
    World ρ × Except Text (List Inbox.Session) :=
  if wantsSessions b args ctx w then
    let out := listSessions b w
    (out.1, match out.2 with
      | .error f => .error (activityError b f)
      | .ok raw => snapshot raw)
  else (w, .error [])

/-! ### The tools over the inboxes -/

/-- The result of a tool, as the server takes it. -/
def outcomeOf (r : ToolResult) : Outcome :=
  if r.isError then mcpError r.text else success r.text r.structured

/-- The call of a tool over the inboxes. -/
def inboxCall (tool : Inbox.Tool) (args : Value) (ctx : CallContext) (w : World ρ)
    (sessions : Except Text (List Inbox.Session)) : World ρ × Outcome :=
  let out := Inbox.ToolCall.run b.host w.disk ⟨tool, args, ctx, w.clock, sessions⟩
  ({ w with disk := out.1 }, outcomeOf out.2)

/-- The handler of a tool over the inboxes. -/
def inboxHandler (tool : Inbox.Tool) (args : Value) (ctx : CallContext) (w : World ρ) :
    World ρ × Outcome :=
  match tool with
  | .getRecentActivity =>
    let out := activitySessions b args ctx w
    inboxCall b tool args ctx out.1 out.2
  | _ => inboxCall b tool args ctx w (.error [])

section Json

open Inbox

theorem isJson_object {items : List (String × Value)} :
    (object items).isJson ↔ ∀ kv ∈ items, kv.2.isJson := Value.isJson_ofFields

/-- A text that may be missing is JSON. -/
theorem isJson_optional (t : Option Text) : (Inbox.optional t).isJson := isJson_elim t

/-- An error result. -/
def IsError (r : ToolResult) : Prop := ∃ m, r = Inbox.mcpError m

theorem IsError.isJson {r : ToolResult} (h : IsError r) : r.structured.isJson := by
  obtain ⟨m, rfl⟩ := h
  rfl

theorem isError_toolError (h : Host) (e : Inbox.Failure) : IsError (toolError h e) := ⟨_, rfl⟩

theorem isError_caught (h : Host) (before : String) (e : Inbox.Failure) :
    IsError (caught h before e) := by
  unfold caught
  split_ifs
  · exact ⟨_, rfl⟩
  · exact isError_toolError h e

variable {h : Host} {args : Value} {ctx : CallContext} {r : ToolResult}

theorem isError_of_recipientAndText {key missing : String}
    (he : recipientAndText args ctx key missing = .error r) : IsError r := by
  unfold recipientAndText at he
  split at he
  · split at he
    · exact ⟨_, (Except.error.inj he).symm⟩
    · split at he
      · split at he
        · exact ⟨_, (Except.error.inj he).symm⟩
        · split at he
          · exact ⟨_, (Except.error.inj he).symm⟩
          · cases he
      · exact ⟨_, (Except.error.inj he).symm⟩
  · exact ⟨_, (Except.error.inj he).symm⟩

theorem isError_of_stringArgument {key : String} (he : stringArgument args key = .error r) :
    IsError r := by
  unfold stringArgument at he
  split at he
  · cases he
  · cases he
  · exact ⟨_, (Except.error.inj he).symm⟩

theorem isError_of_checklistArgument (he : checklistArgument args = .error r) : IsError r := by
  unfold checklistArgument at he
  split at he
  · cases he
  · split at he
    · cases he
    · exact ⟨_, (Except.error.inj he).symm⟩
  · exact ⟨_, (Except.error.inj he).symm⟩

theorem isError_of_reviewDraft (he : reviewDraft h args ctx = .error r) : IsError r := by
  unfold reviewDraft at he
  simp only [bind, Except.bind] at he
  split at he
  · next e hcheck =>
    obtain rfl := Except.error.inj he
    exact isError_of_recipientAndText hcheck
  · split at he
    · split at he
      · split at he
        · next e hcheck =>
          obtain rfl := Except.error.inj he
          exact isError_of_checklistArgument hcheck
        · split at he
          · next e hcheck =>
            obtain rfl := Except.error.inj he
            exact isError_of_stringArgument hcheck
          · split at he
            · next e hcheck =>
              obtain rfl := Except.error.inj he
              exact isError_of_stringArgument hcheck
            · split at he
              · next e hcheck =>
                obtain rfl := Except.error.inj he
                exact isError_of_stringArgument hcheck
              · cases he
      · exact ⟨_, (Except.error.inj he).symm⟩
    · exact ⟨_, (Except.error.inj he).symm⟩

theorem isJson_sentResult {before : String} {target : Text} {sent : StoredMessage}
    {more : List (String × Value)} (hmore : ∀ kv ∈ more, kv.2.isJson) :
    (sentResult h before target sent more).structured.isJson := by
  refine isJson_object.mpr fun kv hkv => ?_
  rcases List.mem_append.mp hkv with hkv | hkv
  · simp only [List.mem_cons, List.not_mem_nil, or_false] at hkv
    rcases hkv with rfl | rfl | rfl | rfl <;> rfl
  · exact hmore kv hkv

theorem isJson_sendMessageToUser (now : ℕ) (disk : Disk) :
    (sendMessageToUser h now disk args ctx).2.structured.isJson := by
  unfold sendMessageToUser
  split
  · next e hdraft =>
    unfold messageDraft at hdraft
    rcases hcheck : recipientAndText args ctx "body" "missing or empty body" with e' | target
    · rw [hcheck] at hdraft
      obtain rfl := Except.error.inj hdraft
      exact (isError_of_recipientAndText hcheck).isJson
    · rw [hcheck] at hdraft
      cases hdraft
  · split
    · exact (isError_caught h _ _).isJson
    · exact isJson_sentResult (List.forall_mem_nil _)

theorem isJson_requestReview (now : ℕ) (disk : Disk) :
    (requestReview h now disk args ctx).2.structured.isJson := by
  unfold requestReview
  split
  · next e hdraft => exact (isError_of_reviewDraft hdraft).isJson
  · split
    · exact (isError_caught h _ _).isJson
    · exact isJson_sentResult (List.forall_mem_cons.mpr
        ⟨rfl, List.forall_mem_singleton.mpr rfl⟩)

theorem isJson_messageView (m : StoredMessage) : (messageView m).isJson := by
  refine isJson_object.mpr fun kv hkv => ?_
  simp only [List.mem_cons, List.not_mem_nil, or_false] at hkv
  rcases hkv with rfl | rfl | rfl | rfl | rfl | rfl | rfl | rfl | rfl | rfl
  all_goals first | rfl | exact isJson_optional _

theorem isJson_listed (messages : List StoredMessage) :
    (object [("messages", .list (messages.map messageView)), ("total", .int messages.length),
      ("oldest_unread_at", Inbox.optional
        ((messages.reverse.find? (·.readAt.isNone)).map StoredMessage.sentAt))]).isJson := by
  refine isJson_object.mpr (List.forall_mem_cons.mpr ⟨Value.allJson_iff.mpr ?_,
    List.forall_mem_cons.mpr ⟨rfl, List.forall_mem_singleton.mpr (isJson_optional _)⟩⟩)
  intro v hv
  obtain ⟨m, -, rfl⟩ := List.mem_map.mp hv
  exact isJson_messageView m

theorem isJson_checkMessages (disk : Disk) :
    (checkMessages h disk args ctx).structured.isJson := by
  unfold checkMessages
  dsimp only
  split
  · rfl
  · split
    · split
      · exact (isError_caught h _ _).isJson
      · exact isJson_listed _
    · split
      · exact (isError_caught h _ _).isJson
      · exact isJson_listed _
    · rfl

theorem isJson_countsValue (counts : List (Text × ℕ)) : (countsValue counts).isJson := by
  refine Value.fieldsJson_iff.mpr fun kv hkv => ?_
  obtain ⟨count, -, rfl⟩ := List.mem_map.mp hkv
  exact ⟨rfl, rfl⟩

/-- What is reported of the inbox. -/
theorem isJson_inboxSummary (messages : List StoredMessage) :
    (object [("total", .int messages.length),
      ("unread", .int (messages.filter (·.readAt.isNone)).length),
      ("by_type", countsValue ((messages.map messageType).foldl bump [])),
      ("by_priority", countsValue ((messages.map messagePriority).foldl bump [])),
      ("messages", .list (messages.map activityView))]).isJson := by
  refine isJson_object.mpr fun kv hkv => ?_
  simp only [List.mem_cons, List.not_mem_nil, or_false] at hkv
  rcases hkv with rfl | rfl | rfl | rfl | rfl
  · rfl
  · rfl
  · exact isJson_countsValue _
  · exact isJson_countsValue _
  · refine Value.allJson_iff.mpr fun v hv => ?_
    obtain ⟨m, -, rfl⟩ := List.mem_map.mp hv
    rfl

/-- What is reported of the team. -/
theorem isJson_teamSummary {team : Option (List (Text × ℕ))} {kv : String × Value}
    (hkv : kv ∈ team.elim [] fun byRepo => [("team", object
      [("total", .int (byRepo.map Prod.snd).sum), ("by_repo", countsValue byRepo)])]) :
    kv.2.isJson := by
  rcases team with _ | byRepo
  · cases hkv
  · obtain rfl := List.mem_singleton.mp hkv
    exact isJson_object.mpr (List.forall_mem_cons.mpr
      ⟨rfl, List.forall_mem_singleton.mpr (isJson_countsValue byRepo)⟩)

theorem isJson_teamError {error : Option Text} {kv : String × Value}
    (hkv : kv ∈ error.elim [] fun e => [("team_error", .str e)]) : kv.2.isJson := by
  rcases error with _ | e
  · cases hkv
  · obtain rfl := List.mem_singleton.mp hkv
    rfl

theorem isJson_getRecentActivity (now : ℕ) (sessions : Except Text (List Session)) (disk : Disk) :
    (getRecentActivity h now sessions disk args ctx).structured.isJson := by
  unfold getRecentActivity
  split
  · rfl
  · split
    · split
      · rfl
      · split
        · split
          · rfl
          · dsimp only
            split
            · exact (isError_caught h _ _).isJson
            · refine isJson_object.mpr fun kv hkv => ?_
              rcases List.mem_append.mp hkv with hkv | hkv
              · rcases List.mem_append.mp hkv with hkv | hkv
                · simp only [List.mem_cons, List.not_mem_nil, or_false] at hkv
                  rcases hkv with rfl | rfl | rfl | rfl
                  · rfl
                  · rfl
                  · rfl
                  · exact isJson_inboxSummary _
                · exact isJson_teamSummary hkv
              · exact isJson_teamError hkv
        · rfl
    · rfl

theorem isJson_markMessageRead (now : ℕ) (disk : Disk) :
    (markMessageRead h now disk args ctx).2.structured.isJson := by
  unfold markMessageRead
  split
  · rfl
  · split
    · split
      · rfl
      · dsimp only
        unfold markedResult
        split
        · rfl
        · rfl
    · rfl

/-- **What a tool over the inboxes reports is JSON.** -/
theorem isJson_run (disk : Disk) (c : ToolCall) : (c.run h disk).2.structured.isJson := by
  rcases c with ⟨tool, args, ctx, now, sessions⟩
  cases tool with
  | sendMessageToUser => exact isJson_sendMessageToUser now disk
  | requestReview => exact isJson_requestReview now disk
  | checkMessages => exact isJson_checkMessages disk
  | markMessageRead => exact isJson_markMessageRead now disk
  | getRecentActivity => exact isJson_getRecentActivity now sessions disk

end Json

theorem inboxHandler_isJson (tool : Inbox.Tool) (args : Value) (ctx : CallContext)
    (w : World ρ) : (inboxHandler b tool args ctx w).2.IsJson := by
  have hcall : ∀ (w : World ρ) sessions, (inboxCall b tool args ctx w sessions).2.IsJson := by
    intro w sessions
    unfold inboxCall outcomeOf
    dsimp only
    split_ifs
    · exact mcpError_isJson _
    · exact success_isJson _ (isJson_run _ _)
  cases tool <;> exact hcall _ _

/-! ### The server -/

/-- A tool with this name and handler. -/
def toolOf (name : String) (handler : Value → CallContext → World ρ → World ρ × Outcome)
    (h : ∀ args ctx w, (handler args ctx w).2.IsJson) : Http.Mcp.Tool (World ρ) where
  name := lit name
  description := b.description (lit name)
  inputSchema := b.schema (lit name)
  handler := handler
  schema_json := b.schema_json (lit name)
  handler_json := h

/-- `build_list_team_sessions_tool`. -/
def listTool : Http.Mcp.Tool (World ρ) :=
  toolOf b "list_team_sessions" (listTeamSessions b) (listTeamSessions_isJson)

/-- `build_kill_session_for_user_tool`, or `build_kill_session_for_user_tool_admin`. -/
def killTool : Http.Mcp.Tool (World ρ) :=
  toolOf b "kill_session_for_user" (killSessionForUser b) (killSessionForUser_isJson)

/-- The builders of the tools over the inboxes. -/
def inboxTool (name : String) (tool : Inbox.Tool) : Http.Mcp.Tool (World ρ) :=
  toolOf b name (inboxHandler b tool) (inboxHandler_isJson b tool)

/-- `McpDispatchService`: the tools in the order of their registration. -/
def server : Http.Mcp.Server (World ρ) where
  serverName := lit "otaman-bridge"
  serverVersion := lit "0.1.0"
  tools := (if b.auth.cookie.isSome then [listTool b] else []) ++
    [inboxTool b "send_message_to_user" .sendMessageToUser,
      inboxTool b "check_messages" .checkMessages,
      inboxTool b "mark_message_read" .markMessageRead,
      inboxTool b "request_review" .requestReview,
      inboxTool b "get_recent_activity" .getRecentActivity, killTool b]
  repr := fun t => b.host.repr (.str t)

end Team

end OtamanBridge
