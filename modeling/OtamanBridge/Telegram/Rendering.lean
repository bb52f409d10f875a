import OtamanBridge.Telegram.Cards

/-!
# The texts of cards and messages

The renderers of the transport, and the view that a tap on Details opens. Telegram takes 4096
characters at most. What a tool is given is cut to 200 characters on a card and to 3500 in
the Details view, and the body of a bus message to 800; a project, an agent, the name of a
tool, a subject and a reason go into the texts as they are. So each text is within the
limit exactly if these are short enough, and `OtamanBridge.Telegram.texts_fit_iff` says how
short that is.
-/

namespace OtamanBridge

namespace Telegram

open Py Bus

/-! ### The renderers -/

/-- `_truncate`, of a text. -/
def truncate (t : Text) (maxLen : ℕ) : Text :=
  if t.length ≤ maxLen then t else t.take (maxLen - 1) ++ lit "…"

/-- `_SEVERITY_EMOJI`. -/
def severityEmoji : Severity → Text
  | .info => lit "🟢"
  | .approval => lit "🟡"
  | .blocking => lit "🔴"

section

variable (py : Python)

/-- `f"{_truncate(cmd, max_len)}"`: a collection is only counted and then shown whole, and
anything else that is no text raises. -/
def truncateValue (maxLen : ℕ) : Value → Option Text
  | .str t => some (truncate t maxLen)
  | .list items => if items.length ≤ maxLen then some (py.text (.list items)) else none
  | .dict items => if items.length ≤ maxLen then some (py.text (.dict items)) else none
  | _ => none

/-- The line about the input, without a command. -/
def inputLine (toolInput : Value) : List Text :=
  if toolInput.truthy then [lit "Input: " ++ truncate (py.text toolInput) 200] else []

/-- The line about the command, or the input. -/
def commandLine (toolInput : Value) : Option (List Text) :=
  match toolInput.get "command" with
  | some cmd =>
    if cmd.truthy then (truncateValue py 200 cmd).map fun t => [lit "Command: " ++ t]
    else some (inputLine py toolInput)
  | none => some (inputLine py toolInput)

/-- The line about the reason, if there is one. -/
def reasonLine (reason : Text) : List Text :=
  if reason = [] then [] else [lit "Reason: " ++ reason]

/-- `_format_approval`. -/
def formatApproval (req : ApprovalRequest) : Option Text :=
  (commandLine py req.toolInput).map fun lines => joinLines
    ([lit "🟡 [" ++ req.project ++ lit "] " ++ req.repo ++ lit " · " ++ req.agent,
        lit "Tool: " ++ req.toolName] ++ (lines ++ reasonLine req.reason))

/-- `_format_info`. -/
def formatInfo (msg : InfoMessage) : Text :=
  let header := severityEmoji msg.severity ++ lit " [" ++ msg.project ++ lit "] " ++ msg.title
  if msg.body = [] then header else header ++ lit "\n" ++ msg.body

/-- The payload of `_surface_details`, cut to 3500 characters. -/
def detailsPayload (toolInput : Value) : Text :=
  let payload := (py.dumps toolInput).getD (py.repr toolInput)
  if 3500 < payload.length then
    payload.take 3500 ++ lit "\n… (truncated to fit Telegram limit)"
  else payload

/-- The message of `_surface_details` about a request. -/
def detailsMessage (req : ApprovalRequest) : InfoMessage where
  account := req.account
  project := req.project
  severity := .info
  title := lit "Details · " ++ req.toolName ++ lit " · " ++ req.repo
  body := joinLines
    ([lit "Tool: " ++ req.toolName, lit "Agent: " ++ req.agent, lit "Repo: " ++ req.repo] ++
      (reasonLine req.reason ++
        [[], lit "Input:", lit "```", detailsPayload py req.toolInput, lit "```"]))
  sourceAgent := req.agent
  busMessageId := req.requestId

/-- `_surface_details`: the tool call that is pending under the id, or the bus card. -/
def surfaceDetails (pending busPending : Option ApprovalRequest) : Option InfoMessage :=
  (pending.or busPending).map (detailsMessage py)

/-! ### How long the fields are -/

/-- How many characters are left of a text that is cut to 200. -/
def cutSize (t : Text) : ℕ := min t.length 200

/-- What the line about the input adds. -/
def inputSize (toolInput : Value) : ℕ :=
  if toolInput.truthy then 8 + cutSize (py.text toolInput) else 0

/-- What the line about the command or the input adds, if the command can be shown. -/
def commandSize (toolInput : Value) : Option ℕ :=
  match toolInput.get "command" with
  | some (.str t) => some (if t = [] then inputSize py toolInput else 10 + cutSize t)
  | some (.list items) =>
    if items = [] then some (inputSize py toolInput)
    else if items.length ≤ 200 then some (10 + (py.text (.list items)).length)
    else none
  | some (.dict items) =>
    if items = [] then some (inputSize py toolInput)
    else if items.length ≤ 200 then some (10 + (py.text (.dict items)).length)
    else none
  | some v => if v.truthy then none else some (inputSize py toolInput)
  | none => some (inputSize py toolInput)

/-- What the line about the reason adds. -/
def reasonSize (reason : Text) : ℕ := if reason = [] then 0 else 9 + reason.length

/-- The fields of an approval card, without the line about its input. -/
def approvalSize (req : ApprovalRequest) : ℕ :=
  15 + req.project.length + req.repo.length + req.agent.length + req.toolName.length +
    reasonSize req.reason

/-- The fields of the card of a bus message. -/
def busCardSize (m : BusMessage) (project : Text) : ℕ :=
  36 + project.length + (m.to_ py.toPython).length + (m.from_ py.toPython).length +
    (m.type py.toPython).length + (orText (m.subject py.toPython)
      (m.type py.toPython ++ lit " from " ++ m.from_ py.toPython)).length +
    cutSize (py.text (.dict (busInput py.toPython m)))

/-- What the lines of an info message add: the subject, a priority, and the body, which is
cut to 800 characters and a note of 14. -/
def infoBodySize (py : Bus.Python) (m : BusMessage) : ℕ :=
  (if m.subject py = [] then 0 else 5 + (m.subject py).length) +
    (if m.priority py ≠ [] ∧ m.priority py ≠ lit "normal" then 11 + (m.priority py).length
      else 0) +
    (if strip m.body = [] then 0
      else if 800 < (strip m.body).length then 816 else 2 + (strip m.body).length)

/-- The fields of an info message about a bus message. -/
def infoSize (py : Bus.Python) (m : BusMessage) (project : Text) : ℕ :=
  13 + project.length + (m.from_ py).length + (m.to_ py).length + (m.type py).length +
    infoBodySize py m

/-- What is left of the payload in the Details view. -/
def payloadSize (toolInput : Value) : ℕ :=
  let payload := (py.dumps toolInput).getD (py.repr toolInput)
  if 3500 < payload.length then 3536 else payload.length

/-- The fields of a Details view, which shows the tool and the repository twice. -/
def detailsSize (req : ApprovalRequest) : ℕ :=
  57 + req.project.length + 2 * req.toolName.length + 2 * req.repo.length + req.agent.length +
    reasonSize req.reason + payloadSize py req.toolInput

end

/-! ### The lengths of the texts -/

variable {py : Python}

theorem length_truncate (t : Text) : (truncate t 200).length = cutSize t := by
  have hdots : (lit "…").length = 1 := by decide
  unfold truncate cutSize
  split_ifs with h
  · omega
  · rw [List.length_append, List.length_take, hdots]
    omega

/-- The room that lines need, with a newline before each. -/
def room (lines : List Text) : ℕ := (lines.map fun l => l.length + 1).sum

theorem room_append (ls ms : List Text) : room (ls ++ ms) = room ls + room ms := by
  simp [room]

@[simp] theorem room_nil : room [] = 0 := rfl

theorem room_cons (l : Text) (ls : List Text) : room (l :: ls) = l.length + 1 + room ls := by
  simp [room]

theorem room_inputLine (v : Value) : room (inputLine py v) = inputSize py v := by
  have hlabel : (lit "Input: ").length = 7 := by decide
  unfold inputLine inputSize
  split_ifs
  · rw [room_cons, List.length_append, hlabel, length_truncate, room_nil]
    omega
  · rfl

/-- **The line about the input** needs the room that is counted for it, and cannot be made
where nothing is counted. -/
theorem room_commandLine (v : Value) : (commandLine py v).map room = commandSize py v := by
  have hlabel : (lit "Command: ").length = 9 := by decide
  have hroom : ∀ t, room [lit "Command: " ++ t] = 10 + t.length := by
    intro t
    rw [room_cons, List.length_append, hlabel, room_nil]
    omega
  unfold commandLine commandSize
  rcases v.get "command" with _ | cmd
  · exact congrArg some (room_inputLine v)
  · cases cmd with
    | none => exact congrArg some (room_inputLine v)
    | str t =>
      by_cases ht : t = []
      · simp [Value.truthy, ht, room_inputLine]
      · simp [Value.truthy, ht, truncateValue, hroom, length_truncate]
    | list items =>
      by_cases hitems : items = []
      · simp [Value.truthy, hitems, room_inputLine]
      · by_cases hlen : items.length ≤ 200
        · simp [Value.truthy, hitems, truncateValue, hlen, hroom]
        · simp [Value.truthy, hitems, truncateValue, hlen]
    | dict items =>
      by_cases hitems : items = []
      · simp [Value.truthy, hitems, room_inputLine]
      · by_cases hlen : items.length ≤ 200
        · simp [Value.truthy, hitems, truncateValue, hlen, hroom]
        · simp [Value.truthy, hitems, truncateValue, hlen]
    | bool b => cases b <;> simp [Value.truthy, truncateValue, room_inputLine]
    | int n =>
      by_cases hn : n = 0
      · simp [Value.truthy, hn, room_inputLine]
      · simp [Value.truthy, hn, truncateValue]
    | float repr =>
      by_cases hzero : (Value.float repr).truthy
      · simp [hzero, truncateValue]
      · simp [hzero, room_inputLine]
    | date type str => simp [Value.truthy, truncateValue]

theorem room_reasonLine (reason : Text) : room (reasonLine reason) = reasonSize reason := by
  have hlabel : (lit "Reason: ").length = 8 := by decide
  unfold reasonLine reasonSize
  split_ifs
  · rfl
  · rw [room_cons, List.length_append, hlabel, room_nil]
    omega

/-- Joined lines need one place less: there is no newline before the first. -/
theorem length_joinLines_add_one (ls : List Text) (h : ls ≠ []) :
    (joinLines ls).length + 1 = room ls :=
  length_joinLines h

/-- **The length of an approval card.** -/
theorem length_formatApproval (py : Python) (req : ApprovalRequest) :
    (formatApproval py req).map List.length =
      (commandSize py req.toolInput).map (approvalSize req + ·) := by
  have h1 : (lit "🟡 [").length = 3 := by decide
  have h2 : (lit "] ").length = 2 := by decide
  have h3 : (lit " · ").length = 3 := by decide
  have h4 : (lit "Tool: ").length = 6 := by decide
  rw [formatApproval, ← room_commandLine, Option.map_map, Option.map_map]
  refine congrArg (Option.map · _) (funext fun lines => ?_)
  have hjoin := length_joinLines_add_one ([lit "🟡 [" ++ req.project ++ lit "] " ++
    req.repo ++ lit " · " ++ req.agent, lit "Tool: " ++ req.toolName] ++
      (lines ++ reasonLine req.reason)) (by simp)
  rw [room_append, room_append, room_reasonLine, room_cons, room_cons, room_nil] at hjoin
  simp only [List.length_append, h1, h2, h3, h4] at hjoin
  simp only [Function.comp_apply, approvalSize]
  omega

/-- **The length of an info message** with a body of such lines; every emoji is one
character. -/
theorem length_formatInfo {msg : InfoMessage} {ls : List Text} (hbody : msg.body = joinLines ls)
    (hne : room ls ≠ 1) :
    (formatInfo msg).length = 5 + msg.project.length + msg.title.length + room ls := by
  have hemoji : (severityEmoji msg.severity).length = 1 := by
    cases msg.severity <;> decide
  have h1 : (lit " [").length = 2 := by decide
  have h2 : (lit "] ").length = 2 := by decide
  have h3 : (lit "\n").length = 1 := by decide
  rcases eq_or_ne ls [] with rfl | hls
  · have hnil : msg.body = [] := hbody
    simp only [formatInfo, if_pos hnil, List.length_append, hemoji, h1, h2, room_nil]
    omega
  · have hlen := length_joinLines_add_one ls hls
    rw [← hbody] at hlen
    have hnil : msg.body ≠ [] := by
      rw [← List.length_pos_iff]
      omega
    simp only [formatInfo, if_neg hnil, List.length_append, hemoji, h1, h2, h3]
    omega

theorem room_subjectLines (py : Bus.Python) (m : BusMessage) :
    room (subjectLines py m) = if m.subject py = [] then 0 else 5 + (m.subject py).length := by
  have hstars : (lit "**").length = 2 := by decide
  unfold subjectLines
  split_ifs
  · rfl
  · rw [room_cons, List.length_append, List.length_append, hstars, room_nil]
    omega

theorem room_priorityLines (py : Bus.Python) (m : BusMessage) :
    room (priorityLines py m) =
      if m.priority py ≠ [] ∧ m.priority py ≠ lit "normal" then 11 + (m.priority py).length
      else 0 := by
  have hlabel : (lit "Priority: ").length = 10 := by decide
  unfold priorityLines
  split_ifs
  · rw [room_cons, List.length_append, hlabel, room_nil]
    omega
  · rfl

theorem room_bodyLines (m : BusMessage) :
    room (bodyLines m) = if strip m.body = [] then 0
      else if 800 < (strip m.body).length then 816 else 2 + (strip m.body).length := by
  have hdots : (lit "\n… (truncated)").length = 14 := by decide
  by_cases hlong : 800 < (strip m.body).length
  · have hlen : (shortBody m).length = 814 := by
      rw [shortBody, if_pos hlong, List.length_append, List.length_take, hdots]
      omega
    have hbody : strip m.body ≠ [] := by
      rintro hnil
      rw [hnil, List.length_nil] at hlong
      omega
    have hshort : shortBody m ≠ [] := by
      rintro hnil
      rw [hnil, List.length_nil] at hlen
      omega
    rw [bodyLines, if_neg hshort, if_neg hbody, if_pos hlong, room_cons, room_cons, room_nil,
      hlen, List.length_nil]
  · have hshort : shortBody m = strip m.body := if_neg hlong
    rw [bodyLines, hshort]
    by_cases hbody : strip m.body = []
    · rw [if_pos hbody, if_pos hbody, room_nil]
    · rw [if_neg hbody, if_neg hbody, if_neg hlong, room_cons, room_cons, room_nil,
        List.length_nil]
      omega

/-- **The length of an info message** about a bus message. -/
theorem length_infoMessage (py : Bus.Python) (m : BusMessage) (account project : Text)
    (severity : Severity) :
    (formatInfo (buildInfoMessage py m account project severity)).length =
      infoSize py m project := by
  have h1 : (lit "🟢 [").length = 3 := by decide
  have h2 : (lit " → ").length = 3 := by decide
  have h3 : (lit "] ").length = 2 := by decide
  have hroom : room (subjectLines py m ++ priorityLines py m ++ bodyLines m) =
      infoBodySize py m := by
    rw [room_append, room_append, room_subjectLines, room_priorityLines, room_bodyLines,
      infoBodySize]
  have hne : room (subjectLines py m ++ priorityLines py m ++ bodyLines m) ≠ 1 := by
    rw [hroom, infoBodySize]
    split_ifs <;> omega
  have htitle : (formatInfoTitle py m).length =
      8 + (m.from_ py).length + (m.to_ py).length + (m.type py).length := by
    simp only [formatInfoTitle, List.length_append, h1, h2, h3]
    omega
  have hlen := length_formatInfo (show (buildInfoMessage py m account project severity).body = _
    from rfl) hne
  have hproject : (buildInfoMessage py m account project severity).project = project := rfl
  have htext : (buildInfoMessage py m account project severity).title = formatInfoTitle py m := rfl
  rw [hlen, hroom, hproject, htext, htitle, infoSize]
  omega

theorem length_detailsPayload (v : Value) :
    (detailsPayload py v).length = payloadSize py v := by
  have hdots : (lit "\n… (truncated to fit Telegram limit)").length = 36 := by decide
  simp only [detailsPayload, payloadSize]
  split_ifs
  · rw [List.length_append, List.length_take, hdots]
    omega
  · rfl

/-- **The length of a Details view.** -/
theorem length_detailsMessage (req : ApprovalRequest) :
    (formatInfo (detailsMessage py req)).length = detailsSize py req := by
  have h1 : (lit "Tool: ").length = 6 := by decide
  have h2 : (lit "Agent: ").length = 7 := by decide
  have h3 : (lit "Repo: ").length = 6 := by decide
  have h4 : (lit "Input:").length = 6 := by decide
  have h5 : (lit "```").length = 3 := by decide
  have h6 : (lit "Details · ").length = 10 := by decide
  have h7 : (lit " · ").length = 3 := by decide
  have hroom : room ([lit "Tool: " ++ req.toolName, lit "Agent: " ++ req.agent,
      lit "Repo: " ++ req.repo] ++ (reasonLine req.reason ++ [[], lit "Input:", lit "```",
        detailsPayload py req.toolInput, lit "```"])) =
      39 + req.toolName.length + req.agent.length + req.repo.length + reasonSize req.reason +
        payloadSize py req.toolInput := by
    simp only [room_append, room_cons, room_nil, room_reasonLine, length_detailsPayload,
      List.length_append, h1, h2, h3, h4, h5, List.length_nil]
    omega
  have hne : room ([lit "Tool: " ++ req.toolName, lit "Agent: " ++ req.agent,
      lit "Repo: " ++ req.repo] ++ (reasonLine req.reason ++ [[], lit "Input:", lit "```",
        detailsPayload py req.toolInput, lit "```"])) ≠ 1 := by
    rw [hroom]
    omega
  have htitle : (detailsMessage py req).title.length =
      13 + req.toolName.length + req.repo.length := by
    simp only [detailsMessage, List.length_append, h6, h7]
    omega
  have hlen := length_formatInfo (show (detailsMessage py req).body = _ from rfl) hne
  have hproject : (detailsMessage py req).project = req.project := rfl
  rw [hlen, hroom, htitle, hproject, detailsSize]
  omega

/-! ### The limit -/

/-- The limit of Telegram for the text of a message. -/
def messageLimit : ℕ := 4096

/-- A card fits exactly if its fields do. -/
theorem approval_fits_iff (req : ApprovalRequest) :
    (∀ text ∈ formatApproval py req, text.length ≤ messageLimit) ↔
      ∀ n ∈ commandSize py req.toolInput, approvalSize req + n ≤ messageLimit := by
  have hlen := length_formatApproval py req
  rcases htext : formatApproval py req with _ | text
  · rcases hsize : commandSize py req.toolInput with _ | n
    · simp
    · rw [htext, hsize] at hlen
      exact absurd hlen (by simp)
  · rcases hsize : commandSize py req.toolInput with _ | n
    · rw [htext, hsize] at hlen
      exact absurd hlen (by simp)
    · rw [htext, hsize] at hlen
      have heq : text.length = approvalSize req + n := Option.some.inj hlen
      simp [heq]

/-- The reason of a bus card is never empty. -/
theorem busReason_ne_nil (py : Bus.Python) (m : BusMessage) :
    orText (m.subject py) (m.type py ++ lit " from " ++ m.from_ py) ≠ [] := by
  have hfrom : lit " from " ≠ [] := by decide
  unfold orText
  split_ifs with h
  · simp [hfrom]
  · exact h

/-- What is counted for a bus card. -/
theorem approvalSize_bus (py : Python) (m : BusMessage) (account project : Text) :
    commandSize py (buildApprovalRequest py.toPython m account project).toolInput =
        some (8 + cutSize (py.text (.dict (busInput py.toPython m)))) ∧
      approvalSize (buildApprovalRequest py.toPython m account project) +
          (8 + cutSize (py.text (.dict (busInput py.toPython m)))) =
        busCardSize py m project := by
  have hbus : (lit "bus:").length = 4 := by decide
  constructor
  · have hcommand : (Value.dict (busInput py.toPython m)).get "command" = none := by
      simp only [busInput, get_cons]
      rw [if_neg (by decide), if_neg (by decide), if_neg (by decide), if_neg (by decide),
        if_neg (by decide), if_neg (by decide)]
      rfl
    have htruthy : (Value.dict (busInput py.toPython m)).truthy := rfl
    simp only [buildApprovalRequest, commandSize, hcommand, inputSize, htruthy, if_true]
  · have hreason : reasonSize (buildApprovalRequest py.toPython m account project).reason = _ :=
      if_neg (busReason_ne_nil py.toPython m)
    have htool : (buildApprovalRequest py.toPython m account project).toolName.length =
        4 + (m.type py.toPython).length := by
      rw [← hbus]
      exact List.length_append
    rw [approvalSize, hreason, htool]
    simp only [buildApprovalRequest, busCardSize]
    omega

/-- **When the texts are within the limit.** A card for a tool call is exactly if its
project, repository, agent and tool and what it shows of the input have room for each other;
a card and an info message for a bus message, and a Details view, likewise, and nothing but
the input and the body is ever cut. -/
theorem texts_fit_iff (py : Python) (p : Payload) (now : Now) (token : BitVec 32)
    (m : BusMessage) (account project : Text) (severity : Severity)
    (pending busPending : Option ApprovalRequest) :
    ((∀ text ∈ formatApproval py (p.request now token), text.length ≤ messageLimit) ↔
      ∀ n ∈ commandSize py (.dict p.toolInput), 15 + p.project.length + p.repo.length +
        p.agent.length + p.toolName.length + n ≤ messageLimit) ∧
    ((∀ text ∈ formatApproval py (buildApprovalRequest py.toPython m account project),
        text.length ≤ messageLimit) ↔ busCardSize py m project ≤ messageLimit) ∧
    ((formatInfo (buildInfoMessage py.toPython m account project severity)).length ≤
        messageLimit ↔ infoSize py.toPython m project ≤ messageLimit) ∧
    ((∀ msg ∈ surfaceDetails py pending busPending, (formatInfo msg).length ≤ messageLimit) ↔
      ∀ req ∈ pending.or busPending, detailsSize py req ≤ messageLimit) := by
  refine ⟨approval_fits_iff _, ?_, ?_, ?_⟩
  · obtain ⟨hsize, hsum⟩ := approvalSize_bus py m account project
    rw [approval_fits_iff, hsize, ← hsum]
    simp
  · rw [length_infoMessage]
  · rw [surfaceDetails]
    rcases pending.or busPending with _ | req
    · simp
    · simp [length_detailsMessage]

/-- A request whose subject is as long as this. -/
def wordy (n : ℕ) : BusMessage where
  stem := lit "20260424T100000-test"
  frontmatter := [(.str (lit "type"), .str (lit "spec-change-request")),
    (.str (lit "subject"), .str (List.replicate n 'a'.toNat))]
  body := []

/-- A Python that dumps nothing. -/
def plainTelegram : Python where
  toPython := plainPython
  repr _ := []
  dumps _ := none

/-- It says what it is given as its subject. -/
theorem subject_wordy (n : ℕ) : (wordy n).subject plainPython = List.replicate n 'a'.toNat := by
  have hget : (wordy n).get "subject" = some (.str (List.replicate n 'a'.toNat)) := rfl
  rw [BusMessage.subject, hget]
  rcases Nat.eq_zero_or_pos n with rfl | hn
  · rfl
  · have htruthy : (Value.str (List.replicate n 'a'.toNat)).truthy = true := by
      simp only [Value.truthy, decide_eq_true_eq]
      exact List.ne_nil_of_length_pos (by simpa using hn)
    have hspace : ∀ c ∈ List.replicate n 'a'.toNat, isSpace c = false := by
      intro c hc
      rw [List.eq_of_mem_replicate hc]
      rfl
    show (if _ then strip (List.replicate n 'a'.toNat) else _) = _
    rw [if_pos htruthy]
    exact strip_eq_self (fun c hc => hspace c (List.mem_of_mem_head? hc))
      (fun c hc => hspace c (List.mem_of_getLast? hc))

/-- So its card has more characters than the subject. -/
theorem lt_busCardSize_wordy {n : ℕ} (hn : 0 < n) (project : Text) :
    n < busCardSize plainTelegram (wordy n) project := by
  have hne : (wordy n).subject plainPython ≠ [] := by
    rw [subject_wordy]
    exact List.ne_nil_of_length_pos (by simpa using hn)
  have hreason : (orText ((wordy n).subject plainPython) ((wordy n).type plainPython ++
      lit " from " ++ (wordy n).from_ plainPython)).length = n := by
    rw [orText, if_neg hne, subject_wordy, List.length_replicate]
  show n < 36 + project.length + _ + _ + _ + (orText ((wordy n).subject plainPython)
    ((wordy n).type plainPython ++ lit " from " ++ (wordy n).from_ plainPython)).length + _
  omega

/-- **A long subject makes the card too long**: it is shown in full, as the reason. -/
theorem not_texts_fit_wordy :
    ∃ m text, (decide plainPython m (.dict [])).interactive = true ∧
      formatApproval plainTelegram (buildApprovalRequest plainPython m (lit "default")
        (lit "shop")) = some text ∧ messageLimit < text.length := by
  obtain ⟨hsize, hsum⟩ := approvalSize_bus plainTelegram (wordy 5000) (lit "default") (lit "shop")
  have hlen := length_formatApproval plainTelegram
    (buildApprovalRequest plainTelegram.toPython (wordy 5000) (lit "default") (lit "shop"))
  rw [hsize, Option.map_some, hsum] at hlen
  obtain ⟨text, htext, hlength⟩ := Option.map_eq_some_iff.mp hlen
  have hlong : messageLimit < busCardSize plainTelegram (wordy 5000) (lit "shop") :=
    lt_of_lt_of_le (by decide) (lt_busCardSize_wordy (by omega) _).le
  exact ⟨wordy 5000, text, by decide +kernel, htext, hlength ▸ hlong⟩

end Telegram

end OtamanBridge
