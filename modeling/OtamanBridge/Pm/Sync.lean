import OtamanBridge.Bus.RoundTrip

/-!
# Bus events that reach the issue tracker

The way out of `pm_sync_handler.py`: what `handle_event` makes of a message the watcher
passes on, and what it then asks of the adapter of the tracker
(`OtamanBridge.Pm.handleEvent`). An approval becomes an issue for the change its front
matter names (`OtamanBridge.Pm.of_createIssue_mem`), and an approval that names none is
skipped. No approval of the bridge names one
(`OtamanBridge.Pm.approval_never_synced`): `broadcast_decision` has no such field.
-/

namespace OtamanBridge

namespace Pm

open Py

open Bus (BusMessage Python)

/-! ### What the handler talks to -/

/-- `SpecChange`, with the assignee of `_SpecChangeWithAssignee`. The values of the front
matter are what YAML made of them. -/
structure SpecChange where
  changeName : Value
  title : Text
  agentName : Text
  specPath : Value
  jtbdId : Option Value
  description : Text
  assignedTo : Option ℤ

/-- `SpecState.status`. -/
inductive Status
  | inProgress
  | done
  deriving DecidableEq

/-- A call of the adapter that changes something. -/
inductive Call
  | createIssue (change : SpecChange)
  | updateIssue (issue : ℤ) (status : Status)
  | addComment (issue : ℤ) (comment : Text)

/-- `agent_identification`. -/
inductive Identification
  | subjectPrefix
  | customField
  | both
  deriving DecidableEq

/-- A `PmSyncHandler`: its settings, and what the files and the tracker answer. The calls
that change something succeed. -/
structure Handler where
  py : Python
  /-- `int(v)`. -/
  int : Value → Except Unit ℤ
  /-- There is a configuration and an adapter. -/
  enabled : Bool
  humanRoster : List Value
  identification : Identification
  /-- `capabilities.issue_comments`. -/
  issueComments : Bool
  /-- `_specs_repo_name`. Where that raises, `_read_proposal_description` after it would. -/
  specsRepoName : Text
  /-- `_read_proposal_description`, which raises for a name that is no path or a file that
  cannot be decoded. -/
  readProposalDescription : Value → Except Unit Text
  /-- The id of the issue that is created. -/
  created : SpecChange → ℤ
  /-- `_save_issue_id` and `_write_pm_sync_yaml`. -/
  saveIssue : Value → ℤ → Except Unit Unit
  /-- `_read_pm_sync_yaml`. -/
  readPmSyncYaml : Value → Except Unit (Option ℤ)
  /-- `_load_issue_id`. -/
  loadIssueId : Value → Except Unit (Option ℤ)
  /-- The ids and subjects of `list_issues`, which may fail. -/
  listIssues : Option (List (ℤ × Text))

/-- The arguments of `handle_bus_event`. -/
structure Event where
  msgType : Text
  msgFrom : Text
  msgTo : Text
  subject : Text
  specPath : Option Value
  changeName : Option Value
  jtbdId : Option Value

variable (h : Handler)

/-! ### Who gets the issue -/

/-- `role in person.get("roles", [])`. -/
def hasRole (role : Text) : Option Value → Except Unit Bool
  | none => .ok false
  | some (.list items) => .ok (items.any fun
    | .str t => t = role
    | _ => false)
  | some (.str t) => .ok (role <:+: t)
  | some (.dict items) => .ok (items.any fun
    | (.str t, _) => t = role
    | _ => false)
  | some _ => .error ()

/-- The first of the roster with this role, and the id that goes with it. -/
def assigneeFor (role : Text) : List Value → Except Unit (Option (Option ℤ))
  | [] => .ok none
  | .dict items :: people => do
    let person := Value.dict items
    if ← hasRole role (person.get "roles") then
      match person.get "pm-user-id" with
      | none => return some none
      | some .none => return some none
      | some uid => return some (some (← h.int uid))
    else assigneeFor role people
  | _ :: people => assigneeFor role people

/-- The roles of `resolve_assignee` for a human, in their order. -/
def humanRoles : List Text := ["cofounder", "cto", "cpo", "developer"].map lit

/-- `resolve_assignee`. -/
def resolveAssignee (msgTo : Text) : Except Unit (Option ℤ) := do
  if (lit "-agent").isSuffixOf msgTo then
    let role := msgTo.take (msgTo.length - (lit "-agent").length)
    return (← assigneeFor h role h.humanRoster).join
  if msgTo = lit "human" then
    for role in humanRoles do
      if let some uid ← assigneeFor h role h.humanRoster then return uid
  return none

/-! ### The issue -/

/-- `_extract_proposal_title`. -/
def extractProposalTitle (description : Text) : Option Text :=
  (splitlines description).findSome? fun line =>
    let stripped := strip line
    if (lit "# ").isPrefixOf stripped ∧ ¬(lit "## ").isPrefixOf stripped then
      some (strip (stripped.dropWhile (· ∈ lit "# ")))
    else none

/-- `_build_issue_title`, of a change name as `str` writes it. -/
def buildIssueTitle (changeName : Text) (proposalTitle : Option Text) (agentName : Text)
    (mode : Identification) : Text :=
  let label := Bus.orText (proposalTitle.getD []) changeName
  if agentName ≠ [] ∧ mode ≠ .customField then
    lit "[" ++ changeName ++ lit "][" ++ agentName ++ lit "] " ++ label
  else lit "[" ++ changeName ++ lit "] " ++ label

/-- `_COMMENT_TEMPLATES`, filled in. -/
def commentText (e : Event) : Text :=
  if e.msgType = lit "task-assignment" then
    lit "🤖 " ++ e.msgFrom ++ lit " → " ++ e.msgTo ++ lit ": " ++ e.subject
  else if e.msgType = lit "task-complete" then
    lit "✅ " ++ e.msgFrom ++ lit ": task complete — " ++ e.subject
  else if e.msgType = lit "spec-change-request" then
    lit "📋 " ++ e.msgFrom ++ lit " proposed spec change — " ++ e.subject ++
      lit " — awaiting human approval"
  else if e.msgType = lit "spec-change-approved" then lit "✅ Spec approved — " ++ e.subject
  else lit "❓ " ++ e.msgFrom ++ lit " → " ++ e.msgTo ++ lit ": " ++ e.subject

/-- The `SpecChange` of an approval. -/
def specChange (e : Event) (changeName : Value) : Except Unit SpecChange := do
  let description ← h.readProposalDescription changeName
  let assignedTo ← resolveAssignee h e.msgTo
  return {
    changeName
    title := buildIssueTitle (h.py.text changeName) (extractProposalTitle description)
      h.specsRepoName h.identification
    agentName := h.specsRepoName
    specPath := e.specPath.getD (.str [])
    jtbdId := e.jtbdId
    description
    assignedTo }

/-- `_resolve_issue_id`. -/
def resolveIssueId (changeName : Option Value) (subject : Text) : Except Unit (Option ℤ) := do
  if let some c := changeName then
    if let some issue ← h.readPmSyncYaml c then return some issue
    if let some issue ← h.loadIssueId c then return some issue
  match h.listIssues with
  | none => return none
  | some issues =>
    match changeName.getD (.str subject) with
    | .str keyword =>
      return issues.findSome? fun (issue, title) =>
        if keyword ≠ [] ∧ h.py.lower keyword <:+: h.py.lower title then some issue
        else none
    | _ => if issues = [] then return none else .error ()

/-! ### The events -/

/-- What is asked of the adapter for an approval. What raises is caught by
`handle_bus_event`, and nothing comes after it. -/
def approvalCalls (e : Event) (changeName : Value) : List Call :=
  match specChange h e changeName with
  | .error () => []
  | .ok change =>
    .createIssue change :: match h.saveIssue changeName (h.created change) with
      | .error () => []
      | .ok () => if h.issueComments then [.addComment (h.created change) (commentText e)] else []

/-- And for a task. -/
def taskCalls (e : Event) (status : Status) : List Call :=
  match resolveIssueId h e.changeName e.subject with
  | .ok (some issue) => .updateIssue issue status ::
      if h.issueComments then [.addComment issue (commentText e)] else []
  | _ => []

/-- And for what is only commented on. -/
def commentCalls (e : Event) : List Call :=
  match resolveIssueId h e.changeName e.subject with
  | .ok (some issue) => [.addComment issue (commentText e)]
  | _ => []

/-- And for all that is no approval of a change. -/
def otherCalls (e : Event) : List Call :=
  if e.msgType = lit "task-assignment" then taskCalls h e .inProgress
  else if e.msgType = lit "task-complete" then taskCalls h e .done
  else if e.msgType ∈ ["spec-change-request", "question"].map lit ∧ h.issueComments then
    commentCalls h e
  else []

/-- `_dispatch_outbound`. -/
def dispatchOutbound (e : Event) : List Call :=
  match e.changeName with
  | some changeName =>
    if e.msgType = lit "spec-change-approved" then approvalCalls h e changeName else otherCalls h e
  | none => otherCalls h e

/-- `frontmatter.get(key) or None`. -/
def orNone (m : BusMessage) (key : String) : Option Value := (m.get key).filter Value.truthy

/-- `handle_event` and `handle_bus_event`: what is asked of the adapter. -/
def handleEvent (m : BusMessage) : List Call :=
  if h.enabled then
    dispatchOutbound h {
      msgType := m.type h.py
      msgFrom := m.from_ h.py
      msgTo := m.to_ h.py
      subject := m.subject h.py
      specPath := orNone m "spec-path"
      changeName := orNone m "change"
      jtbdId := orNone m "jtbd-id" }
  else []

/-! ### Approvals of the bridge -/

variable {h : Handler} {e : Event} {sc : SpecChange} {m : BusMessage}

/-- Nothing else makes an issue. -/
theorem createIssue_not_mem_otherCalls : .createIssue sc ∉ otherCalls h e := by
  have htask : ∀ status, .createIssue sc ∉ taskCalls h e status := by
    intro status
    unfold taskCalls
    split
    · split_ifs <;> simp
    · simp
  have hcomment : .createIssue sc ∉ commentCalls h e := by
    unfold commentCalls
    split <;> simp
  unfold otherCalls
  split_ifs
  · exact htask _
  · exact htask _
  · exact hcomment
  · simp

theorem specChange_changeName {changeName : Value} (hsc : specChange h e changeName = .ok sc) :
    sc.changeName = changeName := by
  unfold specChange at hsc
  rcases hd : h.readProposalDescription changeName with u | description
  · rw [hd] at hsc
    exact absurd hsc (by simp [bind, Except.bind])
  · rcases ha : resolveAssignee h e.msgTo with u | uid
    · rw [hd, ha] at hsc
      exact absurd hsc (by simp [bind, Except.bind])
    · rw [hd, ha] at hsc
      obtain rfl := Except.ok.inj hsc
      rfl

/-- **An issue is made for the change an approval names**, and for nothing else. -/
theorem of_createIssue_mem (hin : .createIssue sc ∈ handleEvent h m) :
    h.enabled ∧ m.type h.py = lit "spec-change-approved" ∧ m.get "change" = some sc.changeName := by
  unfold handleEvent at hin
  split_ifs at hin with henabled
  · refine ⟨henabled, ?_⟩
    unfold dispatchOutbound at hin
    dsimp only at hin
    split at hin
    next changeName hchange =>
      split_ifs at hin with htype
      · refine ⟨htype, ?_⟩
        unfold approvalCalls at hin
        split at hin
        · exact absurd hin List.not_mem_nil
        next change hsc =>
          obtain rfl : sc = change := by
            rcases List.mem_cons.mp hin with hin | hin
            · exact Call.createIssue.inj hin
            · split at hin
              · exact absurd hin List.not_mem_nil
              · split_ifs at hin <;> simp at hin
          rw [specChange_changeName hsc]
          exact (Option.filter_eq_some_iff.mp hchange).1
      · exact absurd hin createIssue_not_mem_otherCalls
    · exact absurd hin createIssue_not_mem_otherCalls
  · exact absurd hin List.not_mem_nil

/-- **The approval reaches the tracker**: the file is read, and the message makes an issue
for this change. -/
def Synced (h : Handler) (stem text : Text) (change : Value) : Prop :=
  ∃ m, Bus.parseBusFile h.py stem (some (.text text)) = .ok (some m) ∧
    ∃ sc, .createIssue sc ∈ handleEvent h m ∧ sc.changeName = change

/-- A key that is not among those of a message. -/
theorem get_eq_none {key : String} (keys : List Text) (hkey : lit key ∉ keys)
    (hkeys : m.frontmatter.map Prod.fst = keys.map .str) : m.get key = none := by
  unfold BusMessage.get Value.get
  rw [List.findSome?_eq_none_iff]
  rintro ⟨k, v⟩ hkv
  have hk : k ∈ keys.map Value.str := hkeys ▸ List.mem_map_of_mem (f := Prod.fst) hkv
  obtain ⟨t, ht, rfl⟩ := List.mem_map.mp hk
  have hne : t ≠ lit key := fun h => hkey (h ▸ ht)
  simp [hne]

/-- **No approval of the bridge reaches the tracker**, whatever request it is for, whoever
approves it, and whatever else is written with it. -/
theorem approval_never_synced {scalar : Text → Except Bus.LoadError Value} {node : Text → Prop}
    (hpy : Bus.Conforms h.py scalar node) (stem : Text) (m : BusMessage) (i : Bus.Instant)
    (responder comment : Text) (change : Value) :
    ¬Synced h stem (Bus.broadcastDecision h.py m i responder comment .approved).text change := by
  rintro ⟨m', hm', sc, hsc, -⟩
  -- none of its fields comes from the request
  have hround : Bus.Recovers h.py stem
      (Bus.broadcastDecision h.py m i responder comment .approved)
      (Bus.broadcastDecision h.py m i responder comment .approved).text :=
    (Bus.written_recovers_iff hpy (.decision m i responder comment .approved)
      (by simp [Bus.Writing.given])).mpr (by simp [Bus.Writing.given])
  obtain ⟨m'', hm'', hkeys, -⟩ := hround
  obtain rfl := Option.some.inj (Except.ok.inj (hm'.symm.trans hm''))
  have hnone : m'.get "change" = none :=
    get_eq_none (Bus.envelopeKeys []) (by decide) hkeys
  have hsome := (of_createIssue_mem hsc).2.2
  exact absurd (hnone.symm.trans hsome) (by simp)

/-! ### An approval that is skipped -/

/-- A handler whose files can all be read, and whose tracker has no issues. -/
def plainHandler : Handler where
  py := Bus.quotingPython
  int
    | .int n => .ok n
    | _ => .error ()
  enabled := true
  humanRoster := []
  identification := .both
  issueComments := true
  specsRepoName := lit "otaman-specs"
  readProposalDescription _ := .ok (lit "# Rename the queue\n")
  created _ := 1
  saveIssue _ _ := .ok ()
  readPmSyncYaml _ := .ok none
  loadIssueId _ := .ok none
  listIssues := some []

/-- An approval that names its change makes an issue and a comment. -/
example : (handleEvent plainHandler ⟨lit "approved", [(.str (lit "type"),
    .str (lit "spec-change-approved")), (.str (lit "change"), .str (lit "rename-queue"))],
    []⟩).length = 2 := by decide +kernel

/-- A request that names a change. -/
def namedRequest : BusMessage where
  stem := lit "req"
  frontmatter := [(.str (lit "type"), .str (lit "spec-change-request")),
    (.str (lit "from"), .str (lit "infra")), (.str (lit "change"), .str (lit "rename-queue"))]
  body := []

/-- Its approval makes no issue. -/
theorem approval_never_synced_plain : ¬Synced plainHandler (lit "approved")
    (Bus.broadcastDecision Bus.quotingPython namedRequest ⟨0, 0⟩ (lit "ada") [] .approved).text
    (.str (lit "rename-queue")) :=
  approval_never_synced (h := plainHandler) Bus.conforms_quotingPython _ _ _ _ _ _

/-- **An approval is skipped**: that of a request which names its change. -/
theorem not_approval_synced : ¬∀ (h : Handler) (scalar : Text → Except Bus.LoadError Value)
    (node : Text → Prop), Bus.Conforms h.py scalar node → h.enabled →
    ∀ (stem : Text) (m : BusMessage) (i : Bus.Instant) (responder comment change : Text),
      m.type h.py = lit "spec-change-request" → m.get "change" = some (.str change) →
      change ≠ [] →
      Synced h stem (Bus.broadcastDecision h.py m i responder comment .approved).text
        (.str change) := by
  intro h
  have htest : (Bus.parseBusFile Bus.quotingPython [] (some (.text (Bus.broadcastDecision
      Bus.quotingPython namedRequest ⟨0, 0⟩ (lit "ada") [] .approved).text))).toOption.join.any
        fun m => (m.get "change").isNone := by decide +kernel
  obtain ⟨m, hm, hnone⟩ := (Option.any_eq_true ..).mp htest
  obtain ⟨m', hm', sc, hsc, -⟩ := h plainHandler _ _ Bus.conforms_quotingPython rfl [] namedRequest
    ⟨0, 0⟩ (lit "ada") [] (lit "rename-queue") (by decide +kernel) (by rfl) (by decide)
  obtain rfl := Option.some.inj (Except.ok.inj ((Bus.eq_ok_of_join hm).symm.trans hm'))
  have hsome := (of_createIssue_mem hsc).2.2
  exact absurd (Option.isNone_iff_eq_none.mp hnone) (by simp [hsome])

end Pm

end OtamanBridge
