import OtamanBridge.Inbox.Writers
import OtamanBridge.Lib.PyValue
import OtamanBridge.Pm.OneIssue

/-!
# Tracker events that reach the bus

The way in of `pm_sync_handler.py`: `handle_inbound_webhook` has the adapter read a payload,
and `_route_inbound_event` writes a bus message by the table in the head of the file. What the
event does not say is looked for in the payload, and there nothing is checked that is not
read: a value that is no mapping is passed over, but one that cannot be searched raises, and
then no message is written. So the table is followed just when what is searched can be
searched, and what is written can be encoded (`OtamanBridge.Pm.Inbound.routes_iff`).
-/

namespace OtamanBridge

namespace Pm

namespace Inbound

open Py

open Bus (MessageFile Python pmMessage)

open Inbox (Encodable)

open Value (isDict isText field fieldOr iterable elements iter contains sliced)

/-! ### What the handler is given -/

/-- `PmInboundEvent`, as an adapter makes it. A field that is not there is `None`. -/
structure PmInboundEvent where
  eventType : Text
  projectId : Option ℤ
  issueId : Option ℤ
  newStatus : Option Text
  specPath : Option Text
  issueSubject : Option Text

/-- A `PmSyncHandler` that gets a payload: what the adapter makes of it, the settings, the
clock, and what the file system does. -/
structure Receiver where
  py : Python
  /-- There is a configuration and an adapter. -/
  enabled : Bool
  /-- `handle_inbound_event`. -/
  adapter : Value → Except Unit PmInboundEvent
  /-- `config.project_map`. -/
  projectMap : List (Text × ℤ)
  /-- `platform.yaml`, if it can be read. -/
  platform : Option Value
  now : Bus.Instant
  /-- A file of this name can be opened in the directory of the bus. -/
  opens : Text → Bool

/-- The response. -/
inductive Response
  | ok (eventType : Text)
  | error
  deriving DecidableEq

/-! ### What the event says -/

section Route

variable (r : Receiver) (e : PmInboundEvent) (payload : Value)

/-- `norm_type`. -/
def normType : Text :=
  if e.eventType = lit "create" then lit "issue_created"
  else if e.eventType = lit "update" then lit "issue_updated"
  else if e.eventType = lit "destroy" then lit "issue_deleted"
  else e.eventType

/-- `project_id`. -/
def projectId : ℤ := e.projectId.getD 0

/-- `issue_id`. -/
def issueId : ℤ := e.issueId.getD 0

/-- `raw_issue`. -/
def rawIssue : Value := fieldOr payload "issue" (.dict [])

/-- The custom fields of the issue. -/
def customFields : Value := ((rawIssue payload).get "custom_fields").getD (.list [])

/-- The last of them that is the path of a spec. -/
def lastSpecPath (fields : List Value) : Value :=
  fields.foldl (fun path cf =>
    if isDict cf && isText (lit "spec-path") (field cf "name") then field cf "value" else path)
    .none

/-- `spec_path`. -/
def specPath : Except Unit Value :=
  match e.specPath with
  | some t => .ok (.str t)
  | none =>
    if isDict (rawIssue payload) then (iter (customFields payload)).map lastSpecPath
    else .ok .none

/-- `new_status`. -/
def newStatus : Value :=
  match e.newStatus with
  | some t => .str t
  | none =>
    if isDict (rawIssue payload) then
      let status := fieldOr (rawIssue payload) "status" (.dict [])
      if isDict status then field status "name" else .none
    else .none

/-- `_project_id_to_repo.get(project_id)`: the last that the map has for it. -/
def repoOf : Option Text :=
  (r.projectMap.reverse.find? fun kv => kv.2 = projectId e).map Prod.fst

/-- The first of the `repos` with this name. -/
def ownerIn (repo : Text) (repos : List Value) : Option Text :=
  (repos.find? fun v => isDict v && isText repo (field v "name")).map fun v =>
    r.py.text ((v.get "owner").getD (.str []))

/-- `yaml.safe_load(…) or {}`. -/
def platformOr (data : Value) : Value := if data.truthy then data else .dict []

/-- `_repo_to_agent`. -/
def repoToAgent (repo : Text) : Except Unit (Option Text) :=
  match r.platform with
  | none => .ok none
  | some data =>
    if isDict (platformOr data) then
      (iter (((platformOr data).get "repos").getD (.list []))).map (ownerIn r repo)
    else .error ()

/-- `bus_to`. -/
def busTo : Except Unit Text :=
  match repoOf r e with
  | none => .ok (lit "human")
  | some repo =>
    if repo = [] then .ok (lit "human")
    else (repoToAgent r repo).map fun agent => Bus.orText (agent.getD []) (lit "human")

/-- The notes of a journal. -/
def notesOf (journal : Value) : Value :=
  if isDict journal then (journal.get "notes").getD (.str []) else .str []

/-- `@spec-agent`. -/
def specAgentMention : Text := lit "@spec-agent"

/-- `"@spec-agent" in notes`. -/
def mentions (journal : Value) : Bool := contains specAgentMention (notesOf journal)

/-- `notes[:200]` of the first journal whose notes mention the agent. -/
def findMention : List Value → Except Unit (Option Value)
  | [] => .ok none
  | journal :: journals =>
    if iterable (notesOf journal) then
      if mentions journal then (sliced 200 (notesOf journal)).map some
      else findMention journals
    else .error ()

/-- `raw_journals`. -/
def rawJournals : Value := fieldOr payload "journals" (.list [])

/-- The message for an issue that is done and has a spec. -/
def doneMessage (path : Value) : MessageFile :=
  pmMessage r.py r.now (lit "spec-update-requested") (lit "spec-agent")
    (lit "PM issue #" ++ intText (issueId e) ++ lit " marked Done — update spec: " ++
      r.py.text path)
    (lit "Issue #" ++ intText (issueId e) ++ lit " in project " ++ intText (projectId e) ++
      lit " transitioned to Done.\nspec-path: " ++ r.py.text path ++ lit "\nproject_id: " ++
      intText (projectId e)) (lit "normal")

/-- The message for a comment that mentions the agent. -/
def mentionMessage (note : Value) : MessageFile :=
  pmMessage r.py r.now (lit "spec-update-requested") (lit "spec-agent")
    (lit "PM comment mentions @spec-agent on issue #" ++ intText (issueId e))
    (lit "Issue #" ++ intText (issueId e) ++
      lit " comment contains @spec-agent reference.\nproject_id: " ++ intText (projectId e) ++
      lit "\nnote: " ++ r.py.text note) (lit "normal")

/-- `type_to_bus`. -/
def busType (norm : Text) : Text :=
  if norm = lit "issue_created" then lit "pm-issue-created"
  else if norm = lit "issue_deleted" then lit "pm-issue-deleted"
  else lit "pm-issue-updated"

/-- A line of the body, if there is something to say. -/
def lineIf (label : String) (v : Value) : Text :=
  if v.truthy then lit label ++ r.py.text v ++ lit "\n" else []

/-- The message for all else. -/
def generalMessage (recipient : Text) (status path : Value) : MessageFile :=
  pmMessage r.py r.now (busType (normType e)) recipient
    (lit "PM " ++ normType e ++ lit ": " ++
      Bus.orText (e.issueSubject.getD []) (lit "issue #" ++ intText (issueId e)))
    (lit "event_type: " ++ normType e ++ lit "\nproject_id: " ++ intText (projectId e) ++
      lit "\nissue_id: " ++ intText (issueId e) ++ lit "\n" ++ lineIf r "status: " status ++
      lineIf r "spec_path: " path) (lit "normal")

/-- `_route_inbound_event`, up to the file that it writes. -/
def routeInboundEvent : Except Unit MessageFile := do
  let path ← specPath e payload
  let recipient ← busTo r e
  let status := newStatus e payload
  if normType e = lit "issue_updated" then
    if isText (lit "Done") status ∧ path.truthy then return doneMessage r e path
    else
      let journals ← iter (rawJournals payload)
      match ← findMention journals with
      | some note => return mentionMessage r e note
      | none => return generalMessage r e recipient status path
  else return generalMessage r e recipient status path

/-- `write_text`: what is there afterwards. A file that is opened for a text that has no
encoding stays empty. -/
def writeText (f : MessageFile) : List (Text × Text) × Bool :=
  if r.opens f.name then
    if Encodable f.text then ([(f.name, f.text)], true) else ([(f.name, [])], false)
  else ([], false)

/-- `handle_inbound_webhook`: the files that are written, and the response. -/
def handleInboundWebhook : List (Text × Text) × Response :=
  if r.enabled then
    match r.adapter payload with
    | .error () => ([], .error)
    | .ok e =>
      match routeInboundEvent r e payload with
      | .error () => ([], .error)
      | .ok f =>
        match writeText r f with
        | (files, true) => (files, .ok e.eventType)
        | (files, false) => (files, .error)
  else ([], .error)

end Route

/-! ### The table -/

/-- What happened to an issue. -/
inductive Kind
  | create
  | update
  | destroy
  deriving DecidableEq

/-- The action, as an adapter may call it. -/
def Kind.action : Kind → Text
  | .create => lit "create"
  | .update => lit "update"
  | .destroy => lit "destroy"

/-- The normal form, as another adapter calls it. -/
def Kind.normal : Kind → Text
  | .create => lit "issue_created"
  | .update => lit "issue_updated"
  | .destroy => lit "issue_deleted"

/-- What the rows of the table ask for. -/
structure Facts where
  kind : Kind
  /-- The status is `Done`. -/
  done : Bool
  /-- The issue has a spec path. -/
  specified : Bool
  /-- A comment contains `@spec-agent`. -/
  mentioned : Bool
  /-- The responsible agent. -/
  responsible : Text

/-- The rows, as the head of the file has them. -/
inductive Row
  | done
  | mention
  | created
  | updated
  | deleted
  deriving DecidableEq

/-- When a row applies. -/
def Row.applies (f : Facts) : Row → Bool
  | .done => f.kind = .update && f.done && f.specified
  | .mention => f.kind = .update && f.mentioned
  | .created => f.kind = .create
  | .updated => f.kind = .update
  | .deleted => f.kind = .destroy

/-- The type of the message. -/
def Row.msgType : Row → Text
  | .done => lit "spec-update-requested"
  | .mention => lit "spec-update-requested"
  | .created => lit "pm-issue-created"
  | .updated => lit "pm-issue-updated"
  | .deleted => lit "pm-issue-deleted"

/-- Who gets it. -/
def Row.recipient (f : Facts) : Row → Text
  | .done => lit "spec-agent"
  | .mention => lit "spec-agent"
  | _ => f.responsible

/-- The table. -/
def table : List Row := [.done, .mention, .created, .updated, .deleted]

/-- The first row that applies. -/
def Facts.row (f : Facts) : Option Row := table.find? (Row.applies f)

section Table

variable (r : Receiver) (k : Kind) (e : PmInboundEvent) (payload : Value)

/-- The path of the spec, of the event or of the issue. -/
def pathIn : Value :=
  match e.specPath with
  | some t => .str t
  | none => lastSpecPath (elements (customFields payload))

/-- The journals. -/
def journalsIn : List Value := elements (rawJournals payload)

/-- The repositories of `platform.yaml`. -/
def reposIn : Value := ((platformOr (r.platform.getD .none)).get "repos").getD (.list [])

/-- The agent that owns the repository of the project, or the human. -/
def responsible : Text :=
  Bus.orText ((((repoOf r e).filter (· ≠ [])).bind fun repo =>
    ownerIn r repo (elements (reposIn r))).getD []) (lit "human")

/-- What the event and its payload say. -/
def facts : Facts where
  kind := k
  done := isText (lit "Done") (newStatus e payload)
  specified := (pathIn e payload).truthy
  mentioned := (journalsIn payload).any mentions
  responsible := responsible r e

/-- **The table is followed**: one message is written, of the type and to the recipient of the
first row that applies, and the response says so. -/
def FollowsTable : Prop :=
  ∃ (row : Row) (f : MessageFile), (facts r k e payload).row = some row ∧
    handleInboundWebhook r payload = ([(f.name, f.text)], .ok e.eventType) ∧
    (lit "type", row.msgType) ∈ f.fields ∧
    (lit "to", row.recipient (facts r k e payload)) ∈ f.fields

/-- The notes that are quoted. -/
def noteIn : Value :=
  (((journalsIn payload).find? mentions).bind fun journal =>
    (sliced 200 (notesOf journal)).toOption).getD .none

/-- What the message of a row quotes. -/
def quoted : Row → List Text
  | .done => [r.py.text (pathIn e payload)]
  | .mention => [r.py.text (noteIn payload)]
  | _ => [responsible r e, e.issueSubject.getD [], lineIf r "status: " (newStatus e payload),
      lineIf r "spec_path: " (pathIn e payload)]

/-- The notes that are searched, up to the first that mention the agent, can be searched, and
those can be cut. -/
def Searchable (journals : List Value) : Prop :=
  ∀ pre journal post, journals = pre ++ journal :: post → (∀ other ∈ pre, ¬mentions other) →
    iterable (notesOf journal) ∧ (mentions journal → ¬isDict (notesOf journal))

/-- What is gone through can be gone through. -/
structure Traversable : Prop where
  fields : e.specPath = none → iterable (customFields payload)
  repos : ∀ repo, repoOf r e = some repo → repo ≠ [] → ∀ data, r.platform = some data →
    isDict (platformOr data) ∧ iterable (reposIn r)
  journals : k = .update → (facts r k e payload).row ≠ some .done →
    iterable (rawJournals payload) ∧ Searchable (journalsIn payload)

/-- **What the table needs**: what is gone through can be gone through, and what is quoted has
an encoding. -/
structure Readable : Prop extends Traversable r k e payload where
  encodable : ∀ row, (facts r k e payload).row = some row → ∀ t ∈ quoted r e payload row,
    Encodable t

/-- A slug of a file name. -/
def IsSlug (t : Text) : Prop :=
  t.length ≤ 40 ∧ ∀ c ∈ t, c = 45 ∨ (97 ≤ c ∧ c ≤ 122) ∨ (48 ≤ c ∧ c ≤ 57)

/-- The directory of the bus takes messages for a recipient. -/
def Receiver.Takes (recipient : Text) : Prop :=
  ∀ slug, IsSlug slug → r.opens (r.now.stamp ++ lit "-bridge-to-" ++ recipient ++ lit "-" ++
    slug ++ lit ".md")

end Table

/-! ### The rows -/

variable {r : Receiver} {k : Kind} {e : PmInboundEvent} {payload : Value}

/-- **The first row that applies**: for every event there is one. -/
theorem Facts.row_eq (f : Facts) :
    f.row = some (if f.kind = .update then
        if f.done ∧ f.specified then .done else if f.mentioned then .mention else .updated
      else if f.kind = .create then .created else .deleted) := by
  rcases f with ⟨_ | _ | _, done, specified, mentioned, responsible⟩
  · rfl
  · rcases done with _ | _ <;> rcases specified with _ | _ <;> rcases mentioned with _ | _ <;> rfl
  · rfl

/-- An issue that is done and has a spec is in the first. -/
theorem Facts.row_eq_done_iff {f : Facts} (hk : f.kind = .update) :
    f.row = some .done ↔ f.done ∧ f.specified := by
  rw [f.row_eq, if_pos hk]
  split_ifs with hdone hmention
  · exact iff_of_true rfl hdone
  · exact iff_of_false (by decide) hdone
  · exact iff_of_false (by decide) hdone

/-- Another update is in the second, or in the one for the rest. -/
theorem Facts.row_of_update {f : Facts} (hk : f.kind = .update)
    (hdone : ¬(f.done ∧ f.specified)) :
    f.row = some (if f.mentioned then .mention else .updated) := by
  rw [f.row_eq, if_pos hk, if_neg hdone]

/-- What is no update is in one of the other two. -/
theorem Facts.row_of_ne_update {f : Facts} (hk : f.kind ≠ .update) :
    f.row = some (if f.kind = .create then .created else .deleted) := by
  rw [f.row_eq, if_neg hk]

/-- What the normal form of the type is. -/
theorem normType_eq (hkind : e.eventType = k.action ∨ e.eventType = k.normal) :
    normType e = k.normal := by
  unfold normType
  cases k
  all_goals rcases hkind with h | h <;> rw [h] <;> decide

theorem normType_eq_updated_iff (hkind : e.eventType = k.action ∨ e.eventType = k.normal) :
    normType e = lit "issue_updated" ↔ k = .update := by
  rw [normType_eq hkind]
  cases k <;> decide

/-! ### What is gone through -/

/-- **The path of the spec is found** just when the custom fields can be gone through, should
the event not say it. -/
theorem specPath_eq_ok_iff {path : Value} : specPath e payload = .ok path ↔
    (e.specPath = none → iterable (customFields payload)) ∧ path = pathIn e payload := by
  unfold specPath pathIn
  rcases e.specPath with _ | t
  · by_cases hdict : isDict (rawIssue payload)
    · simp only [if_pos hdict, iter]
      by_cases hiter : iterable (customFields payload)
      · rw [if_pos hiter]
        exact ⟨fun h => ⟨fun _ => hiter, (Except.ok.inj h).symm⟩, fun h => congrArg _ h.2.symm⟩
      · rw [if_neg hiter]
        exact iff_of_false (by simp [Except.map]) fun h => hiter (h.1 trivial)
    · have hfields : customFields payload = .list [] := by
        rw [customFields, Value.get_of_not_isDict hdict]
        rfl
      simp only [if_neg hdict, hfields]
      exact ⟨fun h => ⟨fun _ => rfl, (Except.ok.inj h).symm⟩, fun h => congrArg _ h.2.symm⟩
  · exact ⟨fun h => ⟨by simp, (Except.ok.inj h).symm⟩, fun h => congrArg _ h.2.symm⟩

/-- The owner is found just when the repositories can be gone through. -/
theorem repoToAgent_eq_ok_iff {repo : Text} {owner : Option Text} :
    repoToAgent r repo = .ok owner ↔
      (∀ data, r.platform = some data → isDict (platformOr data) ∧ iterable (reposIn r)) ∧
        owner = if r.platform.isSome then ownerIn r repo (elements (reposIn r)) else none := by
  unfold repoToAgent reposIn
  rcases r.platform with _ | data
  · exact ⟨fun h => ⟨by simp, (Except.ok.inj h).symm⟩, fun h => congrArg _ h.2.symm⟩
  · simp only [Option.getD_some, Option.isSome_some, if_true, Option.some.injEq, forall_eq']
    by_cases hdict : isDict (platformOr data)
    · rw [if_pos hdict, iter]
      by_cases hiter : iterable (((platformOr data).get "repos").getD (.list []))
      · rw [if_pos hiter]
        exact ⟨fun h => ⟨⟨hdict, hiter⟩, (Except.ok.inj h).symm⟩, fun h => congrArg _ h.2.symm⟩
      · rw [if_neg hiter]
        exact iff_of_false (by simp [Except.map]) fun h => hiter h.1.2
    · rw [if_neg hdict]
      exact iff_of_false (by simp) fun h => hdict h.1.1

/-- Without `platform.yaml` nobody owns anything. -/
theorem ownerIn_reposIn_of_none {repo : Text} (h : r.platform = none) :
    ownerIn r repo (elements (reposIn r)) = none := by
  rw [reposIn, h]
  rfl

/-- **The responsible agent is found** just when the repositories can be gone through, should
the project have one. -/
theorem busTo_eq_ok_iff {agent : Text} : busTo r e = .ok agent ↔
    (∀ repo, repoOf r e = some repo → repo ≠ [] → ∀ data, r.platform = some data →
      isDict (platformOr data) ∧ iterable (reposIn r)) ∧ agent = responsible r e := by
  unfold busTo responsible
  rcases repoOf r e with _ | repo
  · exact ⟨fun h => ⟨by simp, (Except.ok.inj h).symm⟩, fun h => congrArg _ h.2.symm⟩
  simp only [Option.some.injEq, forall_eq', ne_eq]
  by_cases hrepo : repo = []
  · subst hrepo
    simp only [not_true_eq_false, false_imp_iff, true_and, if_true]
    exact ⟨fun h => (Except.ok.inj h).symm, fun h => congrArg _ h.symm⟩
  · have hfilter : (some repo).filter (fun repo => ¬repo = []) = some repo := by
      simp [Option.filter, hrepo]
    have hmap : ∀ {x : Except Unit (Option Text)} {f : Option Text → Text},
        x.map f = .ok agent ↔ ∃ owner, x = .ok owner ∧ f owner = agent := by
      rintro (_ | owner) f
      · simp [Except.map]
      · simp [Except.map]
    rw [if_neg hrepo, hfilter, Option.bind_some, hmap]
    simp only [repoToAgent_eq_ok_iff, hrepo, not_false_eq_true, true_imp_iff]
    have howner : (if r.platform.isSome then ownerIn r repo (elements (reposIn r)) else none) =
        ownerIn r repo (elements (reposIn r)) := by
      split_ifs with hsome
      · rfl
      · exact (ownerIn_reposIn_of_none (Option.not_isSome_iff_eq_none.mp hsome)).symm
    rw [howner]
    constructor
    · rintro ⟨owner, ⟨hrepos, rfl⟩, rfl⟩
      exact ⟨hrepos, rfl⟩
    · rintro ⟨hrepos, rfl⟩
      exact ⟨_, ⟨hrepos, rfl⟩, rfl⟩

theorem searchable_nil : Searchable [] := fun _ _ _ heq => absurd heq (by simp)

/-- The first journal comes first. -/
theorem searchable_cons_iff {journal : Value} {journals : List Value} :
    Searchable (journal :: journals) ↔
      (iterable (notesOf journal) ∧ (mentions journal → ¬isDict (notesOf journal))) ∧
        (¬mentions journal → Searchable journals) := by
  constructor
  · refine fun h => ⟨h [] journal journals rfl (by simp), fun hno pre next post heq hpre => ?_⟩
    refine h (journal :: pre) next post (by rw [heq]; rfl) ?_
    exact List.forall_mem_cons.mpr ⟨hno, hpre⟩
  · rintro ⟨hfirst, hrest⟩ pre next post heq hpre
    rcases pre with _ | ⟨first, pre⟩
    · obtain ⟨rfl, -⟩ := List.cons.inj heq
      exact hfirst
    · obtain ⟨rfl, htl⟩ := List.cons.inj heq
      obtain ⟨hno, hpre⟩ := List.forall_mem_cons.mp hpre
      exact hrest hno pre next post htl hpre

/-- **The first mention is found and cut** just when the journals can be searched. -/
theorem findMention_eq_ok_iff {journals : List Value} {note : Option Value} :
    findMention journals = .ok note ↔
      Searchable journals ∧ note = (journals.find? mentions).bind fun journal =>
        (sliced 200 (notesOf journal)).toOption := by
  induction journals with
  | nil => exact ⟨fun h => ⟨searchable_nil, (Except.ok.inj h).symm⟩, fun h => congrArg _ h.2.symm⟩
  | cons journal journals ih =>
    rw [searchable_cons_iff, findMention]
    by_cases hiter : iterable (notesOf journal)
    · rw [if_pos hiter]
      by_cases hmention : mentions journal
      · rw [if_pos hmention, List.find?_cons_of_pos hmention]
        rcases hcut : sliced 200 (notesOf journal) with u | cut
        · refine iff_of_false (by simp [Except.map]) fun h => ?_
          obtain ⟨_, hok⟩ := (Value.exists_sliced_iff hiter 200).mpr (h.1.1.2 hmention)
          exact absurd (hcut.symm.trans hok) (by simp)
        · have hdict := (Value.exists_sliced_iff hiter 200).mp ⟨cut, hcut⟩
          rw [Option.bind_some, hcut]
          refine ⟨fun h => ⟨⟨⟨hiter, fun _ => hdict⟩, fun hno => absurd hmention hno⟩, ?_⟩,
            fun h => congrArg _ h.2.symm⟩
          exact (Except.ok.inj h).symm
      · rw [if_neg hmention, List.find?_cons_of_neg hmention, ih]
        exact ⟨fun h => ⟨⟨⟨hiter, fun hyes => absurd hyes hmention⟩, fun _ => h.1⟩, h.2⟩,
          fun h => ⟨h.1.2 hmention, h.2⟩⟩
    · rw [if_neg hiter]
      exact iff_of_false (by simp) fun h => hiter h.1.1.1

/-- There is a note just when there is a mention. -/
theorem isSome_note_iff {journals : List Value} (h : Searchable journals) :
    ((journals.find? mentions).bind fun journal =>
      (sliced 200 (notesOf journal)).toOption).isSome ↔ journals.any mentions := by
  induction journals with
  | nil => exact iff_of_false (by simp) (by simp)
  | cons journal journals ih =>
    obtain ⟨⟨hiter, hdict⟩, hrest⟩ := searchable_cons_iff.mp h
    by_cases hmention : mentions journal
    · obtain ⟨cut, hcut⟩ := (Value.exists_sliced_iff hiter 200).mpr (hdict hmention)
      rw [List.find?_cons_of_pos hmention, Option.bind_some, hcut]
      exact iff_of_true rfl (by simp [hmention])
    · rw [List.find?_cons_of_neg hmention, ih (hrest hmention), List.any_cons,
        Bool.eq_false_of_not_eq_true hmention, Bool.false_or]

/-! ### What is written -/

/-- The message of a row. -/
def messageOf (r : Receiver) (e : PmInboundEvent) (payload : Value) : Row → MessageFile
  | .done => doneMessage r e (pathIn e payload)
  | .mention => mentionMessage r e (noteIn payload)
  | _ => generalMessage r e (responsible r e) (newStatus e payload) (pathIn e payload)

/-- **A message is made just when what is gone through can be gone through**, and it is that of
the first row that applies. -/
theorem routeInboundEvent_eq_ok_iff (hkind : e.eventType = k.action ∨ e.eventType = k.normal)
    {f : MessageFile} {row : Row} (hrow : (facts r k e payload).row = some row) :
    routeInboundEvent r e payload = .ok f ↔
      Traversable r k e payload ∧ f = messageOf r e payload row := by
  have hnever : ¬Traversable r k e payload → ¬(Traversable r k e payload ∧
      f = messageOf r e payload row) := fun hno h => hno h.1
  unfold routeInboundEvent
  rcases hpath : specPath e payload with u | path
  · refine iff_of_false (by simp [bind, Except.bind]) (hnever fun h => ?_)
    exact absurd (hpath.symm.trans (specPath_eq_ok_iff.mpr ⟨h.fields, rfl⟩)) (by simp)
  obtain ⟨hfields, rfl⟩ := specPath_eq_ok_iff.mp hpath
  rcases hto : busTo r e with u | agent
  · refine iff_of_false (by simp [bind, Except.bind]) (hnever fun h => ?_)
    exact absurd (hto.symm.trans (busTo_eq_ok_iff.mpr ⟨h.repos, rfl⟩)) (by simp)
  obtain ⟨hrepos, rfl⟩ := busTo_eq_ok_iff.mp hto
  simp only [bind, Except.bind, pure, Except.pure]
  -- where no journal is searched, the three kinds of values are all there is to read
  have hgeneral : (∀ g : MessageFile, messageOf r e payload row = g →
      (k = .update → (facts r k e payload).row ≠ some .done →
        iterable (rawJournals payload) ∧ Searchable (journalsIn payload)) →
      ((Except.ok g : Except Unit MessageFile) = .ok f ↔
        Traversable r k e payload ∧ f = messageOf r e payload row)) := by
    rintro g rfl hjournals
    exact ⟨fun h => ⟨⟨hfields, hrepos, hjournals⟩, (Except.ok.inj h).symm⟩,
      fun h => congrArg _ h.2.symm⟩
  by_cases hupdate : k = .update
  · rw [if_pos ((normType_eq_updated_iff hkind).mpr hupdate)]
    by_cases hdone : isText (lit "Done") (newStatus e payload) ∧ (pathIn e payload).truthy
    · rw [if_pos hdone]
      have hfirst := (Facts.row_eq_done_iff (f := facts r k e payload) hupdate).mpr hdone
      obtain rfl := Option.some.inj (hfirst.symm.trans hrow)
      exact hgeneral _ rfl fun _ hne => absurd hfirst hne
    · rw [if_neg hdone]
      have hnot : (facts r k e payload).row ≠ some .done := fun h =>
        hdone ((Facts.row_eq_done_iff (f := facts r k e payload) hupdate).mp h)
      rw [Facts.row_of_update (f := facts r k e payload) hupdate hdone, Option.some.injEq] at hrow
      by_cases hiter : iterable (rawJournals payload)
      · rw [iter, if_pos hiter]
        dsimp only
        rcases hfound : findMention (elements (rawJournals payload)) with u | note
        · refine iff_of_false (by simp) (hnever fun h => ?_)
          exact absurd (hfound.symm.trans
            (findMention_eq_ok_iff.mpr ⟨(h.journals hupdate hnot).2, rfl⟩)) (by simp)
        · obtain ⟨hsearch, hnote⟩ := findMention_eq_ok_iff.mp hfound
          have hmention : note.isSome ↔ (facts r k e payload).mentioned := by
            rw [hnote]
            exact isSome_note_iff hsearch
          rcases note with _ | note
          · dsimp only
            rw [if_neg fun h => absurd (hmention.mpr h) (by simp)] at hrow
            exact hgeneral _ (by rw [← hrow]; rfl) fun _ _ => ⟨hiter, hsearch⟩
          · dsimp only
            rw [if_pos (hmention.mp rfl)] at hrow
            refine hgeneral _ ?_ fun _ _ => ⟨hiter, hsearch⟩
            rw [← hrow, messageOf, noteIn, journalsIn, ← hnote]
            rfl
      · rw [iter, if_neg hiter]
        exact iff_of_false (by simp) (hnever fun h => hiter (h.journals hupdate hnot).1)
  · rw [if_neg fun h => hupdate ((normType_eq_updated_iff hkind).mp h)]
    rw [Facts.row_of_ne_update (f := facts r k e payload) hupdate, Option.some.injEq] at hrow
    refine hgeneral _ ?_ fun h => absurd h hupdate
    rw [← hrow]
    split_ifs <;> rfl

/-! ### What has an encoding -/

open Inbox (encodable_append encodable_of_ascii)

open Bus (encodable_decimal encodable_stamp encodable_isoformat encodable_orText)

theorem encodable_intText (n : ℤ) : Encodable (intText n) := by
  rcases n with n | n
  · exact encodable_decimal n
  · exact encodable_append.mpr ⟨by decide, encodable_decimal (n + 1)⟩

/-- The slug of a message is one. -/
theorem isSlug_slug (py : Python) (subject : Text) :
    IsSlug (Bus.stripDashes ((Bus.dashed py subject).take 40)) := by
  have hsub : List.Sublist (Bus.stripDashes ((Bus.dashed py subject).take 40))
      ((Bus.dashed py subject).take 40) :=
    (List.rdropWhile_prefix _ _).sublist.trans (List.dropWhile_suffix _).sublist
  constructor
  · exact hsub.length_le.trans (List.length_take_le _ _)
  · intro c hc
    rcases Inbox.mem_squeeze (List.mem_of_mem_take (hsub.subset hc)) with rfl | ⟨-, h⟩
    · exact .inl rfl
    · simp only [Bool.not_eq_false', Bool.or_eq_true, Bool.and_eq_true, decide_eq_true_eq] at h
      exact .inr h

theorem IsSlug.encodable {t : Text} (h : IsSlug t) : Encodable t :=
  encodable_of_ascii fun c hc => by
    have := h.2 c hc
    omega

/-- **A message has an encoding** just when all that is put into it has one. -/
theorem encodable_pmMessage {py : Python} {i : Bus.Instant}
    {msgType recipient subject body priority : Text} (htype : Encodable msgType)
    (hpriority : Encodable priority) :
    Encodable (pmMessage py i msgType recipient subject body priority).text ↔
      Encodable recipient ∧ Encodable subject ∧ Encodable body := by
  have hslug := (isSlug_slug py subject).encodable
  have hkeys : Encodable (lit "---\n") ∧ Encodable (lit "\n---\n") ∧ Encodable (lit ": ") ∧
      Encodable (lit "\n## ") ∧ Encodable (lit "\n\n") ∧ Encodable (lit "\n") ∧
      Encodable (lit "id") ∧ Encodable (lit "from") ∧ Encodable (lit "bridge-agent") ∧
      Encodable (lit "to") ∧ Encodable (lit "type") ∧ Encodable (lit "priority") ∧
      Encodable (lit "timestamp") ∧ Encodable (lit "status") ∧ Encodable (lit "pending") ∧
      Encodable (lit "-pm-sync-") := by
    decide
  simp only [MessageFile.text, Bus.envelope, pmMessage, encodable_append,
    Inbox.encodable_joinLines, List.map_cons, List.map_nil, List.forall_mem_cons,
    Bus.envelopeLine, hkeys, hslug, htype, hpriority, encodable_stamp, encodable_isoformat,
    true_and, and_true]
  simp

/-- **The message of a row has an encoding** just when what it quotes has one. -/
theorem encodable_messageOf (hkind : e.eventType = k.action ∨ e.eventType = k.normal) (row : Row) :
    Encodable (messageOf r e payload row).text ↔
      ∀ t ∈ quoted r e payload row, Encodable t := by
  have hnormal : Encodable (normType e) := by
    rw [normType_eq hkind]
    cases k <;> decide
  have hbus : Encodable (busType (normType e)) := by
    unfold busType
    split_ifs <;> decide
  have hissue : Encodable (lit "issue #" ++ intText (issueId e)) :=
    encodable_append.mpr ⟨by decide, encodable_intText _⟩
  have hgeneral : Encodable (generalMessage r e (responsible r e) (newStatus e payload)
      (pathIn e payload)).text ↔ ∀ t ∈ [responsible r e, e.issueSubject.getD [],
        lineIf r "status: " (newStatus e payload), lineIf r "spec_path: " (pathIn e payload)],
          Encodable t := by
    have hwords : Encodable (lit "PM ") ∧ Encodable (lit ": ") ∧ Encodable (lit "event_type: ") ∧
        Encodable (lit "\nproject_id: ") ∧ Encodable (lit "\nissue_id: ") ∧
        Encodable (lit "\n") := by
      decide
    rw [generalMessage, encodable_pmMessage hbus (by decide)]
    simp only [encodable_append, hwords, hnormal, encodable_intText, encodable_orText hissue,
      List.forall_mem_cons, true_and]
    simp
  cases row with
  | done =>
    have hwords : Encodable (lit "PM issue #") ∧
        Encodable (lit " marked Done — update spec: ") ∧ Encodable (lit "Issue #") ∧
        Encodable (lit " in project ") ∧ Encodable (lit " transitioned to Done.\nspec-path: ") ∧
        Encodable (lit "\nproject_id: ") ∧ Encodable (lit "spec-agent") := by
      decide
    rw [messageOf, doneMessage, encodable_pmMessage (by decide) (by decide)]
    simp only [encodable_append, hwords, encodable_intText, true_and, and_true, and_self]
    simp [quoted]
  | mention =>
    have hwords : Encodable (lit "PM comment mentions @spec-agent on issue #") ∧
        Encodable (lit "Issue #") ∧
        Encodable (lit " comment contains @spec-agent reference.\nproject_id: ") ∧
        Encodable (lit "\nnote: ") ∧ Encodable (lit "spec-agent") := by
      decide
    rw [messageOf, mentionMessage, encodable_pmMessage (by decide) (by decide)]
    simp only [encodable_append, hwords, encodable_intText, true_and, and_true]
    simp [quoted]
  | created => exact hgeneral
  | updated => exact hgeneral
  | deleted => exact hgeneral

/-! ### The table is followed -/

/-- The message of a row is of its type, and to its recipient. -/
theorem mem_fields_messageOf (hkind : e.eventType = k.action ∨ e.eventType = k.normal) {row : Row}
    (hrow : (facts r k e payload).row = some row) :
    (lit "type", row.msgType) ∈ (messageOf r e payload row).fields ∧
      (lit "to", row.recipient (facts r k e payload)) ∈ (messageOf r e payload row).fields := by
  have hfields : ∀ msgType recipient subject body : Text,
      (lit "type", msgType) ∈
        (pmMessage r.py r.now msgType recipient subject body (lit "normal")).fields ∧
      (lit "to", recipient) ∈
        (pmMessage r.py r.now msgType recipient subject body (lit "normal")).fields := by
    intro msgType recipient subject body
    simp [pmMessage]
  have happlies := List.find?_some hrow
  -- the type of a message that is in none of the first two rows is that of its kind
  have hgeneral : row.msgType = busType k.normal →
      (lit "type", row.msgType) ∈ (generalMessage r e (responsible r e) (newStatus e payload)
          (pathIn e payload)).fields ∧
        (lit "to", responsible r e) ∈ (generalMessage r e (responsible r e) (newStatus e payload)
          (pathIn e payload)).fields := by
    intro htype
    rw [htype, generalMessage, normType_eq hkind]
    exact hfields _ _ _ _
  cases row with
  | done => exact hfields _ _ _ _
  | mention => exact hfields _ _ _ _
  | created =>
    obtain rfl : k = .create := of_decide_eq_true happlies
    exact hgeneral (by decide)
  | updated =>
    obtain rfl : k = .update := of_decide_eq_true happlies
    exact hgeneral (by decide)
  | deleted =>
    obtain rfl : k = .destroy := of_decide_eq_true happlies
    exact hgeneral (by decide)

theorem opens_pmMessage {msgType recipient subject body priority : Text}
    (htakes : r.Takes recipient) :
    r.opens (pmMessage r.py r.now msgType recipient subject body priority).name :=
  htakes _ (isSlug_slug r.py subject)

/-- The file of a row can be opened. -/
theorem opens_messageOf (htakes : ∀ row, r.Takes (Row.recipient (facts r k e payload) row))
    (row : Row) : r.opens (messageOf r e payload row).name := by
  cases row with
  | done => exact opens_pmMessage (htakes .done)
  | mention => exact opens_pmMessage (htakes .mention)
  | created => exact opens_pmMessage (htakes .created)
  | updated => exact opens_pmMessage (htakes .updated)
  | deleted => exact opens_pmMessage (htakes .deleted)

/-- What is done with an event that is routed to a file that can be opened: the file is
written, if its text has an encoding. -/
theorem handleInboundWebhook_of_routed (henabled : r.enabled) (hevent : r.adapter payload = .ok e)
    {f : MessageFile} (hroute : routeInboundEvent r e payload = .ok f) (hopens : r.opens f.name) :
    handleInboundWebhook r payload =
      if Encodable f.text then ([(f.name, f.text)], .ok e.eventType)
      else ([(f.name, [])], .error) := by
  unfold handleInboundWebhook
  rw [if_pos henabled, hevent]
  dsimp only
  rw [hroute]
  dsimp only
  rw [writeText, if_pos hopens]
  split_ifs
  · rfl
  · rfl

/-- And with an event that is not routed. -/
theorem handleInboundWebhook_of_error (henabled : r.enabled) (hevent : r.adapter payload = .ok e)
    (hroute : routeInboundEvent r e payload = .error ()) :
    handleInboundWebhook r payload = ([], .error) := by
  unfold handleInboundWebhook
  rw [if_pos henabled, hevent]
  dsimp only
  rw [hroute]

/-- **When the table is followed.** For every event of one of the three kinds, and whatever
the payload: one message is written, of the type and to the recipient of the first row that
applies, and the response is a success, just when the event and the payload are readable. -/
theorem routes_iff (henabled : r.enabled) (hevent : r.adapter payload = .ok e)
    (hkind : e.eventType = k.action ∨ e.eventType = k.normal)
    (htakes : ∀ row, r.Takes (Row.recipient (facts r k e payload) row)) :
    FollowsTable r k e payload ↔ Readable r k e payload := by
  obtain ⟨row, hrow⟩ : ∃ row, (facts r k e payload).row = some row := ⟨_, Facts.row_eq _⟩
  have hencodable : Encodable (messageOf r e payload row).text ↔
      ∀ row', (facts r k e payload).row = some row' → ∀ t ∈ quoted r e payload row',
        Encodable t := by
    rw [encodable_messageOf hkind]
    refine ⟨fun h row' hrow' => ?_, fun h => h row hrow⟩
    obtain rfl := Option.some.inj (hrow.symm.trans hrow')
    exact h
  have hopens := opens_messageOf htakes row
  constructor
  · rintro ⟨_, f, -, hhandle, -, -⟩
    rcases hroute : routeInboundEvent r e payload with u | g
    · rw [handleInboundWebhook_of_error henabled hevent hroute] at hhandle
      exact absurd (congrArg Prod.snd hhandle) (by simp)
    · obtain ⟨htraversable, rfl⟩ := (routeInboundEvent_eq_ok_iff hkind hrow).mp hroute
      refine ⟨htraversable, hencodable.mp ?_⟩
      by_contra hno
      rw [handleInboundWebhook_of_routed henabled hevent hroute hopens, if_neg hno] at hhandle
      exact absurd (congrArg Prod.snd hhandle) (by simp)
  · intro h
    have hroute := (routeInboundEvent_eq_ok_iff hkind hrow).mpr ⟨h.toTraversable, rfl⟩
    refine ⟨row, messageOf r e payload row, hrow, ?_, mem_fields_messageOf hkind hrow⟩
    rw [handleInboundWebhook_of_routed henabled hevent hroute hopens,
      if_pos (hencodable.mpr h.encodable)]

/-! ### Two comments -/

/-- An update of an issue, of which the adapter says no more. -/
def updated : PmInboundEvent := ⟨lit "update", some 2, some 10, none, none, none⟩

/-- A payload with a comment. -/
def commented (notes : Value) : Value :=
  .dict [(.str (lit "action"), .str (lit "update")),
    (.str (lit "journals"), .list [.dict [(.str (lit "notes"), notes)]])]

/-- A handler whose project is that of the specs. -/
def plainReceiver : Receiver where
  py := Bus.quotingPython
  enabled := true
  adapter _ := .ok updated
  projectMap := [(lit "otaman-specs", 2)]
  platform := some (.dict [(.str (lit "repos"), .list [.dict
    [(.str (lit "name"), .str (lit "otaman-specs")),
      (.str (lit "owner"), .str (lit "spec-agent"))]])])
  now := ⟨0, 0⟩
  opens name := '/'.toNat ∉ name ∧ 0 ∉ name ∧ name.length ≤ 255

/-- A file name that is not too long, and has no slash in it, can be opened. -/
theorem takes_plainReceiver : plainReceiver.Takes (lit "spec-agent") := by
  intro slug hslug
  have hbefore : '/'.toNat ∉ plainReceiver.now.stamp ++ lit "-bridge-to-" ++ lit "spec-agent" ++
      lit "-" ∧ 0 ∉ plainReceiver.now.stamp ++ lit "-bridge-to-" ++ lit "spec-agent" ++ lit "-" ∧
      (plainReceiver.now.stamp ++ lit "-bridge-to-" ++ lit "spec-agent" ++
        lit "-").length ≤ 200 := by
    decide +kernel
  have hslash : '/'.toNat ∉ slug := fun h => by
    have := hslug.2 _ h
    rcases this with h | h | h
    · exact absurd h (by decide)
    · exact absurd h (by decide)
    · exact absurd h (by decide)
  have hzero : 0 ∉ slug := fun h => by
    have := hslug.2 _ h
    omega
  refine decide_eq_true ⟨?_, ?_, ?_⟩
  · rw [List.mem_append, List.mem_append, not_or, not_or]
    exact ⟨⟨hbefore.1, hslash⟩, by decide⟩
  · rw [List.mem_append, List.mem_append, not_or, not_or]
    exact ⟨⟨hbefore.2.1, hzero⟩, by decide⟩
  · have hmd : (lit ".md").length = 3 := by decide
    have := hslug.1
    rw [List.length_append, List.length_append, hmd]
    omega

/-- A comment that mentions the agent goes to it. -/
theorem routes_iff_mention : FollowsTable plainReceiver .update updated
    (commented (.str (lit "Hey @spec-agent please update the task status"))) := by
  refine (routes_iff rfl rfl (.inl rfl) fun row => ?_).mpr ?_
  · cases row <;> exact takes_plainReceiver
  refine ⟨⟨fun _ => rfl, ?_, fun _ _ => ⟨rfl, ?_⟩⟩, ?_⟩
  · rintro repo - - data hdata
    obtain rfl := Option.some.inj hdata
    exact ⟨rfl, rfl⟩
  · exact searchable_cons_iff.mpr ⟨⟨rfl, fun _ => by decide⟩, fun _ => searchable_nil⟩
  · intro row hrow
    have hmention : (facts plainReceiver .update updated
        (commented (.str (lit "Hey @spec-agent please update the task status")))).row =
          some .mention := by
      decide +kernel
    obtain rfl := Option.some.inj (hmention.symm.trans hrow)
    decide +kernel

/-- A change of an issue without a comment, which a tracker says with notes that are null, is
not passed on. -/
theorem not_routes : ¬∀ (r : Receiver) (k : Kind) (e : PmInboundEvent) (payload : Value),
    r.enabled → r.adapter payload = .ok e → (e.eventType = k.action ∨ e.eventType = k.normal) →
      (∀ row, r.Takes (Row.recipient (facts r k e payload) row)) →
      FollowsTable r k e payload := by
  intro h
  obtain ⟨row, f, -, hhandle, -⟩ := h plainReceiver .update updated (commented .none) rfl rfl
    (.inl rfl) (fun row => by cases row <;> exact takes_plainReceiver)
  have herror : handleInboundWebhook plainReceiver (commented .none) = ([], .error) := by
    decide +kernel
  rw [herror] at hhandle
  exact absurd (congrArg Prod.snd hhandle) (by simp)

end Inbound

end Pm

end OtamanBridge
