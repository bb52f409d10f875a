import OtamanBridge.Lib.PyTime
import OtamanBridge.Lib.Run
import OtamanBridge.Pm.Sync

/-!
# One issue for a change

The handler of `pm_sync_handler.py` over runs: bus events come in any order and any number of
times, and `_save_issue_id`, `_load_issue_id`, `_write_pm_sync_yaml` and
`_read_pm_sync_yaml` keep the id of an issue in `issue-map.json` and in the `.pm-sync.yaml` of
the change. The handler itself remembers nothing, so a restart is no step; the tracker
answers some calls and then raises, files cannot be looked at, read or written, and others
write a `.pm-sync.yaml` too.

An approval makes an issue whether or not there is one, so an approval that comes twice makes
two (`OtamanBridge.Pm.not_oneIssue`). Where no approval comes for a change that has its issue,
and the id of an issue is kept when it is made, there is one issue for a change, and every
task updates it (`OtamanBridge.Pm.oneIssue_of_careful`).
-/

namespace OtamanBridge

namespace Pm

open Py

open Bus (BusMessage)

/-! ### The files -/

/-- `issue-map.json`. -/
inductive MapFile
  | absent
  /-- It is no JSON. -/
  | malformed
  /-- It is no UTF-8. -/
  | undecodable
  | json (v : Value)

/-- `.pm-sync.yaml` of a change. -/
inductive YamlFile
  | absent
  /-- It cannot be loaded. -/
  | malformed
  | yaml (v : Value)

/-- How the handler is set up. Two changes may have one directory. -/
structure Site (D : Type) where
  /-- The directory that the name of a change leads to, under the specs. -/
  place : Text → D
  provider : Text
  baseUrl : Text

/-- How a file can be got at. -/
inductive Access
  /-- `is_file` raises: the name is too long, or the directory cannot be searched. -/
  | denied
  /-- It cannot be read. -/
  | fails
  | reads
  deriving DecidableEq

/-- What an event meets. -/
structure World where
  /-- `_specs_root` finds the specs, if it does not raise. -/
  specsRoot : Except Unit Bool
  /-- What `proposal.md` of the change says, if it can be decoded. -/
  description : Except Unit Text
  /-- The directory of the change exists, if `is_dir` does not raise. -/
  changeDir : Except Unit Bool
  /-- How `issue-map.json` can be got at. -/
  mapAccess : Access
  /-- How `.pm-sync.yaml` can be got at. -/
  yamlAccess : Access
  /-- What a write that fails leaves of `issue-map.json`. -/
  mapLeft : Option MapFile
  /-- What a write that fails leaves of `.pm-sync.yaml`. -/
  yamlLeft : Option YamlFile
  /-- How many calls that change something the tracker answers, before one raises. -/
  answers : ℕ
  /-- The id of an issue that is created. -/
  created : ℤ
  /-- The ids and subjects of `list_issues`, which may fail. -/
  listed : Option (List (ℤ × Text))

/-- An event that was handled: what was asked of the adapter, how many of the calls it
answered, and the id of an issue that it created. -/
structure Delivery where
  event : BusMessage
  calls : List Call
  answers : ℕ
  created : ℤ

/-- The files, and what was handled, the newest first. -/
structure State (D : Type) where
  issueMap : MapFile
  pmSyncYaml : D → YamlFile
  log : List Delivery

variable {D : Type} (h : Handler) (site : Site D)

/-! ### Reading and writing an id -/

/-- `int(v)`. -/
def toInt : Value → Except Unit ℤ
  | .int n => .ok n
  | v => h.int v

/-- `str` of an integer. -/
def intText : ℤ → Text
  | .ofNat n => decimal n
  | .negSucc n => lit "-" ++ decimal (n + 1)

/-- The key that `json.dumps` writes, if it writes the dictionary at all. -/
def jsonKey : Value → Option Text
  | .str t => some t
  | .int n => some (intText n)
  | .bool b => some (lit (if b then "true" else "false"))
  | .none => some (lit "null")
  | .float repr => some (lit (match repr with
    | "nan" => "NaN"
    | "inf" => "Infinity"
    | "-inf" => "-Infinity"
    | r => r))
  | .date .. | .list _ | .dict _ => none

/-- `mapping[key] = v`. -/
def assign (key : Text) (v : Value) : List (Value × Value) → List (Value × Value)
  | [] => [(.str key, v)]
  | (.str k, x) :: items =>
    if k = key then (.str k, v) :: items else (.str k, x) :: assign key v items
  | item :: items => item :: assign key v items

/-- The mapping that `_save_issue_id` starts from. -/
def MapFile.mapping : MapFile → Option (List (Value × Value))
  | .absent | .malformed => some []
  | .undecodable => none
  | .json (.dict items) => some items
  | .json _ => none

/-- `int(val)` in `_load_issue_id`, where a `ValueError` is no id. -/
def loadedId (v : Value) : Except Unit (Option ℤ) :=
  match toInt h v, v with
  | .ok n, _ => .ok (some n)
  | .error (), .str _ | .error (), .float "nan" => .ok none
  | .error (), _ => .error ()

/-- `_load_issue_id`. -/
def MapFile.loadIssueId (file : MapFile) (changeName : Value) : Except Unit (Option ℤ) :=
  match file, changeName with
  | .json (.dict items), .str t =>
    match Bus.lookup (.dict items) t with
    | none | some .none => .ok none
    | some v => loadedId h v
  | .json (.dict _), .list _ | .json (.dict _), .dict _ => .error ()
  | .json (.dict _), _ => .ok none
  | .json _, _ => .error ()
  | _, _ => .ok none

/-- `change_issue_id`, of a file that `_read_pm_sync_yaml` can make one of. -/
def YamlFile.changeIssueId : YamlFile → Option ℤ
  | .yaml v =>
    match v.get "change_issue_id" with
    | none | some .none => none
    | some x => (toInt h x).toOption
  | _ => none

/-- What `_write_pm_sync_yaml` dumps, if the file is one that has tasks to keep or none. -/
def Site.rewritten (file : YamlFile) (issue : ℤ) : Option Value :=
  let data := [(.str (lit "provider"), .str site.provider),
    (.str (lit "base_url"), .str site.baseUrl),
    (.str (lit "change_issue_id"), .int issue)]
  match file with
  | .absent | .malformed => some (.dict data)
  | .yaml v =>
    if v.truthy then
      match v with
      | .dict items =>
        match (Value.dict items).get "tasks" with
        | some tasks =>
          some (.dict (data ++ if tasks.truthy then [(.str (lit "tasks"), tasks)] else []))
        | none => some (.dict data)
      | _ => none
    else some (.dict data)

/-- `_read_proposal_description`. -/
def readProposalDescription (w : World) (changeName : Value) : Except Unit Text :=
  match w.specsRoot, changeName with
  | .error (), _ => .error ()
  | .ok false, _ => .ok []
  | .ok true, .str _ => w.description
  | .ok true, _ => .error ()

namespace State

variable (s : State D) (w : World)

/-- `issue-map.json`, as it is read. -/
def readMap : Except Unit MapFile :=
  match w.mapAccess, s.issueMap with
  | .denied, _ => .error ()
  | .fails, .absent => .ok .absent
  | .fails, _ => .ok .malformed
  | .reads, file => .ok file

/-- A `.pm-sync.yaml`, as it is read. -/
def readYaml (d : D) : Except Unit YamlFile :=
  match w.yamlAccess with
  | .denied => .error ()
  | .fails => .ok .malformed
  | .reads => .ok (s.pmSyncYaml d)

/-- An event was handled. -/
def note (x : Delivery) : State D := { s with log := x :: s.log }

end State

/-- `_read_pm_sync_yaml`. -/
def readPmSyncYaml (s : State D) (w : World) (changeName : Value) : Except Unit (Option ℤ) :=
  match w.specsRoot, changeName with
  | .error (), _ => .error ()
  | .ok false, _ => .ok none
  | .ok true, .str t => (s.readYaml w (site.place t)).map (YamlFile.changeIssueId h)
  | .ok true, _ => .error ()

variable [DecidableEq D]

/-- A `.pm-sync.yaml` is written. -/
def State.putYaml (s : State D) (d : D) (file : YamlFile) : State D :=
  { s with pmSyncYaml := Function.update s.pmSyncYaml d file }

/-- `_write_pm_sync_yaml`: the files after it, and whether it raises. The look at the file
itself is within its `try`. -/
def writePmSyncYaml (s : State D) (w : World) (changeName : Value) (issue : ℤ) :
    State D × Except Unit Unit :=
  match w.specsRoot, changeName with
  | .error (), _ => (s, .error ())
  | .ok false, _ => (s, .ok ())
  | .ok true, .str t =>
    match w.changeDir with
    | .error () => (s, .error ())
    | .ok false => (s, .ok ())
    | .ok true =>
      match (s.readYaml w (site.place t)).toOption.bind (site.rewritten · issue) with
      | some v => (s.putYaml (site.place t) (w.yamlLeft.getD (.yaml v)), .ok ())
      | none => (s, .ok ())
  | .ok true, _ => (s, .error ())

/-- `_save_issue_id` and `_write_pm_sync_yaml`. -/
def saveIssue (s : State D) (w : World) (changeName : Value) (issue : ℤ) :
    State D × Except Unit Unit :=
  match (s.readMap w).toOption.bind MapFile.mapping, jsonKey changeName with
  | some items, some key =>
    match w.mapLeft with
    | some left => ({ s with issueMap := left }, .error ())
    | none =>
      writePmSyncYaml site { s with issueMap := .json (.dict (assign key (.int issue) items)) } w
        changeName issue
  | _, _ => (s, .error ())

/-- The handler before these files. A create that raises is one that nothing comes after. -/
def view (s : State D) (w : World) : Handler :=
  { h with
    int := toInt h
    readProposalDescription := readProposalDescription w
    created := fun _ => w.created
    saveIssue := fun c i => if w.answers = 0 then .error () else (saveIssue site s w c i).2
    readPmSyncYaml := readPmSyncYaml h site s w
    loadIssueId := fun c => (s.readMap w).bind fun file => file.loadIssueId h c
    listIssues := w.listed }

/-! ### The events -/

/-- The change that a call makes an issue for. -/
def Call.change : Call → Option Value
  | .createIssue sc => some sc.changeName
  | _ => none

/-- The issue whose state a call sets. -/
def Call.updated : Call → Option ℤ
  | .updateIssue issue _ => some issue
  | _ => none

namespace Delivery

variable (x : Delivery)

/-- The changes that an issue was created for, with its id. -/
def made : List (Value × ℤ) :=
  ((x.calls.take x.answers).filterMap Call.change).map fun c => (c, x.created)

/-- The issues whose state was set. -/
def updated : List ℤ := x.calls.filterMap Call.updated

end Delivery

/-- The issues that were created. -/
def State.made (s : State D) : List (Value × ℤ) := s.log.flatMap Delivery.made

/-- What is asked of the adapter, up to a call that raises. -/
def deliver (s : State D) (m : BusMessage) (w : World) : Delivery where
  event := m
  calls := (handleEvent (view h site s w) m).take (w.answers + 1)
  answers := w.answers
  created := w.created

/-- What a step is told. -/
inductive Label (D : Type)
  /-- An event comes in, for the first time or again. -/
  | event (m : BusMessage) (w : World)
  /-- Someone else writes a `.pm-sync.yaml`, or takes it away. -/
  | edit (d : D) (file : YamlFile)

/-- `handle_event`. -/
def handle (s : State D) (m : BusMessage) (w : World) : State D :=
  let x := deliver h site s m w
  match x.made with
  | [] => s.note x
  | (c, issue) :: _ => (saveIssue site s w c issue).1.note x

/-- One step. -/
def step (s : State D) : Label D → Option (State D)
  | .event m w => some (handle h site s m w)
  | .edit d file => some (s.putYaml d file)

/-! ### What is to hold -/

/-- A task of this change. -/
def IsTask (py : Bus.Python) (m : BusMessage) (changeName : Value) : Prop :=
  m.type py ∈ ["task-assignment", "task-complete"].map lit ∧
    orNone m "change" = some changeName

/-- **One issue for a change**: no two calls that create an issue for it succeed, and after
one has, every task of the change sets the state of its issue, and of no other. -/
structure OneIssue (py : Bus.Python) (log : List Delivery) : Prop where
  once : ((log.flatMap Delivery.made).map Prod.fst).Nodup
  updates : log.Pairwise fun newer older => ∀ c issue, (c, issue) ∈ older.made →
    IsTask py newer.event c → newer.updated = [issue]

/-- The name of a change that is a text. -/
def nameText : Value → Option Text
  | .str t => some t
  | _ => none

/-- The directory of the change is found. -/
def World.ReachesChange (w : World) : Prop :=
  w.specsRoot.toOption = some true ∧ w.changeDir.toOption = some true

instance (w : World) : Decidable w.ReachesChange :=
  inferInstanceAs (Decidable (_ ∧ _))

/-- **An approval that is careful**: the change has no issue yet, and the id of the one it
makes is kept. The name is a text; the map is read, unless there is nothing in it to keep, and
written; and no other id stands in the `.pm-sync.yaml` of the change, nor in its directory
that of another change. -/
structure CarefulApproval (s : State D) (w : World) (changeName : Value) : Prop where
  isText : (nameText changeName).isSome
  new : ∀ p ∈ s.made, nameText p.1 ≠ nameText changeName
  mapReads : w.mapAccess = .reads ∨ s.made.length = 0
  mapping : ((s.readMap w).toOption.bind MapFile.mapping).isSome
  mapLeft : w.mapLeft.isNone
  apart : w.ReachesChange → ∀ p ∈ s.made, ∀ t ∈ nameText p.1,
    ∀ t' ∈ nameText changeName, site.place t ≠ site.place t'
  stale : ∀ t ∈ nameText changeName,
    (w.ReachesChange ∧ ((s.readYaml w (site.place t)).toOption.bind
      (site.rewritten · w.created)).isSome) ∨
    ∀ issue ∈ (s.pmSyncYaml (site.place t)).changeIssueId h, issue = w.created
  yamlLeft : ∀ left ∈ w.yamlLeft, ∀ issue ∈ left.changeIssueId h, issue = w.created

/-- A task of a change that has its issue finds the id: neither the search for the specs nor
the look at the `.pm-sync.yaml` raises, and one of the files can be read and has it. -/
def CarefulTask (s : State D) (w : World) (changeName : Value) : Prop :=
  ∀ p ∈ s.made, ∀ t ∈ nameText p.1, nameText changeName = some t →
    (w.specsRoot.toOption = some false ∨
      w.specsRoot.toOption = some true ∧ w.yamlAccess ≠ .denied) ∧
    (w.mapAccess = .reads ∨ w.specsRoot.toOption = some true ∧ w.yamlAccess = .reads ∧
      ((s.pmSyncYaml (site.place t)).changeIssueId h).isSome)

/-- No id but that of its issue is put into the `.pm-sync.yaml` of a change. -/
def CarefulEdit (s : State D) (d : D) (file : YamlFile) : Prop :=
  ∀ p ∈ s.made, ∀ t ∈ nameText p.1, site.place t = d →
    ∀ issue ∈ file.changeIssueId h, issue = p.2

/-- **The careful steps.** -/
def Careful (s : State D) : Label D → Prop
  | .event m w => ∀ c ∈ orNone m "change",
    (h.enabled ∧ m.type h.py = lit "spec-change-approved" ∧ w.answers ≠ 0 →
      CarefulApproval h site s w c) ∧
    (m.type h.py ∈ ["task-assignment", "task-complete"].map lit → CarefulTask h site s w c)
  | .edit d file => CarefulEdit h site s d file

/-! ### What the files keep -/

/-- The files keep the id of an issue: the map has it, and no other stands in the
`.pm-sync.yaml`. -/
structure Kept (s : State D) (t : Text) (issue : ℤ) : Prop where
  inMap : ∃ items, s.issueMap = .json (.dict items) ∧
    Bus.lookup (.dict items) t = some (.int issue)
  inYaml : ∀ j ∈ (s.pmSyncYaml (site.place t)).changeIssueId h, j = issue

/-- What is known of the files and of what was handled. -/
structure Known (s : State D) : Prop where
  enabled : s.made ≠ [] → h.enabled
  kept : ∀ c issue, (c, issue) ∈ s.made → ∃ t, nameText c = some t ∧ Kept h site s t issue
  one : OneIssue h.py s.log

variable {h site} {s s' : State D} {w : World} {m : BusMessage} {c : Value} {t : Text} {issue : ℤ}

theorem nameText_eq_some (hc : nameText c = some t) : c = .str t := by
  cases c with
  | str t' => rw [Option.some.inj hc]
  | none | bool b | int n | float repr | date type str | list items | dict items =>
    exact absurd hc (by simp [nameText])

theorem lookup_cons (k x : Value) (items : List (Value × Value)) (key : Text) :
    Bus.lookup (.dict ((k, x) :: items)) key =
      if nameText k = some key then some x else Bus.lookup (.dict items) key := by
  cases k with
  | str t => by_cases htext : t = key <;> simp [Bus.lookup, nameText, htext]
  | none | bool b | int n | float repr | date type str | list items | dict items =>
    simp [Bus.lookup, nameText]

/-- A name that is assigned is found, and the others are as they were. -/
theorem lookup_assign (key key' : Text) (v : Value) (items : List (Value × Value)) :
    Bus.lookup (.dict (assign key v items)) key' =
      if key = key' then some v else Bus.lookup (.dict items) key' := by
  fun_induction assign key v items with
  | case1 =>
    rw [lookup_cons]
    simp [nameText]
  | case2 x items =>
    rw [lookup_cons, lookup_cons]
    by_cases hkey : key = key' <;> simp [nameText, hkey]
  | case3 k x items hk ih =>
    rw [lookup_cons, lookup_cons, ih]
    by_cases hkey : k = key'
    · have hne : key ≠ key' := fun h => hk (hkey.trans h.symm)
      simp [nameText, hkey, hne]
    · simp [nameText, hkey]
  | case4 item items hitem ih =>
    obtain ⟨k, x⟩ := item
    have hk : nameText k ≠ some key' := fun h => hitem key' x (by rw [nameText_eq_some h])
    rw [lookup_cons, lookup_cons, ih, if_neg hk, if_neg hk]

/-! ### What is asked of the adapter -/

/-- Nothing else makes an issue. -/
theorem change_otherCalls (v : Handler) (e : Event) :
    (otherCalls v e).filterMap Call.change = [] := by
  refine List.filterMap_eq_nil_iff.mpr fun call hcall => ?_
  cases call with
  | createIssue sc => exact absurd hcall createIssue_not_mem_otherCalls
  | updateIssue issue status => rfl
  | addComment issue comment => rfl

/-- An approval makes an issue with its first call, if it makes one. -/
theorem approvalCalls_cases (v : Handler) (e : Event) (c : Value) :
    approvalCalls v e c = [] ∨ ∃ sc rest, approvalCalls v e c = .createIssue sc :: rest ∧
      sc.changeName = c ∧ rest.filterMap Call.change = [] := by
  unfold approvalCalls
  split
  · exact .inl rfl
  next sc hsc =>
    refine .inr ⟨sc, _, rfl, specChange_changeName hsc, ?_⟩
    split
    · rfl
    · split_ifs <;> rfl

/-- An event makes no issue, or it is an approval and makes one with its first call. -/
theorem handleEvent_cases (v : Handler) (m : BusMessage) :
    (handleEvent v m).filterMap Call.change = [] ∨
      ∃ sc rest, handleEvent v m = .createIssue sc :: rest ∧
        rest.filterMap Call.change = [] ∧ v.enabled ∧
        m.type v.py = lit "spec-change-approved" ∧ orNone m "change" = some sc.changeName := by
  unfold handleEvent
  split_ifs with henabled
  · unfold dispatchOutbound
    dsimp only
    split
    next c hchange =>
      split_ifs with htype
      · rcases approvalCalls_cases v _ c with hnone | ⟨sc, rest, hcalls, rfl, hrest⟩
        · exact .inl (by rw [hnone]; rfl)
        · exact .inr ⟨sc, rest, hcalls, hrest, henabled, htype, hchange⟩
      · exact .inl (change_otherCalls v _)
    · exact .inl (change_otherCalls v _)
  · exact .inl rfl

variable (h site) in
/-- **When an issue is made**: for the change that an approval names, if the tracker
answers. -/
theorem made_deliver (s : State D) (m : BusMessage) (w : World) :
    (deliver h site s m w).made = [] ∨
      ∃ c, (deliver h site s m w).made = [(c, w.created)] ∧ h.enabled ∧
        m.type h.py = lit "spec-change-approved" ∧ orNone m "change" = some c ∧
        w.answers ≠ 0 := by
  have hmade : (deliver h site s m w).made =
      (((handleEvent (view h site s w) m).take w.answers).filterMap Call.change).map
        fun c => (c, w.created) := by
    simp [deliver, Delivery.made, List.take_take]
  have htake : ∀ {calls : List Call} n, calls.filterMap Call.change = [] →
      (calls.take n).filterMap Call.change = [] := by
    intro calls n hnone
    refine List.filterMap_eq_nil_iff.mpr fun call hcall => ?_
    exact List.filterMap_eq_nil_iff.mp hnone call (List.mem_of_mem_take hcall)
  rw [hmade]
  rcases handleEvent_cases (view h site s w) m with
    hnone | ⟨sc, rest, hcalls, hrest, henabled, htype, hchange⟩
  · exact .inl (by rw [htake w.answers hnone, List.map_nil])
  · rcases Nat.eq_zero_or_pos w.answers with hzero | hpos
    · exact .inl (by rw [hzero, List.take_zero]; rfl)
    · obtain ⟨n, hn⟩ := Nat.exists_eq_add_of_lt hpos
      refine .inr ⟨sc.changeName, ?_, henabled, htype, hchange, hpos.ne'⟩
      rw [hcalls, hn, Nat.zero_add, List.take_succ_cons, List.filterMap_cons]
      simp [Call.change, htake n hrest]

/-- A task sets the state of the issue that is found, and of no other. -/
theorem taskCalls_eq {v : Handler} {e : Event} {status : Status}
    (hresolve : resolveIssueId v e.changeName e.subject = .ok (some issue)) :
    ∃ rest, taskCalls v e status = .updateIssue issue status :: rest ∧
      ∀ call ∈ rest, call.updated = none := by
  unfold taskCalls
  rw [hresolve]
  refine ⟨_, rfl, fun call hcall => ?_⟩
  split_ifs at hcall
  · obtain rfl := List.mem_singleton.mp hcall
    rfl
  · exact absurd hcall List.not_mem_nil

theorem handleEvent_task {v : Handler} (henabled : v.enabled) (htask : IsTask v.py m c)
    (hresolve : ∀ subject, resolveIssueId v (some c) subject = .ok (some issue)) :
    ∃ status rest, handleEvent v m = .updateIssue issue status :: rest ∧
      ∀ call ∈ rest, call.updated = none := by
  obtain ⟨htype, hchange⟩ := htask
  simp only [handleEvent, henabled, if_true, dispatchOutbound, hchange, otherCalls]
  simp only [List.map_cons, List.map_nil, List.mem_cons, List.not_mem_nil, or_false] at htype
  rcases htype with htype | htype
  · rw [htype, if_neg (by decide), if_pos rfl]
    exact ⟨_, taskCalls_eq (hresolve _)⟩
  · rw [htype, if_neg (by decide), if_neg (by decide), if_pos rfl]
    exact ⟨_, taskCalls_eq (hresolve _)⟩

/-- **What a task updates**, where the id is found. -/
theorem updated_deliver (henabled : h.enabled) (htask : IsTask h.py m c)
    (hresolve : ∀ subject, resolveIssueId (view h site s w) (some c) subject = .ok (some issue)) :
    (deliver h site s m w).updated = [issue] := by
  obtain ⟨status, rest, hcalls, hrest⟩ :=
    handleEvent_task (v := view h site s w) henabled htask hresolve
  unfold Delivery.updated deliver
  rw [hcalls, List.take_succ_cons, List.filterMap_cons]
  refine congrArg (issue :: ·) (List.filterMap_eq_nil_iff.mpr fun call hcall => ?_)
  exact hrest call (List.mem_of_mem_take hcall)

/-! ### An id that is kept is found -/

omit [DecidableEq D] in
/-- The `.pm-sync.yaml` says nothing else. -/
theorem Kept.readPmSyncYaml (hkept : Kept h site s t issue)
    (hlook : w.specsRoot.toOption = some false ∨
      w.specsRoot.toOption = some true ∧ w.yamlAccess ≠ .denied) :
    readPmSyncYaml h site s w (.str t) = .ok (some issue) ∨
      readPmSyncYaml h site s w (.str t) = .ok none ∧
        ¬(w.specsRoot.toOption = some true ∧ w.yamlAccess = .reads ∧
          ((s.pmSyncYaml (site.place t)).changeIssueId h).isSome) := by
  unfold Pm.readPmSyncYaml State.readYaml
  rcases hroot : w.specsRoot with u | _ | _
  · exact absurd hlook (by simp [hroot, Except.toOption])
  · exact .inr (by simp [Except.toOption])
  · rcases haccess : w.yamlAccess with _ | _ | _
    · exact absurd hlook (by simp [hroot, haccess, Except.toOption])
    · exact .inr (by simp [Except.map, YamlFile.changeIssueId])
    · rcases hid : (s.pmSyncYaml (site.place t)).changeIssueId h with _ | j
      · exact .inr (by simp [Except.map, hid])
      · obtain rfl := hkept.inYaml j hid
        exact .inl (by simp [Except.map, hid])

omit [DecidableEq D] in
theorem State.readMap_of_reads (hreads : w.mapAccess = .reads) : s.readMap w = .ok s.issueMap := by
  simp [State.readMap, hreads]

omit [DecidableEq D] in
/-- And the map has it. -/
theorem Kept.loadIssueId (hkept : Kept h site s t issue) :
    s.issueMap.loadIssueId h (.str t) = .ok (some issue) := by
  obtain ⟨items, hmap, hlookup⟩ := hkept.inMap
  simp [hmap, MapFile.loadIssueId, hlookup, loadedId, toInt]

/-- **The id of an issue is found**, where the files keep it and can be read. -/
theorem Kept.resolveIssueId (hkept : Kept h site s t issue)
    (hlook : w.specsRoot.toOption = some false ∨
      w.specsRoot.toOption = some true ∧ w.yamlAccess ≠ .denied)
    (hread : w.mapAccess = .reads ∨ w.specsRoot.toOption = some true ∧ w.yamlAccess = .reads ∧
      ((s.pmSyncYaml (site.place t)).changeIssueId h).isSome) (subject : Text) :
    resolveIssueId (view h site s w) (some (.str t)) subject = .ok (some issue) := by
  rcases hkept.readPmSyncYaml hlook with hyaml | ⟨hyaml, hnot⟩
  · simp [Pm.resolveIssueId, view, hyaml, bind, Except.bind, pure, Except.pure]
  · have hmap := State.readMap_of_reads (s := s) (hread.resolve_right hnot)
    simp [Pm.resolveIssueId, view, hyaml, hmap, hkept.loadIssueId, bind, Except.bind, pure,
      Except.pure]

/-! ### An id is kept -/

omit [DecidableEq D] in
/-- What is dumped has the id. -/
theorem changeIssueId_rewritten {file : YamlFile} {v : Value}
    (hv : site.rewritten file issue = some v) : (YamlFile.yaml v).changeIssueId h = some issue := by
  have hdata : ∀ items : List (Value × Value), (YamlFile.yaml (.dict ((.str (lit "provider"),
      .str site.provider) :: (.str (lit "base_url"), .str site.baseUrl) ::
      (.str (lit "change_issue_id"), .int issue) :: items))).changeIssueId h = some issue := by
    intro items
    have hne : lit "provider" ≠ lit "change_issue_id" ∧ lit "base_url" ≠ lit "change_issue_id" := by
      decide
    simp [YamlFile.changeIssueId, Value.get, hne.1, hne.2, toInt, Except.toOption]
  unfold Site.rewritten at hv
  dsimp only at hv
  split at hv
  · obtain rfl := Option.some.inj hv
    exact hdata _
  · obtain rfl := Option.some.inj hv
    exact hdata _
  · split_ifs at hv
    · split at hv
      · split at hv
        · obtain rfl := Option.some.inj hv
          exact hdata _
        · obtain rfl := Option.some.inj hv
          exact hdata _
      · exact absurd hv (by simp)
    · obtain rfl := Option.some.inj hv
      exact hdata _

variable (site) in
/-- **What is written**: the `.pm-sync.yaml` of the change, where there is a place for it. -/
theorem writePmSyncYaml_cases (s : State D) (w : World) (t : Text) (issue : ℤ) :
    (¬(w.ReachesChange ∧ ((s.readYaml w (site.place t)).toOption.bind
        (site.rewritten · issue)).isSome) ∧
      (writePmSyncYaml site s w (.str t) issue).1 = s) ∨
    w.ReachesChange ∧ ∃ file v, site.rewritten file issue = some v ∧
      (writePmSyncYaml site s w (.str t) issue).1 =
        s.putYaml (site.place t) (w.yamlLeft.getD (.yaml v)) := by
  unfold writePmSyncYaml World.ReachesChange
  rcases w.specsRoot with u | _ | _
  · exact .inl (by simp [Except.toOption])
  · exact .inl (by simp [Except.toOption])
  · rcases w.changeDir with u | _ | _
    · exact .inl (by simp [Except.toOption])
    · exact .inl (by simp [Except.toOption])
    · rcases hv : (s.readYaml w (site.place t)).toOption.bind (site.rewritten · issue) with _ | v
      · exact .inl (by simp [hv])
      · obtain ⟨file, -, hfile⟩ := Option.bind_eq_some_iff.mp hv
        exact .inr ⟨⟨rfl, rfl⟩, file, v, hfile, by simp [hv]⟩

/-- A `.pm-sync.yaml` is written that says nothing else of the changes that are kept in its
directory. -/
theorem Kept.putYaml {d : D} {file : YamlFile} (hkept : Kept h site s t issue)
    (hfile : site.place t = d → ∀ j ∈ file.changeIssueId h, j = issue) :
    Kept h site (s.putYaml d file) t issue := by
  refine ⟨hkept.inMap, fun j hj => ?_⟩
  unfold State.putYaml at hj
  dsimp only at hj
  rcases eq_or_ne (site.place t) d with heq | hne
  · rw [heq, Function.update_self] at hj
    exact hfile heq j hj
  · rw [Function.update_of_ne hne] at hj
    exact hkept.inYaml j hj

omit [DecidableEq D] in
/-- The id of another issue is put into the map. -/
theorem Kept.assign {items : List (Value × Value)} {t' : Text} {issue' : ℤ}
    (hkept : Kept h site s t' issue') (hne : t ≠ t') (hreads : w.mapAccess = .reads)
    (hitems : (s.readMap w).toOption.bind MapFile.mapping = some items) :
    Kept h site
      { s with issueMap := .json (.dict (Pm.assign t (.int issue) items)) } t' issue' := by
  obtain ⟨items', hjson, hlookup⟩ := hkept.inMap
  rw [State.readMap_of_reads hreads, hjson] at hitems
  obtain rfl := Option.some.inj hitems
  refine ⟨⟨_, rfl, ?_⟩, hkept.inYaml⟩
  rw [lookup_assign, if_neg hne, hlookup]

/-- The `.pm-sync.yaml` of a change in another directory is written. -/
theorem Kept.write {t' : Text} {issue' : ℤ} (hkept : Kept h site s t' issue')
    (hapart : w.ReachesChange → site.place t' ≠ site.place t) :
    Kept h site (writePmSyncYaml site s w (.str t) issue).1 t' issue' := by
  rcases writePmSyncYaml_cases site s w t issue with ⟨-, heq⟩ | ⟨hreaches, -, v, -, heq⟩
  · rw [heq]
    exact hkept
  · rw [heq]
    exact hkept.putYaml fun hplace => absurd hplace (hapart hreaches)

/-- Its own is written, over one that has no other id if it stays. -/
theorem kept_write {items : List (Value × Value)} (hmap : s.issueMap = .json (.dict items))
    (hlookup : Bus.lookup (.dict items) t = some (.int issue))
    (hstale : (w.ReachesChange ∧ ((s.readYaml w (site.place t)).toOption.bind
        (site.rewritten · issue)).isSome) ∨
      ∀ j ∈ (s.pmSyncYaml (site.place t)).changeIssueId h, j = issue)
    (hleft : ∀ left ∈ w.yamlLeft, ∀ j ∈ left.changeIssueId h, j = issue) :
    Kept h site (writePmSyncYaml site s w (.str t) issue).1 t issue := by
  rcases writePmSyncYaml_cases site s w t issue with
    ⟨hnot, heq⟩ | ⟨-, file, v, hv, heq⟩
  · rw [heq]
    exact ⟨⟨items, hmap, hlookup⟩, hstale.resolve_left hnot⟩
  · rw [heq]
    refine ⟨⟨items, hmap, hlookup⟩, fun j hj => ?_⟩
    simp only [State.putYaml, Function.update_self] at hj
    rcases hyaml : w.yamlLeft with _ | left
    · rw [hyaml, Option.getD_none, changeIssueId_rewritten hv] at hj
      exact (Option.some.inj hj).symm
    · rw [hyaml, Option.getD_some] at hj
      exact hleft left hyaml j hj

/-- **A careful approval keeps its id, and those of the others.** -/
theorem CarefulApproval.kept (hcareful : CarefulApproval h site s w c)
    (hknown : ∀ c issue, (c, issue) ∈ s.made →
      ∃ t, nameText c = some t ∧ Kept h site s t issue) :
    ∀ c' issue, (c', issue) ∈ (c, w.created) :: s.made →
      ∃ t, nameText c' = some t ∧ Kept h site (saveIssue site s w c w.created).1 t issue := by
  obtain ⟨t, ht⟩ := Option.isSome_iff_exists.mp hcareful.isText
  obtain rfl := nameText_eq_some ht
  obtain ⟨items, hitems⟩ := Option.isSome_iff_exists.mp hcareful.mapping
  have hleft : w.mapLeft = none := Option.isNone_iff_eq_none.mp hcareful.mapLeft
  have hsave : (saveIssue site s w (.str t) w.created).1 = (writePmSyncYaml site
      { s with issueMap := .json (.dict (assign t (.int w.created) items)) } w (.str t)
        w.created).1 := by
    simp only [saveIssue, hitems, jsonKey, hleft]
  rw [hsave]
  intro c' issue hmem
  -- the new issue is written now; the older ones are of other changes, in other directories
  rcases List.mem_cons.mp hmem with heq | hmade
  · obtain ⟨rfl, rfl⟩ := Prod.mk.inj heq
    refine ⟨t, ht, kept_write rfl ?_ (hcareful.stale t ht) hcareful.yamlLeft⟩
    rw [lookup_assign, if_pos rfl]
  · obtain ⟨t', ht', hkept⟩ := hknown c' issue hmade
    have hne : t ≠ t' := by
      rintro rfl
      exact hcareful.new _ hmade ht'
    have hreads : w.mapAccess = .reads := hcareful.mapReads.resolve_right fun hnil =>
      absurd hmade (by rw [List.length_eq_zero_iff.mp hnil]; exact List.not_mem_nil)
    exact ⟨t', ht', (hkept.assign hne hreads hitems).write fun hw =>
      hcareful.apart hw _ hmade t' ht' t ht⟩

/-! ### Runs -/

omit [DecidableEq D] in
theorem made_note (s : State D) (x : Delivery) : (s.note x).made = x.made ++ s.made := rfl

variable (site) in
theorem log_saveIssue (s : State D) (w : World) (t : Text) (issue : ℤ) :
    (saveIssue site s w (.str t) issue).1.log = s.log := by
  have hwrite : ∀ s : State D, (writePmSyncYaml site s w (.str t) issue).1.log = s.log := by
    intro s
    rcases writePmSyncYaml_cases site s w t issue with ⟨-, heq⟩ | ⟨-, -, v, -, heq⟩
    · rw [heq]
    · rw [heq]
      rfl
  unfold saveIssue
  split
  · split
    · rfl
    · exact hwrite _
  · rfl

/-- A careful task updates the issue of its change. -/
theorem Known.updated (hknown : Known h site s) (hcareful : CarefulTask h site s w c)
    (hmade : (c, issue) ∈ s.made) (htask : IsTask h.py m c) :
    (deliver h site s m w).updated = [issue] := by
  obtain ⟨t, ht, hkept⟩ := hknown.kept c issue hmade
  obtain rfl := nameText_eq_some ht
  exact updated_deliver (hknown.enabled (List.ne_nil_of_mem hmade)) htask
    (hkept.resolveIssueId (hcareful _ hmade t ht rfl).1 (hcareful _ hmade t ht rfl).2)

omit [DecidableEq D] in
/-- An event that makes no issue for a change that has one keeps to the rule. -/
theorem Known.note (hknown : Known h site s) {x : Delivery}
    (hupdated : ∀ c issue, (c, issue) ∈ s.made → IsTask h.py x.event c → x.updated = [issue])
    (honce : ((x.made ++ s.made).map Prod.fst).Nodup) : OneIssue h.py (x :: s.log) := by
  refine ⟨honce, List.pairwise_cons.mpr ⟨fun older holder c issue hmade => ?_, hknown.one.updates⟩⟩
  exact hupdated c issue (List.mem_flatMap.mpr ⟨older, holder, hmade⟩)

/-- **What a careful event keeps.** -/
theorem Known.event (hknown : Known h site s) (hcareful : Careful h site s (.event m w)) :
    Known h site (handle h site s m w) := by
  have hupdated : ∀ c issue, (c, issue) ∈ s.made →
      IsTask h.py (deliver h site s m w).event c → (deliver h site s m w).updated = [issue] :=
    fun c issue hmade htask => hknown.updated ((hcareful c htask.2).2 htask.1) hmade htask
  unfold handle
  rcases made_deliver h site s m w with
    hmade | ⟨c, hmade, henabled, htype, hchange, hanswers⟩
  · -- the files are as they were
    simp only [hmade]
    have hsame : (s.note (deliver h site s m w)).made = s.made := by
      rw [made_note, hmade, List.nil_append]
    refine ⟨hsame ▸ hknown.enabled, fun c issue hin => ?_, hknown.note hupdated ?_⟩
    · obtain ⟨t, ht, hkept⟩ := hknown.kept c issue (hsame ▸ hin)
      exact ⟨t, ht, hkept.inMap, hkept.inYaml⟩
    · rw [hmade, List.nil_append]
      exact hknown.one.once
  · -- an issue is made, and its id is kept
    have hc : CarefulApproval h site s w c := (hcareful c hchange).1 ⟨henabled, htype, hanswers⟩
    obtain ⟨t, ht⟩ := Option.isSome_iff_exists.mp hc.isText
    obtain rfl := nameText_eq_some ht
    have hlog := log_saveIssue site s w t w.created
    simp only [hmade]
    refine ⟨fun _ => henabled, fun c' issue hin => ?_, ?_⟩
    · rw [made_note, hmade, State.made, hlog] at hin
      obtain ⟨t', ht', hkept⟩ := hc.kept hknown.kept c' issue hin
      exact ⟨t', ht', hkept.inMap, hkept.inYaml⟩
    · rw [State.note, hlog]
      refine hknown.note hupdated ?_
      rw [hmade]
      refine List.nodup_cons.mpr ⟨fun hin => ?_, hknown.one.once⟩
      obtain ⟨p, hp, heq⟩ := List.mem_map.mp hin
      exact hc.new p hp (congrArg nameText heq)

/-- **What a careful step keeps.** -/
theorem Known.step {l : Label D} (hknown : Known h site s) (hcareful : Careful h site s l)
    (hstep : step h site s l = some s') : Known h site s' := by
  cases l with
  | event m w =>
    obtain rfl := Option.some.inj hstep
    exact hknown.event hcareful
  | edit d file =>
    obtain rfl := Option.some.inj hstep
    refine ⟨hknown.enabled, fun c issue hmade => ?_, hknown.one⟩
    obtain ⟨t, ht, hkept⟩ := hknown.kept c issue hmade
    exact ⟨t, ht, hkept.putYaml fun hplace => hcareful _ hmade t ht hplace⟩

/-- **One issue for a change**, in every run whose steps are careful, from whatever the files
say. -/
theorem oneIssue_of_careful (h : Handler) (site : Site D) (issueMap : MapFile)
    (pmSyncYaml : D → YamlFile) (ls : List (Label D)) (s : State D)
    (hrun : Lts.Run (Lts.Under (Careful h site) (Lts.ofStep (step h site)))
      ⟨issueMap, pmSyncYaml, []⟩ ls s) : OneIssue h.py s.log := by
  have hinit : Known h site ⟨issueMap, pmSyncYaml, []⟩ :=
    ⟨fun hne => absurd rfl hne, fun _ _ hmade => absurd hmade List.not_mem_nil,
      ⟨List.nodup_nil, List.Pairwise.nil⟩⟩
  exact (hrun.inv_state (I := Known h site) hinit fun _ _ _ hknown hl =>
    hknown.step hl.1 hl.2).one

/-! ### An approval that comes twice -/

instance (s : State D) (w : World) (c : Value) : Decidable (CarefulApproval h site s w c) :=
  decidable_of_iff
    ((nameText c).isSome ∧ (∀ p ∈ s.made, nameText p.1 ≠ nameText c) ∧
      (w.mapAccess = .reads ∨ s.made.length = 0) ∧
      ((s.readMap w).toOption.bind MapFile.mapping).isSome ∧ w.mapLeft.isNone ∧
      (w.ReachesChange → ∀ p ∈ s.made, ∀ t ∈ nameText p.1,
        ∀ t' ∈ nameText c, site.place t ≠ site.place t') ∧
      (∀ t ∈ nameText c, (w.ReachesChange ∧ ((s.readYaml w (site.place t)).toOption.bind
          (site.rewritten · w.created)).isSome) ∨
        ∀ issue ∈ (s.pmSyncYaml (site.place t)).changeIssueId h, issue = w.created) ∧
      ∀ left ∈ w.yamlLeft, ∀ issue ∈ left.changeIssueId h, issue = w.created)
    ⟨fun ⟨a, b, c, d, e, f, g, i⟩ => ⟨a, b, c, d, e, f, g, i⟩,
      fun ⟨a, b, c, d, e, f, g, i⟩ => ⟨a, b, c, d, e, f, g, i⟩⟩

instance (s : State D) (w : World) (c : Value) : Decidable (CarefulTask h site s w c) :=
  inferInstanceAs (Decidable (∀ p ∈ s.made, ∀ t ∈ nameText p.1, nameText c = some t →
    (w.specsRoot.toOption = some false ∨
      w.specsRoot.toOption = some true ∧ w.yamlAccess ≠ .denied) ∧
    (w.mapAccess = .reads ∨ w.specsRoot.toOption = some true ∧ w.yamlAccess = .reads ∧
      ((s.pmSyncYaml (site.place t)).changeIssueId h).isSome)))

instance (s : State D) (l : Label D) : Decidable (Careful h site s l) :=
  match l with
  | .event m w => inferInstanceAs (Decidable (∀ c ∈ orNone m "change",
      (h.enabled ∧ m.type h.py = lit "spec-change-approved" ∧ w.answers ≠ 0 →
        CarefulApproval h site s w c) ∧
      (m.type h.py ∈ ["task-assignment", "task-complete"].map lit → CarefulTask h site s w c)))
  | .edit d file => inferInstanceAs (Decidable (∀ p ∈ s.made, ∀ t ∈ nameText p.1,
      site.place t = d → ∀ issue ∈ file.changeIssueId h, issue = p.2))

/-- Each change has a directory of its own. -/
def plainSite : Site Text := ⟨id, lit "easy8", lit "https://pm"⟩

/-- Nothing fails, and the next issue has this id. -/
def plainWorld (created : ℤ) : World where
  specsRoot := .ok true
  description := .ok (lit "# Rename the queue\n")
  changeDir := .ok true
  mapAccess := .reads
  yamlAccess := .reads
  mapLeft := none
  yamlLeft := none
  answers := 2
  created := created
  listed := some []

/-- A message about a change. -/
def about (type : String) (change : String) : BusMessage :=
  ⟨lit "m", [(.str (lit "type"), .str (lit type)), (.str (lit "change"), .str (lit change))], []⟩

/-- No files yet. -/
def plainState : State Text := ⟨.absent, fun _ => .absent, []⟩

/-- Two changes are approved and the first is worked on. -/
def worked : List (Label Text) :=
  [.event (about "spec-change-approved" "a") (plainWorld 1),
    .event (about "spec-change-approved" "b") (plainWorld 2),
    .event (about "task-assignment" "a") (plainWorld 3),
    .edit (lit "a") .absent,
    .event (about "task-complete" "a") (plainWorld 3)]

theorem oneIssue_worked : ∃ s : State Text,
    (s.log.map Delivery.updated = [[1], [1], [], []] ∧
      s.made.map Prod.snd = [2, 1]) ∧ OneIssue plainHandler.py s.log := by
  obtain ⟨s, hrun, hs⟩ := Lts.exists_under_run_of_exec (step plainHandler plainSite)
    (C := Careful plainHandler plainSite)
    (fun s l => decide (Careful plainHandler plainSite s l)) (fun _ _ => of_decide_eq_true)
    plainState worked (fun s => s.log.map Delivery.updated = [[1], [1], [], []] ∧
      s.made.map Prod.snd = [2, 1]) (by decide +kernel)
  exact ⟨s, of_decide_eq_true hs, oneIssue_of_careful plainHandler plainSite _ _ worked s hrun⟩

/-- The approval of a change that is delivered once more, as after a restart, makes another
issue, and its tasks update that one. -/
theorem not_oneIssue : ∃ s : State Text,
    Lts.Run (Lts.ofStep (step plainHandler plainSite)) plainState
      [.event (about "spec-change-approved" "a") (plainWorld 1),
        .event (about "spec-change-approved" "a") (plainWorld 2),
        .event (about "task-assignment" "a") (plainWorld 3)] s ∧
      s.log.map Delivery.updated = [[2], [], []] ∧ ¬OneIssue plainHandler.py s.log := by
  obtain ⟨s, hrun, hs⟩ := Lts.exists_run_of_exec (step plainHandler plainSite) plainState
    [.event (about "spec-change-approved" "a") (plainWorld 1),
      .event (about "spec-change-approved" "a") (plainWorld 2),
      .event (about "task-assignment" "a") (plainWorld 3)]
    (fun s => s.log.map Delivery.updated = [[2], [], []] ∧
      s.made.map (fun p => nameText p.1) = [some (lit "a"), some (lit "a")]) (by decide +kernel)
  obtain ⟨hupdated, hmade⟩ := of_decide_eq_true hs
  refine ⟨s, hrun, hupdated, fun hone => ?_⟩
  have hnames : (s.made.map Prod.fst).map nameText = [some (lit "a"), some (lit "a")] := by
    rw [List.map_map]
    exact hmade
  obtain ⟨c, c', hcc⟩ : ∃ c c', s.made.map Prod.fst = [c, c'] :=
    List.length_eq_two.mp (by simpa using congrArg List.length hnames)
  rw [hcc] at hnames
  obtain ⟨hc, hc'⟩ : nameText c = some (lit "a") ∧ nameText c' = some (lit "a") := by
    simpa using hnames
  have hnodup : [c, c'].Nodup := hcc ▸ hone.once
  rw [nameText_eq_some hc, nameText_eq_some hc'] at hnodup
  simp at hnodup

end Pm

end OtamanBridge
