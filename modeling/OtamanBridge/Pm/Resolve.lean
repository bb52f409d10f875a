import OtamanBridge.Pm.Sync

/-!
# The issue of a change

`_resolve_issue_id` of `pm_sync_handler.py` where no id is stored: the issues of the tracker
are searched for the first whose subject contains the name of the change. The subjects that
`_build_issue_title` makes begin with that name in brackets, but the search does not ask for
the brackets, nor for the beginning: the name may stand in a longer one, or in the title of
another proposal. So it finds the issue of the change just when no other issue that is listed
before it contains the name (`OtamanBridge.Pm.resolve_iff`).
-/

namespace OtamanBridge

namespace Pm

open Py

/-! ### The first of a list -/

section First

variable {α : Type*} {p q : α → Bool}

/-- **Two searches, one for more than the other**, find the same just when nothing that only
the one looks for comes before what both look for. -/
theorem find?_eq_find?_iff (hqp : ∀ a, q a → p a) (l : List α) :
    l.find? p = l.find? q ↔
      ∀ pre a post, l = pre ++ a :: post → (∀ b ∈ pre, ¬q b) → ¬q a → ¬p a := by
  induction l with
  | nil =>
    refine iff_of_true rfl fun pre a post h => ?_
    exact absurd h (by simp)
  | cons x l ih =>
    -- the places of the tail are the places of the list that come after its head
    have htail : (∀ pre a post, l = pre ++ a :: post → (∀ b ∈ pre, ¬q b) → ¬q a → ¬p a) →
        ¬p x → ∀ pre a post, x :: l = pre ++ a :: post → (∀ b ∈ pre, ¬q b) → ¬q a → ¬p a := by
      intro h hx pre a post heq hpre ha
      rcases pre with _ | ⟨y, pre⟩
      · obtain ⟨rfl, -⟩ := List.cons.inj heq
        exact hx
      · rw [List.cons_append] at heq
        obtain ⟨rfl, htl⟩ := List.cons.inj heq
        exact h pre a post htl (fun b hb => hpre b (List.mem_cons_of_mem _ hb)) ha
    by_cases hq : q x
    · rw [List.find?_cons_of_pos (hqp x hq), List.find?_cons_of_pos hq]
      refine iff_of_true rfl fun pre a post heq hpre ha => ?_
      rcases pre with _ | ⟨y, pre⟩
      · obtain ⟨rfl, -⟩ := List.cons.inj heq
        exact absurd hq ha
      · obtain ⟨rfl, -⟩ := List.cons.inj heq
        exact absurd hq (hpre x List.mem_cons_self)
    · rw [List.find?_cons_of_neg hq]
      by_cases hp : p x
      · rw [List.find?_cons_of_pos hp]
        refine iff_of_false (fun heq => ?_) fun h => h [] x l rfl (by simp) hq hp
        exact hq (List.find?_some heq.symm)
      · rw [List.find?_cons_of_neg hp, ih]
        refine ⟨fun h => htail h hp, fun h pre a post heq hpre ha => ?_⟩
        exact h (x :: pre) a post (by rw [heq]; rfl)
          (List.forall_mem_cons.mpr ⟨hq, hpre⟩) ha

end First

/-! ### The issues -/

/-- An issue that was made for a change: its id, and what its subject was built from. -/
structure Issue where
  id : ℤ
  changeName : Text
  proposalTitle : Option Text
  agentName : Text
  mode : Identification

/-- The subject. -/
def Issue.subject (issue : Issue) : Text :=
  buildIssueTitle issue.changeName issue.proposalTitle issue.agentName issue.mode

/-- The subject contains the name, in upper or lower case. -/
def Issue.contains (lower : Text → Text) (c : Text) (issue : Issue) : Bool :=
  lower c <:+: lower issue.subject

/-- `str.lower` of a text that begins with a name in brackets. What a letter becomes may
depend on the letters around it, but not across a bracket. -/
def LowersNames (lower : Text → Text) : Prop :=
  ∀ name rest, lower (lit "[" ++ name ++ lit "]" ++ rest) =
    lit "[" ++ lower name ++ lit "]" ++ lower rest

/-- The id of the issue that was made for the change. -/
def issueOf (c : Text) (issues : List Issue) : Option ℤ :=
  (issues.find? fun issue => issue.changeName = c).map Issue.id

/-- Before the issue of the change, or anywhere if there is none, no issue of another change
contains its name. -/
def Unrivalled (lower : Text → Text) (c : Text) (issues : List Issue) : Prop :=
  ∀ pre issue post, issues = pre ++ issue :: post → (∀ other ∈ pre, other.changeName ≠ c) →
    issue.changeName ≠ c → ¬issue.contains lower c

variable {h : Handler} {c : Text} {issues : List Issue}

/-- A subject begins with the name in brackets. -/
theorem Issue.subject_eq (issue : Issue) :
    ∃ rest, issue.subject = lit "[" ++ issue.changeName ++ lit "]" ++ rest := by
  unfold Issue.subject buildIssueTitle
  dsimp only
  split_ifs
  · refine ⟨lit "[" ++ issue.agentName ++ lit "] " ++
      Bus.orText (issue.proposalTitle.getD []) issue.changeName, ?_⟩
    simp [lit]
  · refine ⟨lit " " ++ Bus.orText (issue.proposalTitle.getD []) issue.changeName, ?_⟩
    simp [lit]

/-- An issue contains the name of its change. -/
theorem Issue.contains_self (hlower : LowersNames h.py.lower) (issue : Issue) :
    issue.contains h.py.lower issue.changeName := by
  obtain ⟨rest, hrest⟩ := issue.subject_eq
  refine decide_eq_true ?_
  rw [hrest, hlower]
  exact ⟨lit "[", lit "]" ++ h.py.lower rest, by simp only [List.append_assoc]⟩

theorem findSome?_subjects (lower : Text → Text) (hc : c ≠ []) :
    (issues.map fun issue => (issue.id, issue.subject)).findSome?
      (fun x => if c ≠ [] ∧ lower c <:+: lower x.2 then some x.1 else none) =
      (issues.find? (Issue.contains lower c)).map Issue.id := by
  induction issues with
  | nil => rfl
  | cons issue issues ih =>
    rw [List.map_cons, List.findSome?_cons, ih]
    by_cases hcontains : issue.contains lower c
    · rw [List.find?_cons_of_pos hcontains, if_pos ⟨hc, of_decide_eq_true hcontains⟩]
      rfl
    · rw [List.find?_cons_of_neg hcontains,
        if_neg fun hin => hcontains (decide_eq_true hin.2)]

/-- **What the search finds**: the first issue whose subject contains the name. -/
theorem resolveIssueId_eq (hc : c ≠ []) (hyaml : h.readPmSyncYaml (.str c) = .ok none)
    (hmap : h.loadIssueId (.str c) = .ok none)
    (hlist : h.listIssues = some (issues.map fun issue => (issue.id, issue.subject)))
    (subject : Text) : resolveIssueId h (some (.str c)) subject =
      .ok ((issues.find? (Issue.contains h.py.lower c)).map Issue.id) := by
  rw [← findSome?_subjects h.py.lower hc]
  unfold resolveIssueId
  simp only [hyaml, hmap, hlist]
  rfl

/-- Ids say which issue it is. -/
theorem map_id_eq_iff (hids : (issues.map Issue.id).Nodup) (p q : Issue → Bool) :
    (issues.find? p).map Issue.id = (issues.find? q).map Issue.id ↔
      issues.find? p = issues.find? q := by
  refine ⟨fun heq => ?_, congrArg _⟩
  rcases hp : issues.find? p with _ | a
  · rw [hp] at heq
    exact (Option.map_eq_none_iff.mp heq.symm).symm
  · rcases hq : issues.find? q with _ | b
    · rw [hp, hq] at heq
      exact absurd heq (by simp)
    · rw [hp, hq] at heq
      exact congrArg some (List.inj_on_of_nodup_map hids (List.mem_of_find?_eq_some hp)
        (List.mem_of_find?_eq_some hq) (Option.some.inj heq))

/-- **When the search finds the issue of the change.** Whatever issues there are, and whatever
their subjects were made from: where no id is stored, the search comes to the issue that was
made for the change, or to none if there is none, just when no issue of another change that is
listed before it contains the name. -/
theorem resolve_iff (hlower : LowersNames h.py.lower) (hc : c ≠ [])
    (hyaml : h.readPmSyncYaml (.str c) = .ok none) (hmap : h.loadIssueId (.str c) = .ok none)
    (hlist : h.listIssues = some (issues.map fun issue => (issue.id, issue.subject)))
    (hids : (issues.map Issue.id).Nodup) (subject : Text) :
    resolveIssueId h (some (.str c)) subject = .ok (issueOf c issues) ↔
      Unrivalled h.py.lower c issues := by
  rw [resolveIssueId_eq hc hyaml hmap hlist, issueOf, Except.ok.injEq, map_id_eq_iff hids,
    find?_eq_find?_iff]
  · simp only [Unrivalled, decide_eq_true_eq]
  · intro issue hissue
    rw [← of_decide_eq_true hissue]
    exact issue.contains_self hlower

/-! ### Two changes, one name in the other -/

theorem lowersNames_quotingPython : LowersNames Bus.quotingPython.lower := by
  intro name rest
  change Py.lower _ = lit "[" ++ Py.lower name ++ lit "]" ++ Py.lower rest
  simp only [Py.lower, List.flatMap_append]
  rfl

/-- The issue of a change of the bridge, with this id. -/
def bridgeIssue (id : ℤ) (changeName : String) : Issue :=
  ⟨id, lit changeName, none, lit "bridge", .both⟩

/-- A handler that has stored nothing, of a tracker with these issues. -/
def listing (issues : List Issue) : Handler :=
  { plainHandler with listIssues := some (issues.map fun issue => (issue.id, issue.subject)) }

/-- The issue of `auth` is found where it is listed before that of `auth-v2`. -/
theorem resolve_iff_auth :
    resolveIssueId (listing [bridgeIssue 3 "auth", bridgeIssue 7 "auth-v2"])
      (some (.str (lit "auth"))) [] =
      .ok (issueOf (lit "auth") [bridgeIssue 3 "auth", bridgeIssue 7 "auth-v2"]) := by
  refine (resolve_iff lowersNames_quotingPython (by decide) rfl rfl rfl (by decide) []).mpr ?_
  rintro pre issue post heq hpre hne
  rcases pre with _ | ⟨first, pre⟩
  · obtain ⟨rfl, -⟩ := List.cons.inj heq
    exact absurd rfl hne
  · obtain ⟨rfl, -⟩ := List.cons.inj heq
    exact absurd rfl (hpre _ List.mem_cons_self)

/-- Where `auth` has no issue yet, the search comes to that of `auth-v2`. -/
theorem not_resolve : ¬∀ (h : Handler) (c subject : Text) (issues : List Issue),
    LowersNames h.py.lower → c ≠ [] → h.readPmSyncYaml (.str c) = .ok none →
      h.loadIssueId (.str c) = .ok none →
      h.listIssues = some (issues.map fun issue => (issue.id, issue.subject)) →
      (issues.map Issue.id).Nodup → (issues.map Issue.changeName).Nodup →
      resolveIssueId h (some (.str c)) subject = .ok (issueOf c issues) := by
  intro h
  have hnone := h (listing [bridgeIssue 7 "auth-v2"]) (lit "auth") [] [bridgeIssue 7 "auth-v2"]
    lowersNames_quotingPython (by decide) rfl rfl rfl (by decide) (by decide)
  have hfound : resolveIssueId (listing [bridgeIssue 7 "auth-v2"]) (some (.str (lit "auth"))) [] =
      .ok (some 7) := by
    decide +kernel
  rw [hfound] at hnone
  exact absurd hnone (by decide)

end Pm

end OtamanBridge
