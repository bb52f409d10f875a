import OtamanBridge.Lib.Dict
import OtamanBridge.Lib.Pairs
import OtamanBridge.Lib.PyValue

/-!
# The link index

`_build_index` of `registries/link_index.py` goes once over the records of `solutions.yaml`, and
fills three maps: the solutions of an outcome, the outcome of a solution, and what a solution
depends on. The first is appended to, the second is written over, and the third is written over
by a record that has dependencies only.

So they fit together exactly if the records of one solution do: at most one names an outcome,
and if others have dependencies, then it has some itself and comes after them
(`OtamanBridge.Registries.consistent_iff`).
-/

namespace OtamanBridge

namespace Registries

open Py

open Value (isDict isText field fieldOr hashable iter elements)

/-! ### The index -/

/-- `_IndexData`. The keys are ids up to equality. -/
@[ext]
structure IndexData (K : Type) where
  outcomeToSolutions : AList fun _ : K => List K := ∅
  solutionToOutcome : AList fun _ : K => K := ∅
  solutionToDeps : AList fun _ : K => List Value := ∅

section

variable {K : Type} [DecidableEq K]

/-- `solution_to_outcome[sol_id] = outcome_id` and
`outcome_to_solutions.setdefault(outcome_id, []).append(sol_id)`. -/
def IndexData.link (data : IndexData K) (solId outcomeId : K) : IndexData K :=
  { data with
    solutionToOutcome := data.solutionToOutcome.insert solId outcomeId
    outcomeToSolutions := data.outcomeToSolutions.insert outcomeId
      ((data.outcomeToSolutions.lookup outcomeId).getD [] ++ [solId]) }

/-- `solution_to_deps[sol_id] = deps`. -/
def IndexData.depend (data : IndexData K) (solId : K) (deps : List Value) : IndexData K :=
  { data with solutionToDeps := data.solutionToDeps.insert solId deps }

/-- `_load_yaml_list`: the objects under the key, of what the file loads to. If there is no
such file, no PyYAML, or anything raises, there are none. -/
def loadYamlList (raw : Option Value) (key : String) : List Value :=
  match raw with
  | none => []
  | some v =>
    let v := if v.truthy then v else .dict []
    if isDict v then (elements (fieldOr v key (.list []))).filter isDict else []

/-- The `ref` of a dependency, if it is on an outcome or a solution. -/
def refOf (dep : Value) : Option Value :=
  let kind := (dep.get "kind").getD (.str [])
  if isDict dep && (isText (lit "outcome") kind || isText (lit "solution") kind) &&
      (field dep "ref").truthy then
    some (field dep "ref")
  else none

/-- `deps`. What is no collection cannot be gone through. -/
def depsOf (sol : Value) : Except Unit (List Value) :=
  (iter (fieldOr sol "dependencies" (.list []))).map fun deps => deps.filterMap refOf

/-- The hash of an id, if it has one; equal ids have equal hashes. -/
def hash (key : Value → K) (v : Value) : Except Unit K :=
  if hashable v then .ok (key v) else .error ()

variable (key : Value → K)

/-- The first part of a turn of the loop: the link. -/
def addLink (data : IndexData K) (sol : Value) : Except Unit (IndexData K) :=
  if (field sol "outcome-id").truthy then do
    let solId ← hash key (field sol "id")
    let outcomeId ← hash key (field sol "outcome-id")
    pure (data.link solId outcomeId)
  else pure data

/-- The second part: the dependencies. -/
def addDeps (data : IndexData K) (sol : Value) : Except Unit (IndexData K) := do
  let deps ← depsOf sol
  if deps.isEmpty then pure data
  else do
    let solId ← hash key (field sol "id")
    pure (data.depend solId deps)

/-- A turn of the loop of `_build_index`. -/
def addSolution (data : IndexData K) (sol : Value) : Except Unit (IndexData K) :=
  if (field sol "id").truthy then do
    let data ← addLink key data sol
    addDeps key data sol
  else pure data

/-- `_build_index`, of what `solutions.yaml` loads to. -/
def buildIndex (raw : Option Value) : Except Unit (IndexData K) :=
  (loadYamlList raw "solutions").foldlM (addSolution key) {}

/-! ### What is asked of it -/

/-- The solution and the outcome that a record links. -/
def linkOf (sol : Value) : Option (K × K) :=
  if (field sol "id").truthy && (field sol "outcome-id").truthy then
    some (key (field sol "id"), key (field sol "outcome-id"))
  else none

/-- The solution of a record, and its dependencies, if it has any. -/
def dependsOf (sol : Value) : Option (K × List Value) :=
  match depsOf sol with
  | .error () => none
  | .ok deps =>
    if (field sol "id").truthy && !deps.isEmpty then some (key (field sol "id"), deps) else none

/-- The solutions of an outcome. -/
def IndexData.solutions (data : IndexData K) (outcomeId : K) : List K :=
  (data.outcomeToSolutions.lookup outcomeId).getD []

/-- **The index is consistent**: the two maps of links are inverse to each other, nothing is
listed twice, and the dependencies of a solution that has an outcome come from the record that
its outcome comes from. -/
structure Consistent (records : List Value) (data : IndexData K) : Prop where
  inverse : ∀ s o, s ∈ data.solutions o ↔ data.solutionToOutcome.lookup s = some o
  once : ∀ o, (data.solutions o).Nodup
  source : ∀ s, (data.solutionToOutcome.lookup s).isSome → (data.solutionToDeps.lookup s).isSome →
    Pairs.SameSource (linkOf key) (dependsOf key) records s

/-- **The records of one solution fit together**: at most one names an outcome, no record after
it has dependencies, and one before it only if it has some itself. -/
structure Fits (records : List Value) : Prop where
  linked : ((records.filterMap (linkOf key)).map Prod.fst).Nodup
  depends : ∀ before sol after s, records = before ++ sol :: after →
    Pairs.Names (linkOf key) s sol →
      (∀ sol' ∈ after, ¬Pairs.Names (dependsOf key) s sol') ∧
        ((∃ sol' ∈ before, Pairs.Names (dependsOf key) s sol') →
          Pairs.Names (dependsOf key) s sol)

end

/-! ### One turn -/

variable {K : Type} [DecidableEq K] {key : Value → K} {data data' : IndexData K}
  {records : List Value} {sol : Value}

theorem bind_eq_ok {α β : Type} {x : Except Unit α} {f : α → Except Unit β} {b : β} :
    x >>= f = .ok b ↔ ∃ a, x = .ok a ∧ f a = .ok b := by
  rcases x with _ | a
  · exact iff_of_false (by simp [bind, Except.bind]) (by simp)
  · simp [bind, Except.bind]

omit [DecidableEq K] in
theorem hash_eq_ok {v : Value} {k : K} (h : hash key v = .ok k) : k = key v := by
  unfold hash at h
  split_ifs at h
  exact (Except.ok.inj h).symm

/-- The index with the link, if there is one. -/
def IndexData.withLink (data : IndexData K) : Option (K × K) → IndexData K
  | none => data
  | some (s, o) => data.link s o

/-- The index with the dependencies, if there are any. -/
def IndexData.withDeps (data : IndexData K) : Option (K × List Value) → IndexData K
  | none => data
  | some (s, deps) => data.depend s deps

theorem addLink_eq_ok (hid : (field sol "id").truthy) (h : addLink key data sol = .ok data') :
    data' = data.withLink (linkOf key sol) := by
  unfold addLink at h
  unfold linkOf
  split_ifs at h with houtcome
  · obtain ⟨s, hs, h⟩ := bind_eq_ok.mp h
    obtain ⟨o, ho, h⟩ := bind_eq_ok.mp h
    rw [hash_eq_ok hs, hash_eq_ok ho] at h
    rw [hid, houtcome]
    exact (Except.ok.inj h).symm
  · rw [hid]
    simp only [houtcome, Bool.and_false]
    exact (Except.ok.inj h).symm

theorem addDeps_eq_ok (hid : (field sol "id").truthy) (h : addDeps key data sol = .ok data') :
    data' = data.withDeps (dependsOf key sol) := by
  obtain ⟨deps, hdeps, h⟩ := bind_eq_ok.mp h
  unfold dependsOf
  rw [hdeps]
  dsimp only
  split_ifs at h with hempty
  · simp only [hempty, Bool.not_true, Bool.and_false]
    exact (Except.ok.inj h).symm
  · obtain ⟨s, hs, h⟩ := bind_eq_ok.mp h
    rw [hash_eq_ok hs] at h
    rw [hid, if_pos (by simpa using hempty)]
    exact (Except.ok.inj h).symm

/-- **What a turn of the loop does.** -/
theorem addSolution_eq_ok (h : addSolution key data sol = .ok data') :
    data' = (data.withLink (linkOf key sol)).withDeps (dependsOf key sol) := by
  unfold addSolution at h
  split_ifs at h with hid
  · obtain ⟨data₁, hlink, h⟩ := bind_eq_ok.mp h
    rw [addDeps_eq_ok hid h, addLink_eq_ok hid hlink]
  · have hlink : linkOf key sol = none := by
      rw [linkOf, if_neg (by simp [hid])]
    have hdeps : dependsOf key sol = none := by
      unfold dependsOf
      rcases depsOf sol with _ | deps
      · rfl
      · exact if_neg (by simp [hid])
    rw [hlink, hdeps]
    exact (Except.ok.inj h).symm

/-! ### What the maps hold -/

/-- **The maps are those of the records so far.** -/
structure Holds (key : Value → K) (records : List Value) (data : IndexData K) : Prop where
  solutions : ∀ o, data.solutions o = Pairs.keysOf (records.filterMap (linkOf key)) o
  outcome : ∀ s, data.solutionToOutcome.lookup s =
    Pairs.valueOf (records.filterMap (linkOf key)) s
  deps : ∀ s, data.solutionToDeps.lookup s =
    Pairs.valueOf (records.filterMap (dependsOf key)) s

theorem holds_init : Holds key [] ({} : IndexData K) := by
  refine ⟨fun o => ?_, fun s => ?_, fun s => ?_⟩
  all_goals rfl

theorem solutions_withDeps (link : Option (K × List Value)) (o : K) :
    (data.withDeps link).solutions o = data.solutions o := by
  rcases link with _ | ⟨s, deps⟩
  · rfl
  · rfl

theorem outcome_withDeps (link : Option (K × List Value)) :
    (data.withDeps link).solutionToOutcome = data.solutionToOutcome := by
  rcases link with _ | ⟨s, deps⟩
  · rfl
  · rfl

theorem deps_withLink (link : Option (K × K)) :
    (data.withLink link).solutionToDeps = data.solutionToDeps := by
  rcases link with _ | ⟨s, o⟩
  · rfl
  · rfl

theorem solutions_link (s o o' : K) : (data.link s o).solutions o' =
    if o = o' then data.solutions o' ++ [s] else data.solutions o' := by
  unfold IndexData.solutions IndexData.link
  split_ifs with h
  · subst h
    rw [AList.lookup_insert, Option.getD_some]
  · rw [AList.lookup_insert_ne (Ne.symm h)]

/-- A dictionary that is written to. -/
theorem lookup_insert_eq {β : Type} (d : AList fun _ : K => β) (k k' : K) (v : β) :
    (d.insert k v).lookup k' = if k = k' then some v else d.lookup k' := by
  split_ifs with h
  · rw [h, AList.lookup_insert]
  · rw [AList.lookup_insert_ne (Ne.symm h)]

/-- **One more record.** -/
theorem Holds.concat (h : Holds key records data) (hadd : addSolution key data sol = .ok data') :
    Holds key (records ++ [sol]) data' := by
  rw [addSolution_eq_ok hadd]
  constructor
  · intro o
    rw [solutions_withDeps, List.filterMap_append]
    rcases hlink : linkOf key sol with _ | ⟨s, o'⟩
    · rw [List.filterMap_cons_none hlink, List.filterMap_nil, List.append_nil]
      exact h.solutions o
    · rw [List.filterMap_cons_some hlink, List.filterMap_nil, Pairs.keysOf_concat,
        ← h.solutions o]
      exact solutions_link s o' o
  · intro s
    rw [outcome_withDeps, List.filterMap_append]
    rcases hlink : linkOf key sol with _ | ⟨s', o⟩
    · rw [List.filterMap_cons_none hlink, List.filterMap_nil, List.append_nil]
      exact h.outcome s
    · rw [List.filterMap_cons_some hlink, List.filterMap_nil, Pairs.valueOf_concat,
        ← h.outcome s]
      exact lookup_insert_eq data.solutionToOutcome s' s o
  · intro s
    rw [List.filterMap_append]
    rcases hdeps : dependsOf key sol with _ | ⟨s', deps⟩
    · rw [List.filterMap_cons_none hdeps, List.filterMap_nil, List.append_nil, ← h.deps s]
      exact congrArg (AList.lookup s) (deps_withLink (linkOf key sol))
    · have hsame : (data.withLink (linkOf key sol)).solutionToDeps = data.solutionToDeps :=
        deps_withLink _
      rw [List.filterMap_cons_some hdeps, List.filterMap_nil, Pairs.valueOf_concat, ← h.deps s,
        ← hsame]
      exact lookup_insert_eq _ s' s deps

/-- And any number. -/
theorem Holds.foldlM {sols : List Value} (h : Holds key records data)
    (hfold : sols.foldlM (addSolution key) data = .ok data') :
    Holds key (records ++ sols) data' := by
  induction sols generalizing records data with
  | nil =>
    obtain rfl : data = data' := Except.ok.inj hfold
    rwa [List.append_nil]
  | cons sol sols ih =>
    rw [List.foldlM_cons] at hfold
    obtain ⟨data₁, hadd, hrest⟩ := bind_eq_ok.mp hfold
    rw [← List.singleton_append, ← List.append_assoc]
    exact ih (h.concat hadd) hrest

/-- **What `_build_index` makes.** -/
theorem holds_buildIndex {raw : Option Value} (hbuild : buildIndex key raw = .ok data) :
    Holds key (loadYamlList raw "solutions") data :=
  holds_init.foldlM hbuild

/-- The outcome of a solution is that of the last record that names one. -/
theorem Holds.outcome_eq_some_iff (h : Holds key records data) {s o : K} :
    data.solutionToOutcome.lookup s = some o ↔ ∃ before sol after,
      Pairs.LastSource (linkOf key) s records before sol after ∧ linkOf key sol = some (s, o) := by
  rw [h.outcome, Pairs.valueOf_filterMap_eq_some_iff]

/-- The dependencies of a solution are those of the last record that has some. -/
theorem Holds.deps_eq_some_iff (h : Holds key records data) {s : K} {deps : List Value} :
    data.solutionToDeps.lookup s = some deps ↔ ∃ before sol after,
      Pairs.LastSource (dependsOf key) s records before sol after ∧
        dependsOf key sol = some (s, deps) := by
  rw [h.deps, Pairs.valueOf_filterMap_eq_some_iff]

/-! ### When it is consistent -/

/-- **When the link index is consistent**: for every list of records and any ids, just when the
records of one solution fit together. -/
theorem consistent_iff {raw : Option Value} (hbuild : buildIndex key raw = .ok data) :
    Consistent key (loadYamlList raw "solutions") data ↔
      Fits key (loadYamlList raw "solutions") := by
  have h := holds_buildIndex hbuild
  have hinverse : ((∀ s o, s ∈ data.solutions o ↔ data.solutionToOutcome.lookup s = some o) ∧
      ∀ o, (data.solutions o).Nodup) ↔
        (((loadYamlList raw "solutions").filterMap (linkOf key)).map Prod.fst).Nodup := by
    simp only [h.solutions, h.outcome]
    exact Pairs.inverse_iff
  have hsource : ∀ s, ((data.solutionToOutcome.lookup s).isSome →
      (data.solutionToDeps.lookup s).isSome →
        Pairs.SameSource (linkOf key) (dependsOf key) (loadYamlList raw "solutions") s) ↔
      ((∃ sol ∈ loadYamlList raw "solutions", Pairs.Names (linkOf key) s sol) →
        (∃ sol ∈ loadYamlList raw "solutions", Pairs.Names (dependsOf key) s sol) →
          Pairs.SameSource (linkOf key) (dependsOf key) (loadYamlList raw "solutions") s) := by
    intro s
    rw [h.outcome, h.deps, Pairs.names_iff_mem, Pairs.names_iff_mem]
  constructor
  · rintro ⟨hinv, honce, hsame⟩
    have hnodup := hinverse.mp ⟨hinv, honce⟩
    exact ⟨hnodup, (Pairs.sameSource_iff hnodup).mp fun s => (hsource s).mp (hsame s)⟩
  · rintro ⟨hnodup, hdepends⟩
    obtain ⟨hinv, honce⟩ := hinverse.mpr hnodup
    exact ⟨hinv, honce, fun s => (hsource s).mpr ((Pairs.sameSource_iff hnodup).mpr hdepends s)⟩

/-! ### A solution that is moved -/

/-- The ids are texts. -/
def textKey : Value → Text
  | .str t => t
  | _ => []

/-- What `solutions.yaml` loads to, with these records. -/
def solutionsFile (records : List Value) : Option Value :=
  some (Value.ofFields [("solutions", .list records)])

/-- A record of a solution with an outcome. -/
def linked (solId outcomeId : String) : Value :=
  Value.ofFields [("id", .str (lit solId)), ("outcome-id", .str (lit outcomeId))]

/-- A record that says what a solution depends on, and maybe its outcome. -/
def dependent (solId : String) (outcome : List (String × Value)) : Value :=
  Value.ofFields (("id", .str (lit solId)) :: ("dependencies", .list [Value.ofFields
    [("kind", .str (lit "outcome")), ("ref", .str (lit "JTBD-3"))]]) :: outcome)

/-- The dependencies of a solution are repeated where its outcome is named. -/
theorem consistent_repeated : ∃ data, buildIndex textKey (solutionsFile
      [dependent "SOL-1" [], dependent "SOL-1" [("outcome-id", .str (lit "JTBD-1"))]]) =
        .ok data ∧
    Consistent textKey (loadYamlList (solutionsFile
      [dependent "SOL-1" [], dependent "SOL-1" [("outcome-id", .str (lit "JTBD-1"))]])
        "solutions") data := by
  refine ⟨_, rfl, (consistent_iff rfl).mpr ⟨by decide, ?_⟩⟩
  rintro before sol after s hsplit hlink
  change [dependent "SOL-1" [], dependent "SOL-1" [("outcome-id", .str (lit "JTBD-1"))]] =
    before ++ sol :: after at hsplit
  rcases before with _ | ⟨first, _ | ⟨second, before⟩⟩
  · obtain ⟨rfl, -⟩ := List.cons.inj hsplit
    obtain ⟨o, ho⟩ := hlink
    have hnone : linkOf textKey (dependent "SOL-1" []) = none := rfl
    exact absurd (hnone.symm.trans ho) (by simp)
  · obtain ⟨rfl, rfl⟩ := List.cons.inj (List.cons.inj hsplit).2
    obtain ⟨o, ho⟩ := hlink
    obtain ⟨rfl, -⟩ := Prod.mk.inj (Option.some.inj ho)
    exact ⟨by simp, fun _ => ⟨_, rfl⟩⟩
  · have hlength := congrArg List.length hsplit
    simp at hlength

/-- **A solution that is moved to another outcome** stays listed under the first. -/
theorem not_consistent_index : ¬∀ (K : Type) [DecidableEq K] (key : Value → K) (raw : Option Value)
    (data : IndexData K), buildIndex key raw = .ok data →
      Consistent key (loadYamlList raw "solutions") data := by
  intro h
  have hconsistent := h Text textKey
    (solutionsFile [linked "SOL-1" "JTBD-1", linked "SOL-1" "JTBD-2"]) _ rfl
  have hlisted := (hconsistent.inverse (lit "SOL-1") (lit "JTBD-1")).mp (by decide)
  exact absurd hlisted (by decide)

end Registries

end OtamanBridge
