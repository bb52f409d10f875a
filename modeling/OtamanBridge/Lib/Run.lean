import Mathlib.Data.List.Forall2
import Mathlib.Data.List.Induction
import Mathlib.Logic.Function.Basic
import Mathlib.Logic.Relation

/-!
# Runs of a labelled transition system

A concurrent program is read as a relation `R s l s'`: from state `s`, the step
named by the label `l` may lead to `s'`. The label names the actor and whatever
the environment chooses (which thread moves, what the network answers, how far
the clock goes), so that a run is its list of labels. A run is grown at its
end, which is the shape an invariant is proved in: whatever held of the run so
far is at hand when the next step is looked at.

Three kinds of statement are proved from here, one rule each:

* an **invariant** of every run, also one that reads the labels taken so far
  (`OtamanBridge.Lts.Run.inv`);
* the **exact condition** on the steps under which a run has a property that cannot be
  mended (`OtamanBridge.Lts.Run.iff_under`);
* the comparison of **two runs** whose labels are related one by one
  (`OtamanBridge.Lts.Run.simulate`), the rule behind every statement that compares
  two executions.

Runs all of whose steps meet a condition are runs of the restricted relation
`OtamanBridge.Lts.Under`, so the same rules serve them.
-/

namespace OtamanBridge

namespace Lts

variable {σ τ ι κ : Type*}

/-- A run: the labels taken from `s₀`, oldest first, and the state reached. -/
inductive Run (R : σ → ι → σ → Prop) (s₀ : σ) : List ι → σ → Prop
  /-- Nothing has happened yet. -/
  | nil : Run R s₀ [] s₀
  /-- One more step. -/
  | snoc {ls : List ι} {s : σ} {l : ι} {s' : σ} :
      Run R s₀ ls s → R s l s' → Run R s₀ (ls ++ [l]) s'

/-- The relation restricted to the steps that meet the condition `C`, which may
read the label and the state before the step. -/
def Under (C : σ → ι → Prop) (R : σ → ι → σ → Prop) : σ → ι → σ → Prop :=
  fun s l s' => C s l ∧ R s l s'

/-- The relation of an executable step function. -/
def ofStep (step : σ → ι → Option σ) : σ → ι → σ → Prop :=
  fun s l s' => step s l = some s'

/-- Running an executable step function along a list of labels. -/
def exec (step : σ → ι → Option σ) (s : σ) (ls : List ι) : Option σ :=
  ls.foldlM step s

variable {R : σ → ι → σ → Prop} {s₀ : σ}

/-- **The invariant rule**, for an invariant that may read the labels taken so
far. -/
theorem Run.inv {I : List ι → σ → Prop} (h0 : I [] s₀)
    (hstep : ∀ ls s l s', Run R s₀ ls s → I ls s → R s l s' → I (ls ++ [l]) s') :
    ∀ {ls s}, Run R s₀ ls s → I ls s := by
  intro ls s h
  induction h with
  | nil => exact h0
  | snoc hrun hl ih => exact hstep _ _ _ _ hrun ih hl

/-- The invariant rule for an invariant of the state alone. -/
theorem Run.inv_state {I : σ → Prop} (h0 : I s₀)
    (hstep : ∀ s l s', I s → R s l s' → I s') {ls : List ι} {s : σ} (h : Run R s₀ ls s) : I s :=
  Run.inv (I := fun _ s => I s) h0 (fun _ s l s' _ hI hR => hstep s l s' hI hR) h

/-- A run of a smaller relation is a run of a larger one. -/
theorem Run.mono {R' : σ → ι → σ → Prop} (hle : ∀ s l s', R s l s' → R' s l s')
    {ls : List ι} {s : σ} (h : Run R s₀ ls s) : Run R' s₀ ls s := by
  induction h with
  | nil => exact Run.nil
  | snoc _ hl ih => exact ih.snoc (hle _ _ _ hl)

/-- A run under a condition is a run. -/
theorem Run.of_under {C : σ → ι → Prop} {ls : List ι} {s : σ} (h : Run (Under C R) s₀ ls s) :
    Run R s₀ ls s :=
  h.mono fun _ _ _ hC => hC.2

theorem forall₂_concat_iff {L : ι → κ → Prop} {ls : List ι} {ms : List κ} {l : ι} {m : κ} :
    List.Forall₂ L (ls ++ [l]) (ms ++ [m]) ↔ List.Forall₂ L ls ms ∧ L l m := by
  rw [← List.forall₂_reverse_iff]
  simp [and_comm]

/-- **The rule for two runs.** If every step from a state can be followed from each
related state by a step with any related label, then a run can be followed along any
list of labels that are related one by one. -/
theorem Run.simulate {S : τ → κ → τ → Prop} {t₀ : τ} {A : σ → τ → Prop} {L : ι → κ → Prop}
    (h0 : A s₀ t₀)
    (hstep : ∀ s t l m s', A s t → L l m → R s l s' → ∃ t', S t m t' ∧ A s' t')
    {ls : List ι} {s : σ} (h : Run R s₀ ls s) :
    ∀ {ms : List κ}, List.Forall₂ L ls ms → ∃ t, Run S t₀ ms t ∧ A s t := by
  induction h with
  | nil =>
    intro ms hf
    obtain rfl := List.forall₂_nil_left_iff.mp hf
    exact ⟨t₀, .nil, h0⟩
  | @snoc ls s l s' _ hl ih =>
    intro ms hf
    rcases List.eq_nil_or_concat ms with rfl | ⟨ms, m, rfl⟩
    · simp at hf
    · rw [List.concat_eq_append, forall₂_concat_iff] at hf
      obtain ⟨t, ht, ha⟩ := ih hf.1
      obtain ⟨t', ht', ha'⟩ := hstep _ _ _ _ _ ha hf.2 hl
      rw [List.concat_eq_append]
      exact ⟨t', ht.snoc ht', ha'⟩

/-! ### Executable runs -/

theorem exec_snoc (step : σ → ι → Option σ) (s : σ) (ls : List ι) (l : ι) :
    exec step s (ls ++ [l]) = (exec step s ls).bind fun a => step a l := by
  simp [exec, List.foldlM_append]

theorem exec_cons {step : σ → ι → Option σ} {s a : σ} {l : ι} (h : step s l = some a)
    (ls : List ι) : exec step s (l :: ls) = exec step a ls := by
  rw [exec, List.foldlM_cons, h]
  rfl

/-- Executing a list of labels is a run. -/
theorem run_of_exec {step : σ → ι → Option σ} {ls : List ι} {s : σ}
    (h : exec step s₀ ls = some s) : Run (ofStep step) s₀ ls s := by
  induction ls using List.reverseRecOn generalizing s with
  | nil =>
    obtain rfl : s₀ = s := by simpa [exec] using h
    exact Run.nil
  | append_singleton ls l ih =>
    rw [exec_snoc] at h
    obtain ⟨a, ha, hl⟩ := Option.bind_eq_some_iff.mp h
    exact (ih ha).snoc hl

/-- A run of a step function is its execution. -/
theorem exec_of_run {step : σ → ι → Option σ} {ls : List ι} {s : σ}
    (h : Run (ofStep step) s₀ ls s) : exec step s₀ ls = some s := by
  induction h with
  | nil => rfl
  | snoc _ hl ih =>
    rw [exec_snoc, ih]
    exact hl

/-- The labels determine the state a run of a step function reaches. -/
theorem Run.functional {step : σ → ι → Option σ} {ls : List ι} {s t : σ}
    (h : Run (ofStep step) s₀ ls s) (h' : Run (ofStep step) s₀ ls t) : s = t :=
  Option.some.inj ((exec_of_run h).symm.trans (exec_of_run h'))

/-- One more label of a run under a condition, checked in the state before it. -/
theorem Run.under_snoc {step : σ → ι → Option σ} {C : σ → ι → Prop} {ls : List ι} {l : ι}
    {a b : σ} (h : Run (Under C (ofStep step)) s₀ ls a) (ha : exec step s₀ ls = some a)
    (hb : exec step s₀ (ls ++ [l]) = some b) (hc : C a l) :
    Run (Under C (ofStep step)) s₀ (ls ++ [l]) b := by
  rw [exec_snoc, ha] at hb
  exact h.snoc ⟨hc, hb⟩

/-- More labels of a run under a condition, which asks nothing of them. -/
theorem Run.under_append {step : σ → ι → Option σ} {C : σ → ι → Prop} {ls ms : List ι}
    {a b : σ} (h : Run (Under C (ofStep step)) s₀ ls a) (ha : exec step s₀ ls = some a)
    (hb : exec step s₀ (ls ++ ms) = some b) (hc : ∀ m ∈ ms, ∀ s, C s m) :
    Run (Under C (ofStep step)) s₀ (ls ++ ms) b := by
  induction ms using List.reverseRecOn generalizing b with
  | nil =>
    rw [List.append_nil] at hb ⊢
    obtain rfl := Option.some.inj (ha.symm.trans hb)
    exact h
  | append_singleton ms m ih =>
    rw [← List.append_assoc] at hb ⊢
    obtain ⟨c, hmid, -⟩ := Option.bind_eq_some_iff.mp ((exec_snoc _ _ _ _).symm.trans hb)
    exact (ih hmid fun m hm => hc m (List.mem_append_left _ hm)).under_snoc hmid hb
      (hc m (List.mem_append_right _ (List.mem_singleton_self m)) c)

/-- The last step of a run. -/
theorem run_snoc_iff {ls : List ι} {l : ι} {b : σ} :
    Run R s₀ (ls ++ [l]) b ↔ ∃ a, Run R s₀ ls a ∧ R a l b := by
  refine ⟨fun h => ?_, fun ⟨a, ha, hl⟩ => ha.snoc hl⟩
  generalize hms : ls ++ [l] = ms at h
  cases h with
  | nil => exact absurd hms (by simp)
  | snoc hrun hl =>
    obtain ⟨rfl, heq⟩ := List.append_inj' hms rfl
    obtain rfl := List.singleton_inj.mp heq
    exact ⟨_, hrun, hl⟩

/-- **The rule for an exact condition.** Where a step that meets the condition keeps the
property, a step that does not breaks it, and a property that is broken stays so, a run of a
step function ends in a state with the property exactly if all its steps meet the
condition. -/
theorem Run.iff_under {step : σ → ι → Option σ} {C : σ → ι → Prop} {P B : σ → Prop} (h0 : P s₀)
    (hkeep : ∀ s l s', P s → C s l → step s l = some s' → P s')
    (hbreak : ∀ s l s', P s → ¬C s l → step s l = some s' → B s')
    (hstay : ∀ s l s', B s → step s l = some s' → B s') (hbroken : ∀ s, B s → ¬P s)
    {ls : List ι} {s : σ} (h : Run (ofStep step) s₀ ls s) :
    P s ↔ Run (Under C (ofStep step)) s₀ ls s := by
  suffices hI : P s ∧ Run (Under C (ofStep step)) s₀ ls s ∨
      B s ∧ ¬Run (Under C (ofStep step)) s₀ ls s by
    rcases hI with ⟨hP, hrun⟩ | ⟨hB, hrun⟩
    · exact iff_of_true hP hrun
    · exact iff_of_false (hbroken s hB) hrun
  induction h with
  | nil => exact .inl ⟨h0, .nil⟩
  | @snoc ls s l s' hrun hl ih =>
    -- a run under the condition goes through the state that this one has come to
    have hback : Run (Under C (ofStep step)) s₀ (ls ++ [l]) s' →
        Run (Under C (ofStep step)) s₀ ls s ∧ C s l := by
      intro hunder
      obtain ⟨a, ha, hC, -⟩ := run_snoc_iff.mp hunder
      obtain rfl := hrun.functional ha.of_under
      exact ⟨ha, hC⟩
    rcases ih with ⟨hP, hunder⟩ | ⟨hB, hnot⟩
    · by_cases hC : C s l
      · exact .inl ⟨hkeep s l s' hP hC hl, hunder.snoc ⟨hC, hl⟩⟩
      · exact .inr ⟨hbreak s l s' hP hC hl, fun hrun' => hC (hback hrun').2⟩
    · exact .inr ⟨hstay s l s' hB hl, fun hrun' => hnot (hback hrun').1⟩

/-- A state that execution ends in and that passes a test. -/
theorem exists_exec (step : σ → ι → Option σ) (s₀ : σ) (ls : List ι) (p : σ → Bool)
    (h : (exec step s₀ ls).any p) : ∃ s, exec step s₀ ls = some s ∧ p s :=
  (Option.any_eq_true ..).mp h

/-- A run to a state that passes a test. -/
theorem exists_run_of_exec (step : σ → ι → Option σ) (s₀ : σ) (ls : List ι) (p : σ → Bool)
    (h : (exec step s₀ ls).any p) : ∃ s, Run (ofStep step) s₀ ls s ∧ p s := by
  obtain ⟨s, hs, hp⟩ := exists_exec step s₀ ls p h
  exact ⟨s, run_of_exec hs, hp⟩

/-- A run under a condition to a state that passes a test: every step is checked before it
is taken, by a test that implies the condition. -/
theorem exists_under_run_of_exec (step : σ → ι → Option σ) {C : σ → ι → Prop}
    (check : σ → ι → Bool) (hcheck : ∀ s l, check s l → C s l) (s₀ : σ) (ls : List ι)
    (p : σ → Bool) (h : (exec (fun s l => if check s l then step s l else none) s₀ ls).any p) :
    ∃ s, Run (Under C (ofStep step)) s₀ ls s ∧ p s := by
  obtain ⟨s, hrun, hs⟩ := exists_run_of_exec _ s₀ ls p h
  refine ⟨s, hrun.mono fun a l b hl => ?_, hs⟩
  by_cases hc : check a l
  · exact ⟨hcheck a l hc, by simpa [ofStep, hc] using hl⟩
  · exact absurd hl (by simp [ofStep, hc])

/-! ### Logs

A log grows at its front. What an event promises is a property of the state that later
steps keep; and as long as it holds, nothing is logged that the event forbids. -/

section Log

variable {ε : Type*} {log : List ε} {G G' : ε → List ε → Prop} {C : ε → List ε → ε → Prop}

/-- Every event of the log is respected: `G` holds for it, given what was logged before it,
and nothing was logged after it that `C` forbids. -/
def Respected (G : ε → List ε → Prop) (C : ε → List ε → ε → Prop) (log : List ε) : Prop :=
  ∀ later e earlier, log = later ++ e :: earlier → G e earlier ∧ ∀ x ∈ later, ¬C e earlier x

theorem respected_nil : Respected G C [] :=
  fun _ _ _ h => absurd h (by simp)

/-- A step that logs nothing. -/
theorem Respected.mono (h : Respected G C log)
    (hG : ∀ e earlier, (∀ x ∈ e :: earlier, x ∈ log) → G e earlier → G' e earlier) :
    Respected G' C log := by
  intro later e earlier heq
  obtain ⟨hkeep, hlater⟩ := h later e earlier heq
  refine ⟨hG e earlier (fun x hx => ?_) hkeep, hlater⟩
  rw [heq]
  exact List.mem_append_right _ hx

/-- **A step that logs an event**: the event is one that no earlier one forbids, and is
respected itself. -/
theorem Respected.cons {x : ε} (h : Respected G C log)
    (hG : ∀ e earlier, (∀ x ∈ e :: earlier, x ∈ log) → G e earlier → G' e earlier)
    (hC : ∀ e earlier, G e earlier → ¬C e earlier x) (hx : G' x log) :
    Respected G' C (x :: log) := by
  intro later e earlier heq
  rcases later with _ | ⟨y, later⟩
  · obtain ⟨rfl, rfl⟩ := List.cons.inj heq
    exact ⟨hx, fun _ hin => absurd hin List.not_mem_nil⟩
  · obtain ⟨rfl, hlog⟩ := List.cons.inj heq
    obtain ⟨hkeep, hlater⟩ := h.mono hG later e earlier hlog
    refine ⟨hkeep, fun z hz => ?_⟩
    rcases List.mem_cons.mp hz with rfl | hz
    · exact hC e earlier (h later e earlier hlog).1
    · exact hlater z hz

end Log

/-! ### Tables of processes

The processes of a system are a table with a place for each name, and a step writes one
place. -/

variable {δ π : Type*} [DecidableEq δ] {procs : δ → Option π} {p : δ} {new : Option π}

/-- **What holds of every process** after one of them is written: it holds of the one, and
held of the others. -/
theorem forall_update {P : δ → π → Prop} (hnew : ∀ proc, new = some proc → P p proc)
    (hold : ∀ q proc, q ≠ p → procs q = some proc → P q proc) :
    ∀ q proc, Function.update procs p new q = some proc → P q proc := by
  intro q proc hq
  rcases eq_or_ne q p with rfl | hne
  · rw [Function.update_self] at hq
    exact hnew proc hq
  · rw [Function.update_of_ne hne] at hq
    exact hold q proc hne hq

/-- A process of the table after one place of it is written. -/
theorem update_eq_some {q : δ} {proc : π} (h : Function.update procs p new q = some proc) :
    q = p ∧ new = some proc ∨ q ≠ p ∧ procs q = some proc := by
  rcases eq_or_ne q p with rfl | hne
  · rw [Function.update_self] at h
    exact .inl ⟨rfl, h⟩
  · rw [Function.update_of_ne hne] at h
    exact .inr ⟨hne, h⟩

end Lts

end OtamanBridge
