import Mathlib.Data.List.Basic
import Mathlib.Data.List.Induction

/-!
# Inputs that make no difference

A deterministic program is read as a function from a state and an input to the next state and
what comes out. Some of the inputs are to make no difference to the others: a run looks as if
they had been left out. By unwinding this is a matter of single steps
(`OtamanBridge.Unwinding.Unwinds`): such an input leaves the state alike to every state it was
alike to, and any other input takes alike states to alike states and gives the same away.
Then a run is compared with the run of the other inputs alone, of any length and in any order
(`OtamanBridge.Unwinding.Unwinds.purge`).
-/

namespace OtamanBridge

namespace Unwinding

variable {σ ι ο : Type*} (step : σ → ι → σ × List ο)

/-- A run: the state it ends in, and all that came out, with the inputs it came from. -/
def run (s : σ) : List ι → σ × List (ι × ο)
  | [] => (s, [])
  | l :: ls =>
    ((run (step s l).1 ls).1, (step s l).2.map (Prod.mk l) ++ (run (step s l).1 ls).2)

/-- Every input of the run meets a condition in the state that it finds. -/
def Along (C : σ → ι → Prop) (s : σ) : List ι → Prop
  | [] => True
  | l :: ls => C s l ∧ Along C (step s l).1 ls

variable {step} {s t : σ} {l : ι} {ls : List ι}

/-- A run goes on where another has ended. -/
theorem run_append (ls ms : List ι) : run step s (ls ++ ms) =
    ((run step (run step s ls).1 ms).1,
      (run step s ls).2 ++ (run step (run step s ls).1 ms).2) := by
  induction ls generalizing s with
  | nil => rfl
  | cons l ls ih =>
    rw [List.cons_append, run, ih, run]
    simp only [List.append_assoc]

/-- One more input. -/
theorem run_snoc (ls : List ι) (l : ι) : run step s (ls ++ [l]) =
    ((step (run step s ls).1 l).1,
      (run step s ls).2 ++ (step (run step s ls).1 l).2.map (Prod.mk l)) := by
  rw [run_append, run, run, List.append_nil]

/-- **The rule for invariants**, of the inputs taken, of what came out and of the state. -/
theorem run_inv {I : List ι → List (ι × ο) → σ → Prop} (h0 : I [] [] s)
    (hstep : ∀ ls log a l, I ls log a → I (ls ++ [l]) (log ++ (step a l).2.map (Prod.mk l))
      (step a l).1) (ls : List ι) : I ls (run step s ls).2 (run step s ls).1 := by
  induction ls using List.reverseRecOn with
  | nil => exact h0
  | append_singleton ls l ih =>
    rw [run_snoc]
    exact hstep _ _ _ l ih

/-- What comes out comes of an input of the run. -/
theorem mem_of_run {e : ι × ο} (he : e ∈ (run step s ls).2) : e.1 ∈ ls := by
  induction ls generalizing s with
  | nil => exact absurd he List.not_mem_nil
  | cons l ls ih =>
    rcases List.mem_append.mp he with he | he
    · obtain ⟨o, -, rfl⟩ := List.mem_map.mp he
      exact List.mem_cons_self
    · exact List.mem_cons_of_mem l (ih he)

/-- **The rule for frames**: what relates a state to itself, composes and relates the two ends
of a step relates the two ends of a run. -/
theorem run_frame {F : σ → σ → Prop} {D : ι → Prop} (hrefl : ∀ s, F s s)
    (htrans : ∀ {a b c}, F a b → F b c → F a c) (hstep : ∀ s l, D l → F (step s l).1 s)
    (hls : ∀ l ∈ ls, D l) : F (run step s ls).1 s := by
  induction ls generalizing s with
  | nil => exact hrefl s
  | cons l ls ih =>
    exact htrans (ih fun m hm => hls m (List.mem_cons_of_mem l hm))
      (hstep s l (hls l List.mem_cons_self))

/-- What comes out of a run comes out of its steps. -/
theorem run_outputs {Q : ο → Prop} {D : ι → Prop} (hstep : ∀ s l, D l → ∀ o ∈ (step s l).2, Q o)
    (hls : ∀ l ∈ ls, D l) : ∀ e ∈ (run step s ls).2, Q e.2 := by
  induction ls generalizing s with
  | nil => exact List.forall_mem_nil _
  | cons l ls ih =>
    intro e he
    rcases List.mem_append.mp he with he | he
    · obtain ⟨o, ho, rfl⟩ := List.mem_map.mp he
      exact hstep s l (hls l List.mem_cons_self) o ho
    · exact ih (fun m hm => hls m (List.mem_cons_of_mem l hm)) e he

variable (visible : ι → Bool) (shown : ο → Bool)

/-- What is looked at: what is shown of what came of the visible inputs. -/
def seen (log : List (ι × ο)) : List (ι × ο) := log.filter fun e => visible e.1 && shown e.2

theorem seen_append (log log' : List (ι × ο)) :
    seen visible shown (log ++ log') = seen visible shown log ++ seen visible shown log' :=
  List.filter_append log log'

variable {visible shown}

theorem seen_of_hidden (hl : visible l = false) (out : List ο) :
    seen visible shown (out.map (Prod.mk l)) = [] := by
  refine List.filter_eq_nil_iff.mpr fun e he => ?_
  obtain ⟨o, -, rfl⟩ := List.mem_map.mp he
  simp [hl]

theorem seen_of_visible (hl : visible l = true) (out : List ο) :
    seen visible shown (out.map (Prod.mk l)) = (out.filter shown).map (Prod.mk l) := by
  rw [seen, List.filter_map]
  congr 1
  refine List.filter_congr fun o _ => ?_
  simp [hl]

variable (step visible shown)

/-- The conditions on single steps: on the visible inputs, only where the second of the two
states meets the condition `C`. -/
structure Unwinds (C : σ → ι → Prop) (R : σ → σ → Prop) : Prop where
  skips : ∀ {s t l}, visible l = false → R s t → R (step s l).1 t
  keeps : ∀ {s t l}, visible l = true → R s t → C t l → R (step s l).1 (step t l).1
  shows : ∀ {s t l}, visible l = true → R s t → C t l →
    (step s l).2.filter shown = (step t l).2.filter shown

variable {step visible shown} {C : σ → ι → Prop} {R : σ → σ → Prop}

/-- **The hidden inputs make no difference**: the run ends as, and shows what, the run of the
visible ones does. -/
theorem Unwinds.purge (h : Unwinds step visible shown C R) (hst : R s t)
    (hC : Along step C t (ls.filter visible)) :
    R (run step s ls).1 (run step t (ls.filter visible)).1 ∧
      seen visible shown (run step s ls).2 =
        seen visible shown (run step t (ls.filter visible)).2 := by
  induction ls generalizing s t with
  | nil => exact ⟨hst, rfl⟩
  | cons l ls ih =>
    rcases hl : visible l with _ | _
    · -- a hidden input moves the first of the two states only
      rw [List.filter_cons_of_neg (by simp [hl])] at hC ⊢
      obtain ⟨hR, hseen⟩ := ih (h.skips hl hst) hC
      refine ⟨hR, ?_⟩
      rw [run, seen_append, seen_of_hidden hl, List.nil_append]
      exact hseen
    · -- a visible one moves both
      rw [List.filter_cons_of_pos hl] at hC ⊢
      obtain ⟨hR, hseen⟩ := ih (h.keeps hl hst hC.1) hC.2
      refine ⟨hR, ?_⟩
      rw [run, run, seen_append, seen_append, seen_of_visible hl, seen_of_visible hl,
        h.shows hl hst hC.1]
      exact congrArg _ hseen

end Unwinding

end OtamanBridge
