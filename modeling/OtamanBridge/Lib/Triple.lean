import Mathlib.Tactic.Common

/-!
# Triples for computations that may raise

A computation with a state and exceptions is an `EStateM`, and an exception leaves the state
as it is when it is raised. A triple says what holds when the computation returns, and what
holds when it raises. There is one rule for each way computations are put together, so that a
longer one is gone through from front to back, with the triples of its parts.
-/

namespace OtamanBridge

variable {ε σ α β : Type}

/-- Started where `P` holds, the computation returns with `Q` or raises with `E`. -/
def Triple (P : σ → Prop) (x : EStateM ε σ α) (Q : α → σ → Prop) (E : ε → σ → Prop) : Prop :=
  ∀ s, P s → match x s with
    | .ok a s' => Q a s'
    | .error e s' => E e s'

namespace Triple

variable {P P' R : σ → Prop} {x y : EStateM ε σ α} {f : α → EStateM ε σ β}
  {Q Q' : α → σ → Prop} {S : β → σ → Prop} {E E' : ε → σ → Prop}

theorem pure {a : α} (h : ∀ s, P s → Q a s) :
    Triple P (Pure.pure a : EStateM ε σ α) Q E := h

theorem throw {e : ε} (h : ∀ s, P s → E e s) :
    Triple P (MonadExcept.throw e : EStateM ε σ α) Q E := h

/-- The state is read. -/
theorem get : Triple P (MonadState.get : EStateM ε σ σ) (fun a s => a = s ∧ P s) E :=
  fun _ hs => ⟨rfl, hs⟩

/-- The state is changed. -/
theorem modify {g : σ → σ} (h : ∀ s, P s → R (g s)) :
    Triple P (modify g : EStateM ε σ PUnit) (fun _ => R) E := h

/-- One after the other. -/
theorem bind (hx : Triple P x Q E) (hf : ∀ a, Triple (Q a) (f a) S E) :
    Triple P (x >>= f) S E := by
  intro s hs
  have h := hx s hs
  show match EStateM.bind x f s with
    | .ok b s' => S b s'
    | .error e s' => E e s'
  rw [EStateM.bind]
  rcases hxs : x s with ⟨a, s'⟩ | ⟨e, s'⟩
  · rw [hxs] at h
    exact hf a s' h
  · rw [hxs] at h
    exact h

/-- More is known, less is asked. -/
theorem conseq (h : Triple P x Q E) (hP : ∀ s, P' s → P s) (hQ : ∀ a s, Q a s → Q' a s)
    (hE : ∀ e s, E e s → E' e s) : Triple P' x Q' E' := by
  intro s hs
  have h' := h s (hP s hs)
  rcases hxs : x s with ⟨a, s'⟩ | ⟨e, s'⟩
  · rw [hxs] at h'
    exact hQ a s' h'
  · rw [hxs] at h'
    exact hE e s' h'

/-- More is known. -/
theorem weaken (h : Triple P x Q E) (hP : ∀ s, P' s → P s) : Triple P' x Q E :=
  h.conseq hP (fun _ _ hq => hq) fun _ _ he => he

/-- One of two. -/
theorem ite {c : Prop} [Decidable c] (hx : c → Triple P x Q E) (hy : ¬c → Triple P y Q E) :
    Triple P (if c then x else y) Q E := by
  split_ifs with hc
  · exact hx hc
  · exact hy hc

/-- What is known of every state does not depend on the state. -/
theorem of_state {p : Prop} (hp : ∀ s, P s → p) (h : p → Triple P x Q E) : Triple P x Q E :=
  fun s hs => h (hp s hs) s hs

end Triple

end OtamanBridge
