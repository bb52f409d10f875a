import Mathlib.Data.List.Pairwise
import OtamanBridge.Lib.Run

/-!
# Things in one place at a time

A table of places, each of which may hold a thing. A thing is issued into an empty place, may
be moved to another, and is spent out of the place it is in. Nothing copies a thing, so it is
in one place at most, and is spent once at most; and nothing loses one, so what was issued and
is not spent is somewhere (`OtamanBridge.Custody`). A concurrent program that takes an entry
out of a table under a lock, and has done with it later, is an instance.
-/

namespace OtamanBridge

variable {P ι : Type*}

/-- **Custody**: what was issued is in one place, or spent once. -/
structure Custody (held : P → Option ι) (issued spent : List ι) : Prop where
  /-- A thing is in one place. -/
  apart : ∀ p q i, held p = some i → held q = some i → p = q
  /-- What is in a place was issued. -/
  valid : ∀ p i, held p = some i → i ∈ issued
  /-- What is in a place is not spent. -/
  unspent : ∀ p i, held p = some i → i ∉ spent
  /-- What is spent was issued. -/
  covered : ∀ i ∈ spent, i ∈ issued
  /-- Nothing is spent twice. -/
  once : spent.Nodup
  /-- Nothing is lost. -/
  kept : ∀ i ∈ issued, i ∈ spent ∨ ∃ p, held p = some i

namespace Custody

variable {held : P → Option ι} {issued spent : List ι} {p q : P} {i : ι}

theorem empty : Custody (fun _ : P => (none : Option ι)) [] [] where
  apart _ _ _ h := absurd h (by simp)
  valid _ _ h := absurd h (by simp)
  unspent _ _ h := absurd h (by simp)
  covered _ h := absurd h List.not_mem_nil
  once := List.nodup_nil
  kept _ h := absurd h List.not_mem_nil

variable [DecidableEq P]

/-- **A new thing** comes to an empty place. -/
theorem issue (h : Custody held issued spent) (hempty : held p = none) (hnew : i ∉ issued) :
    Custody (Function.update held p (some i)) (i :: issued) spent where
  apart := by
    have hother : ∀ q, held q ≠ some i := fun q hq => hnew (h.valid q i hq)
    intro q r j hqnew hrnew
    rcases Lts.update_eq_some hqnew with ⟨rfl, hj⟩ | ⟨-, hq⟩ <;>
      rcases Lts.update_eq_some hrnew with ⟨rfl, hj'⟩ | ⟨-, hr⟩
    · rfl
    · obtain rfl := Option.some.inj hj
      exact absurd hr (hother r)
    · obtain rfl := Option.some.inj hj'
      exact absurd hq (hother q)
    · exact h.apart q r j hq hr
  valid := by
    intro q j hq
    rcases Lts.update_eq_some hq with ⟨rfl, hj⟩ | ⟨-, hq⟩
    · obtain rfl := Option.some.inj hj
      exact List.mem_cons_self
    · exact List.mem_cons_of_mem _ (h.valid q j hq)
  unspent := by
    intro q j hq
    rcases Lts.update_eq_some hq with ⟨rfl, hj⟩ | ⟨-, hq⟩
    · obtain rfl := Option.some.inj hj
      exact fun hspent => hnew (h.covered i hspent)
    · exact h.unspent q j hq
  covered j hj := List.mem_cons_of_mem _ (h.covered j hj)
  once := h.once
  kept := by
    intro j hj
    rcases List.mem_cons.mp hj with rfl | hj
    · exact .inr ⟨p, Function.update_self ..⟩
    · refine (h.kept j hj).imp_right ?_
      rintro ⟨q, hq⟩
      have hne : q ≠ p := by
        rintro rfl
        rw [hempty] at hq
        exact absurd hq (by simp)
      exact ⟨q, by rwa [Function.update_of_ne hne]⟩

/-- **A thing is spent**, out of its place. -/
theorem spend (h : Custody held issued spent) (hp : held p = some i) :
    Custody (Function.update held p none) issued (i :: spent) where
  apart := by
    intro q r j hq hr
    obtain ⟨-, hnone⟩ | ⟨-, hq⟩ := Lts.update_eq_some hq
    · exact absurd hnone (by simp)
    obtain ⟨-, hnone⟩ | ⟨-, hr⟩ := Lts.update_eq_some hr
    · exact absurd hnone (by simp)
    exact h.apart q r j hq hr
  valid := by
    intro q j hq
    obtain ⟨-, hnone⟩ | ⟨-, hq⟩ := Lts.update_eq_some hq
    · exact absurd hnone (by simp)
    exact h.valid q j hq
  unspent := by
    intro q j hq
    obtain ⟨-, hnone⟩ | ⟨hne, hq⟩ := Lts.update_eq_some hq
    · exact absurd hnone (by simp)
    rw [List.mem_cons, not_or]
    refine ⟨?_, h.unspent q j hq⟩
    rintro rfl
    exact hne (h.apart q p j hq hp)
  covered := by
    intro j hj
    rcases List.mem_cons.mp hj with rfl | hj
    · exact h.valid p j hp
    · exact h.covered j hj
  once := List.nodup_cons.mpr ⟨h.unspent p i hp, h.once⟩
  kept := by
    intro j hj
    rcases h.kept j hj with hspent | ⟨q, hq⟩
    · exact .inl (List.mem_cons_of_mem _ hspent)
    · rcases eq_or_ne q p with rfl | hne
      · obtain rfl := Option.some.inj (hp.symm.trans hq)
        exact .inl List.mem_cons_self
      · exact .inr ⟨q, by rwa [Function.update_of_ne hne]⟩

/-- **A thing is moved** to an empty place. -/
theorem move (h : Custody held issued spent) (hp : held p = some i) (hq : held q = none) :
    Custody (Function.update (Function.update held p none) q (some i)) issued spent := by
  -- where a thing is now, and where it was
  have hcases : ∀ r j, Function.update (Function.update held p none) q (some i) r = some j →
      r = q ∧ j = i ∨ r ≠ p ∧ held r = some j := by
    intro r j hr
    rcases Lts.update_eq_some hr with ⟨rfl, hj⟩ | ⟨-, hr⟩
    · exact .inl ⟨rfl, (Option.some.inj hj).symm⟩
    · rcases Lts.update_eq_some hr with ⟨-, hnone⟩ | hr
      · exact absurd hnone (by simp)
      · exact .inr hr
  refine ⟨?_, ?_, ?_, h.covered, h.once, ?_⟩
  · intro r r' j hrnew hrnew'
    rcases hcases r j hrnew with ⟨rfl, rfl⟩ | ⟨hne, hr⟩ <;>
      rcases hcases r' _ hrnew' with ⟨rfl, hj⟩ | ⟨hne', hr'⟩
    · rfl
    · exact absurd (h.apart r' p _ hr' hp) hne'
    · subst hj
      exact absurd (h.apart r p _ hr hp) hne
    · exact h.apart r r' j hr hr'
  · intro r j hr
    rcases hcases r j hr with ⟨-, rfl⟩ | ⟨-, hr⟩
    · exact h.valid p j hp
    · exact h.valid r j hr
  · intro r j hr
    rcases hcases r j hr with ⟨-, rfl⟩ | ⟨-, hr⟩
    · exact h.unspent p j hp
    · exact h.unspent r j hr
  · intro j hj
    refine (h.kept j hj).imp_right ?_
    rintro ⟨r, hr⟩
    rcases eq_or_ne r p with rfl | hne
    · obtain rfl := Option.some.inj (hp.symm.trans hr)
      exact ⟨q, Function.update_self ..⟩
    · have hneq : r ≠ q := by
        rintro rfl
        rw [hq] at hr
        exact absurd hr (by simp)
      exact ⟨r, by rwa [Function.update_of_ne hneq, Function.update_of_ne hne]⟩

end Custody

/-! ### What a log says

The things issued and spent are read off a log, each from the events of its kind. Where one
kind is part of another, what is spent once in the larger is in the smaller once at most, and
not in both the smaller and the rest. -/

section Log

variable {ε : Type*} {f g : ε → Option ι} {log : List ε}

theorem nodup_filterMap (hfg : ∀ e i, f e = some i → g e = some i)
    (h : (log.filterMap g).Nodup) : (log.filterMap f).Nodup := by
  rw [List.Nodup, List.pairwise_filterMap] at h ⊢
  exact h.imp fun hne a ha b hb => hne a (hfg _ a ha) b (hfg _ b hb)

theorem not_mem_filterMap (hfg : ∀ e i, f e = some i → g e = some i)
    (h : (log.filterMap g).Nodup) {e : ε} (he : e ∈ log) {i : ι} (hg : g e = some i)
    (hnone : f e = none) : i ∉ log.filterMap f := by
  intro hin
  obtain ⟨x, hx, hf⟩ := List.mem_filterMap.mp hin
  have hne : e ≠ x := by
    rintro rfl
    rw [hnone] at hf
    exact absurd hf (by simp)
  rw [List.Nodup, List.pairwise_filterMap] at h
  have : Std.Symm fun a b : ε => ∀ i, g a = some i → ∀ j, g b = some j → i ≠ j :=
    ⟨fun a b hab i hi j hj => (hab j hj i hi).symm⟩
  exact h.forall he hx hne i hg i (hfg x i hf) rfl

end Log

end OtamanBridge
