import Mathlib.Data.Nat.Find
import Mathlib.Order.Interval.Finset.Nat

/-!
# The search for a free name

A program that must not overwrite tries one name after the other until it finds one that is
free. The search has no bound of its own. It ends since the names it tries are pairwise
different and only finitely many of them are taken (`OtamanBridge.Probe.firstFree_isSome`),
and it ends at the first one that is not (`OtamanBridge.Probe.firstFree_eq_some_iff`).

To ask whether a name is taken may fail, and then the search fails.
-/

namespace OtamanBridge

namespace Probe

variable {α ε : Type*} {taken : α → Except ε Bool} {cand : ℕ → α} {fuel fuel' n k : ℕ}
  {r : Except ε α}

/-- `while taken(x): x = cand(n); n += 1`, from the `n`-th candidate on. There is no
result if the fuel is used up before the search ends. -/
def firstFree (taken : α → Except ε Bool) (cand : ℕ → α) : ℕ → ℕ → Option (Except ε α)
  | 0, _ => none
  | fuel + 1, n =>
    match taken (cand n) with
    | .error e => some (.error e)
    | .ok true => firstFree taken cand fuel (n + 1)
    | .ok false => some (.ok (cand n))

/-- **Where the search comes to**: all candidates before this one are taken. -/
def Reaches (taken : α → Except ε Bool) (cand : ℕ → α) (n k : ℕ) : Prop :=
  n ≤ k ∧ ∀ j, n ≤ j → j < k → taken (cand j) = .ok true

theorem reaches_self : Reaches taken cand n n :=
  ⟨le_rfl, fun _ hnj hjn => absurd hnj (by omega)⟩

theorem reaches_succ (h : taken (cand n) = .ok true) :
    Reaches taken cand (n + 1) k ↔ Reaches taken cand n k ∧ n < k := by
  constructor
  · rintro ⟨hle, hall⟩
    refine ⟨⟨by omega, fun j hnj hjk => ?_⟩, by omega⟩
    rcases eq_or_lt_of_le hnj with rfl | hlt
    · exact h
    · exact hall j hlt hjk
  · rintro ⟨⟨-, hall⟩, hlt⟩
    exact ⟨hlt, fun j hnj hjk => hall j (by omega) hjk⟩

/-- It does not come past a candidate that is not taken. -/
theorem Reaches.le {k' : ℕ} (h : Reaches taken cand n k') (hk : n ≤ k)
    (hfree : taken (cand k) ≠ .ok true) : k' ≤ k := by
  by_contra hlt
  exact hfree (h.2 k hk (by omega))

/-- **How a search ends**: at the first candidate that is not taken, with its name or with
the error. -/
theorem firstFree_eq_some_iff : firstFree taken cand fuel n = some r ↔
    ∃ k, Reaches taken cand n k ∧ k < n + fuel ∧ taken (cand k) ≠ .ok true ∧
      r = (taken (cand k)).map fun _ => cand k := by
  induction fuel generalizing n with
  | zero =>
    constructor
    · intro h
      exact absurd h (by simp [firstFree])
    · rintro ⟨k, ⟨hle, -⟩, hlt, -⟩
      omega
  | succ fuel ih =>
    -- a search that ends at once ends nowhere else
    have hstop : taken (cand n) ≠ .ok true →
        ∀ k, Reaches taken cand n k → k = n := by
      rintro h k ⟨hle, hall⟩
      by_contra hne
      exact h (hall n le_rfl (by omega))
    rw [firstFree]
    cases h : taken (cand n) with
    | error e =>
      constructor
      · intro hr
        exact ⟨n, reaches_self, by omega, by simp [h], by rw [h]; exact (Option.some.inj hr).symm⟩
      · rintro ⟨k, hk, -, -, rfl⟩
        rw [hstop (by simp [h]) k hk, h]
        rfl
    | ok b =>
      cases b with
      | false =>
        constructor
        · intro hr
          exact ⟨n, reaches_self, by omega, by simp [h],
            by rw [h]; exact (Option.some.inj hr).symm⟩
        · rintro ⟨k, hk, -, -, rfl⟩
          rw [hstop (by simp [h]) k hk, h]
          rfl
      | true =>
        show firstFree taken cand fuel (n + 1) = some r ↔ _
        rw [ih]
        constructor
        · rintro ⟨k, hk, hlt, hfree, hr⟩
          exact ⟨k, ((reaches_succ h).mp hk).1, by omega, hfree, hr⟩
        · rintro ⟨k, hk, hlt, hfree, hr⟩
          have hne : k ≠ n := by
            rintro rfl
            exact hfree h
          have hnk : n < k := lt_of_le_of_ne hk.1 hne.symm
          exact ⟨k, (reaches_succ h).mpr ⟨hk, hnk⟩, by omega, hfree, hr⟩

/-- More fuel does not change a result. -/
theorem firstFree_mono (hle : fuel ≤ fuel') (h : firstFree taken cand fuel n = some r) :
    firstFree taken cand fuel' n = some r := by
  obtain ⟨k, hk, hlt, hfree, hr⟩ := firstFree_eq_some_iff.mp h
  exact firstFree_eq_some_iff.mpr ⟨k, hk, by omega, hfree, hr⟩

/-- Among one candidate more than there are names that are taken, one is not. -/
theorem exists_not_taken (hinj : Function.Injective cand) {names : List α}
    (hnames : ∀ a, taken a = .ok true → a ∈ names) (n : ℕ) :
    ∃ k, n ≤ k ∧ k ≤ n + names.length ∧ taken (cand k) ≠ .ok true := by
  classical
  by_contra h
  have hall : ∀ k, n ≤ k → k ≤ n + names.length → taken (cand k) = .ok true := by
    intro k hnk hk
    by_contra hfree
    exact h ⟨k, hnk, hk, hfree⟩
  have hsub : (Finset.Icc n (n + names.length)).image cand ⊆ names.toFinset := by
    intro a ha
    obtain ⟨k, hk, rfl⟩ := Finset.mem_image.mp ha
    rw [Finset.mem_Icc] at hk
    exact List.mem_toFinset.mpr (hnames _ (hall k hk.1 hk.2))
  have hcard := Finset.card_le_card hsub
  rw [Finset.card_image_of_injective _ hinj, Nat.card_Icc] at hcard
  have := names.toFinset_card_le
  omega

/-- **The search ends** if the candidates are pairwise different and the names that are
taken are among finitely many. -/
theorem firstFree_isSome (hinj : Function.Injective cand) {names : List α}
    (hnames : ∀ a, taken a = .ok true → a ∈ names) (hfuel : names.length < fuel) :
    (firstFree taken cand fuel n).isSome := by
  classical
  obtain ⟨k, hnk, hk, hfree⟩ := exists_not_taken hinj hnames n
  -- the first of them is where the search ends
  have hex : ∃ k, n ≤ k ∧ taken (cand k) ≠ .ok true := ⟨k, hnk, hfree⟩
  have hmin := Nat.find_min' hex ⟨hnk, hfree⟩
  have hreach : Reaches taken cand n (Nat.find hex) := by
    refine ⟨(Nat.find_spec hex).1, fun j hnj hj => ?_⟩
    by_contra htaken
    exact Nat.find_min hex hj ⟨hnj, htaken⟩
  rw [Option.isSome_iff_exists]
  exact ⟨_, firstFree_eq_some_iff.mpr
    ⟨_, hreach, by omega, (Nat.find_spec hex).2, rfl⟩⟩

end Probe

end OtamanBridge
