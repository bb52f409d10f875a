import OtamanBridge.Lib.PyScan
import OtamanBridge.Lib.PyTime

/-!
# Reading numbers

`int` of a text of digits, of any script, and that it reads back what `str` writes
(`OtamanBridge.Py.ofDigits_decimal`).
-/

namespace OtamanBridge

namespace Py

/-- The value of a character that `\d` takes. -/
def digitValue (c : ℕ) : ℕ :=
  (digitRuns.find? fun d => d ≤ c && c < d + 10).elim 0 (c - ·)

/-- `int` of a text of digits. -/
def ofDigits (t : Text) : ℕ := t.foldl (fun n c => 10 * n + digitValue c) 0

theorem isDigit_of_ascii {c : ℕ} (h : 48 ≤ c ∧ c ≤ 57) : isDigit c := by
  rw [isDigit, digitRuns, List.any_cons]
  simp only [Bool.or_eq_true, Bool.and_eq_true, decide_eq_true_eq]
  exact .inl (by omega)

theorem digitValue_of_ascii {c : ℕ} (h : 48 ≤ c ∧ c ≤ 57) : digitValue c = c - 48 := by
  rw [digitValue, digitRuns, List.find?_cons_of_pos]
  · rfl
  · simp only [Bool.and_eq_true, decide_eq_true_eq]
    omega

theorem isDigit_of_mem_decimal {c n : ℕ} (h : c ∈ decimal n) : isDigit c :=
  isDigit_of_ascii (mem_decimal h)

theorem decimal_ne_nil (n : ℕ) : decimal n ≠ [] := by
  rw [decimal, Ne, List.map_eq_nil_iff]
  exact Nat.toDigits_ne_nil

/-- **`int` reads back what `str` writes.** -/
theorem ofDigits_decimal (n : ℕ) : ofDigits (decimal n) = n := by
  have hchars : ∀ (cs : List Char) (init : ℕ), (∀ c ∈ cs.map Char.toNat, 48 ≤ c ∧ c ≤ 57) →
      (cs.map Char.toNat).foldl (fun n c => 10 * n + digitValue c) init =
        Nat.ofDigitChars 10 cs init := by
    intro cs
    induction cs with
    | nil => exact fun _ _ => Nat.ofDigitChars_nil.symm
    | cons c cs ih =>
      intro init h
      rw [List.map_cons, List.foldl_cons, ih _ fun d hd => h d (List.mem_cons_of_mem _ hd),
        digitValue_of_ascii (h _ List.mem_cons_self), Nat.ofDigitChars_cons]
      rfl
  rw [ofDigits, decimal, hchars _ _ fun c hc => mem_decimal hc, Nat.ofDigitChars_ten_toDigits]

/-- A number below `10 ^ k` has at most `k` digits. -/
theorem length_decimal_le {n k : ℕ} (hk : 0 < k) (h : n < 10 ^ k) : (decimal n).length ≤ k := by
  rw [decimal, List.length_map]
  exact (Nat.length_toDigits_le_iff (by omega) hk).mpr h

end Py

end OtamanBridge
