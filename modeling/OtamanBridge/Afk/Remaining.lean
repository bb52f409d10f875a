import OtamanBridge.Afk.Duration
import OtamanBridge.Lib.PyFloat
import OtamanBridge.Lib.PyLines

/-!
# How long is left

`format_remaining` of `afk.py` writes a duration as `parse_duration` reads it, but for the
spaces: it takes weeks out, then days, hours and minutes, as many as there are of each, and
leaves the units out of which there are none. Whatever the units are, what is taken out and
the rest make up the whole (`OtamanBridge.Afk.total_counted`). So a whole number of seconds is
read back (`OtamanBridge.Afk.parseDuration_formatRemaining`).
-/

namespace OtamanBridge

namespace Afk

open Py

/-! ### The format -/

/-- `f"{count}{unit}"`. -/
def part (count : ℕ) (unit : DurationUnit) : Text := decimal count ++ [unit.letter]

/-- The loop over the units: what it appends to `parts`, and the rest. -/
def partsOf : List DurationUnit → ℕ → List Text × ℕ
  | [], total => ([], total)
  | unit :: units, total =>
    let (parts, rest) := partsOf units (total % unit.seconds)
    if total / unit.seconds ≠ 0 then (part (total / unit.seconds) unit :: parts, rest)
    else (parts, rest)

/-- `delta.total_seconds()`. -/
def Timedelta.totalSeconds (delta : Timedelta) : ℚ := nearest (delta.micros / 1000000)

/-- `format_remaining`. -/
def formatRemaining (delta : Timedelta) : Text :=
  let total := trunc delta.totalSeconds
  if total ≤ 0 then lit "0s"
  else
    let (parts, rest) := partsOf [.w, .d, .h, .m] total.toNat
    let parts := if rest ≠ 0 then parts ++ [part rest .s] else parts
    if parts = [] then lit "0s" else (lit " ").intercalate parts

/-- `t.replace(" ", "")`. -/
def removeSpaces (t : Text) : Text := t.filter (· ≠ ' '.toNat)

/-! ### What is taken out of the whole -/

/-- The chunk that `part` writes. -/
def chunk (count : ℕ) (unit : DurationUnit) : Chunk :=
  ⟨decimal count, unit, decimal_ne_nil count, fun _ => isDigit_of_mem_decimal⟩

theorem text_chunk (count : ℕ) (unit : DurationUnit) : (chunk count unit).text = part count unit :=
  rfl

theorem value_chunk (count : ℕ) (unit : DurationUnit) :
    (chunk count unit).value = count * unit.seconds := by
  rw [Chunk.value, chunk, ofDigits_decimal]

/-- The chunks that the loop takes out, and the rest. -/
def counted : List DurationUnit → ℕ → List Chunk × ℕ
  | [], total => ([], total)
  | unit :: units, total =>
    let (cs, rest) := counted units (total % unit.seconds)
    if total / unit.seconds ≠ 0 then (chunk (total / unit.seconds) unit :: cs, rest)
    else (cs, rest)

variable {units : List DurationUnit} {n : ℕ}

/-- The parts are written chunks. -/
theorem partsOf_eq (units : List DurationUnit) (n : ℕ) :
    partsOf units n = ((counted units n).1.map Chunk.text, (counted units n).2) := by
  induction units generalizing n with
  | nil => rfl
  | cons unit units ih =>
    rw [partsOf, counted, ih]
    by_cases h : n / unit.seconds ≠ 0
    · simp only [if_pos h, List.map_cons, text_chunk]
    · simp only [if_neg h]

/-- **What is taken out and the rest make up the whole.** -/
theorem total_counted (units : List DurationUnit) (n : ℕ) :
    total (counted units n).1 + (counted units n).2 = n := by
  induction units generalizing n with
  | nil => exact Nat.zero_add n
  | cons unit units ih =>
    have hrest := ih (n % unit.seconds)
    have hdiv := Nat.div_add_mod' n unit.seconds
    rw [counted]
    by_cases h : n / unit.seconds ≠ 0
    · simp only [if_pos h, total, List.map_cons, List.sum_cons, value_chunk]
      rw [total] at hrest
      omega
    · have hzero : n / unit.seconds = 0 := not_not.mp h
      simp only [if_neg h]
      rw [hzero, Nat.zero_mul] at hdiv
      omega

/-- All the numbers are at most the whole. -/
theorem digits_counted {c : Chunk} (hc : c ∈ (counted units n).1) :
    ∃ count ≤ n, c.digits = decimal count := by
  induction units generalizing n with
  | nil => exact absurd hc List.not_mem_nil
  | cons unit units ih =>
    have hrest : c ∈ (counted units (n % unit.seconds)).1 →
        ∃ count ≤ n, c.digits = decimal count := by
      intro h
      obtain ⟨count, hle, hdigits⟩ := ih h
      exact ⟨count, hle.trans (Nat.mod_le _ _), hdigits⟩
    rw [counted] at hc
    by_cases h : n / unit.seconds ≠ 0
    · simp only [if_pos h] at hc
      rcases List.mem_cons.mp hc with rfl | hc
      · exact ⟨_, Nat.div_le_self _ _, rfl⟩
      · exact hrest hc
    · simp only [if_neg h] at hc
      exact hrest hc

/-- The chunks of the whole duration: the rest is in seconds. -/
def chunksOf (n : ℕ) : List Chunk :=
  let (cs, rest) := counted [.w, .d, .h, .m] n
  if rest ≠ 0 then cs ++ [chunk rest .s] else cs

/-- **The chunks add up to the duration.** -/
theorem total_chunksOf (n : ℕ) : total (chunksOf n) = n := by
  have hsum := total_counted [.w, .d, .h, .m] n
  rw [chunksOf]
  by_cases h : (counted [.w, .d, .h, .m] n).2 ≠ 0
  · simp only [if_pos h, total, List.map_append, List.sum_append, List.map_cons, List.map_nil,
      List.sum_cons, List.sum_nil, value_chunk, DurationUnit.seconds]
    rw [total] at hsum
    omega
  · simp only [if_neg h]
    omega

theorem digits_chunksOf {c : Chunk} (hc : c ∈ chunksOf n) :
    ∃ count ≤ n, c.digits = decimal count := by
  rw [chunksOf] at hc
  by_cases h : (counted [.w, .d, .h, .m] n).2 ≠ 0
  · simp only [if_pos h] at hc
    rcases List.mem_append.mp hc with hc | hc
    · exact digits_counted hc
    · obtain rfl := List.mem_singleton.mp hc
      have hsum := total_counted [.w, .d, .h, .m] n
      exact ⟨_, by omega, rfl⟩
  · simp only [if_neg h] at hc
    exact digits_counted hc

/-- **What is written** of a whole number of seconds: its chunks, with spaces between them. -/
theorem formatRemaining_eq {delta : Timedelta} (hpos : 0 < n)
    (hdelta : Timedelta.ofSeconds n = .ok delta) :
    formatRemaining delta = (lit " ").intercalate ((chunksOf n).map Chunk.text) := by
  have hn : n ≤ maxSeconds := by
    by_contra hlt
    rw [ofSeconds_of_lt (not_le.mp hlt)] at hdelta
    cases hdelta
  obtain ⟨delta', hdelta', hmicros⟩ := ofSeconds_of_le hn
  obtain rfl := Except.ok.inj (hdelta.symm.trans hdelta')
  have hseconds : trunc delta.totalSeconds = n := by
    have hdiv : ((delta.micros : ℤ) : ℚ) / 1000000 = n := by
      rw [hmicros]
      push_cast
      rw [mul_div_cancel_right₀ _ (by norm_num)]
    rw [maxSeconds] at hn
    rw [Timedelta.totalSeconds, hdiv, nearest_natCast (by omega), trunc,
      if_pos (Nat.cast_nonneg _), Int.floor_natCast]
  have hne : chunksOf n ≠ [] := by
    intro hnil
    have htotal := total_chunksOf n
    rw [hnil] at htotal
    exact hpos.ne htotal
  have hparts : (chunksOf n).map Chunk.text =
      if (counted [.w, .d, .h, .m] n).2 ≠ 0 then
        (counted [.w, .d, .h, .m] n).1.map Chunk.text ++
          [part (counted [.w, .d, .h, .m] n).2 .s]
      else (counted [.w, .d, .h, .m] n).1.map Chunk.text := by
    rw [chunksOf]
    by_cases h : (counted [.w, .d, .h, .m] n).2 ≠ 0
    · simp only [if_pos h, List.map_append, List.map_cons, List.map_nil, text_chunk]
    · simp only [if_neg h]
  simp only [formatRemaining, hseconds, Int.toNat_natCast, partsOf_eq, ← hparts]
  rw [if_neg (by omega), if_neg fun hnil => hne (List.map_eq_nil_iff.mp hnil)]

/-! ### Reading it back -/

/-- A digit or a small letter, which neither `strip` nor `lower` changes. -/
def IsPlain (x : ℕ) : Prop := 48 ≤ x ∧ x ≤ 57 ∨ 97 ≤ x ∧ x ≤ 122

theorem IsPlain.isSpace {x : ℕ} (h : IsPlain x) : isSpace x = false := by
  unfold IsPlain at h
  simp only [Py.isSpace, Bool.or_eq_false_iff, Bool.and_eq_false_iff, decide_eq_false_iff_not]
  omega

theorem IsPlain.lowerChar {x : ℕ} (h : IsPlain x) : lowerChar x = [x] := by
  unfold IsPlain at h
  have hupper : ¬('A'.toNat ≤ x ∧ x ≤ 'Z'.toNat) := by
    show ¬(65 ≤ x ∧ x ≤ 90)
    omega
  rw [Py.lowerChar, if_neg hupper, if_neg (by omega), if_neg (by omega)]

theorem lower_of_isPlain {t : Text} (h : ∀ x ∈ t, IsPlain x) : lower t = t := by
  induction t with
  | nil => rfl
  | cons x t ih =>
    rw [lower, List.flatMap_cons, (h x List.mem_cons_self).lowerChar, ← lower,
      ih fun y hy => h y (List.mem_cons_of_mem _ hy)]
    rfl

theorem strip_of_isPlain {t : Text} (h : ∀ x ∈ t, IsPlain x) : strip t = t :=
  strip_eq_self (fun x hx => (h x (List.mem_of_mem_head? hx)).isSpace)
    fun x hx => (h x (List.mem_of_getLast? hx)).isSpace

/-- Without the spaces the parts follow one another. -/
theorem removeSpaces_intercalate {ts : List Text} (h : ∀ t ∈ ts, ∀ x ∈ t, IsPlain x) :
    removeSpaces ((lit " ").intercalate ts) = ts.flatten := by
  have hkeep : ∀ t ∈ ts, removeSpaces t = t := by
    intro t ht
    refine List.filter_eq_self.mpr fun x hx => decide_eq_true ?_
    rintro rfl
    exact absurd (h t ht _ hx) (by unfold IsPlain; decide)
  induction ts with
  | nil => rfl
  | cons t ts ih =>
    cases ts with
    | nil => simpa using hkeep t List.mem_cons_self
    | cons t' ts =>
      have htail := ih (fun u hu => h u (List.mem_cons_of_mem _ hu))
        fun u hu => hkeep u (List.mem_cons_of_mem _ hu)
      have hcons : (lit " ").intercalate (t :: t' :: ts) =
          t ++ lit " " ++ (lit " ").intercalate (t' :: ts) := by
        simp [List.intercalate]
      rw [hcons, removeSpaces, List.filter_append, List.filter_append, ← removeSpaces,
        ← removeSpaces, hkeep t List.mem_cons_self, ← removeSpaces, htail]
      show t ++ [] ++ _ = _
      rw [List.append_nil]
      rfl

theorem isPlain_letter (u : DurationUnit) : IsPlain u.letter := by
  cases u <;> (unfold IsPlain; decide)

theorem isPlain_chunksOf {c : Chunk} (hc : c ∈ chunksOf n) : ∀ x ∈ c.text, IsPlain x := by
  obtain ⟨count, -, hdigits⟩ := digits_chunksOf hc
  intro x hx
  rw [Chunk.text, hdigits] at hx
  rcases List.mem_append.mp hx with hx | hx
  · exact .inl (mem_decimal hx)
  · obtain rfl := List.mem_singleton.mp hx
    exact isPlain_letter c.unit

/-- The numbers are short enough for any limit that `int` has. -/
theorem takes_chunksOf (py : Interpreter) (hn : n ≤ maxSeconds) {c : Chunk}
    (hc : c ∈ chunksOf n) : py.takes c.digits := by
  obtain ⟨count, hle, hdigits⟩ := digits_chunksOf hc
  have hlen : (decimal count).length ≤ 14 := by
    rw [maxSeconds] at hn
    exact length_decimal_le (by omega) (by omega)
  rw [Interpreter.takes, hdigits, Bool.or_eq_true, decide_eq_true_eq, decide_eq_true_eq]
  rcases py.le with hzero | hlimit
  · exact .inl hzero
  · exact .inr (by omega)

/-- **Durations are read back**: a positive whole number of seconds that a `timedelta` holds is
what `parse_duration` makes of its format without the spaces. -/
theorem parseDuration_formatRemaining (py : Interpreter) (n : ℕ) (delta : Timedelta)
    (hpos : 1 ≤ n) (hdelta : Timedelta.ofSeconds n = .ok delta) :
    parseDuration py (some (removeSpaces (formatRemaining delta))) = .ok delta := by
  have hn : n ≤ maxSeconds := by
    by_contra hlt
    rw [ofSeconds_of_lt (not_le.mp hlt)] at hdelta
    cases hdelta
  have htext : removeSpaces (formatRemaining delta) = written (chunksOf n) := by
    rw [formatRemaining_eq hpos hdelta, removeSpaces_intercalate]
    · rfl
    · rintro t ht
      obtain ⟨c, hc, rfl⟩ := List.mem_map.mp ht
      exact isPlain_chunksOf hc
  have hplain : ∀ x ∈ written (chunksOf n), IsPlain x := by
    intro x hx
    obtain ⟨c, hc, hx⟩ := List.mem_flatMap.mp hx
    exact isPlain_chunksOf hc x hx
  have htotal := total_chunksOf n
  have hspells : Spells (written (chunksOf n)) (chunksOf n) := by
    refine ⟨?_, by rw [strip_of_isPlain hplain, lower_of_isPlain hplain]⟩
    intro hnil
    rw [hnil] at htotal
    exact absurd htotal (by simpa [total] using (Nat.pos_iff_ne_zero.mp hpos).symm)
  rw [htext, parseDuration_of_spells py hspells, htotal,
    if_pos ⟨fun c hc => takes_chunksOf py hn hc, hpos⟩, hdelta]

/-- One day, two hours and three minutes. -/
theorem parseDuration_formatRemaining_day : ∃ delta, Timedelta.ofSeconds 93780 = .ok delta ∧
    parseDuration ⟨0, .inl rfl⟩ (some (removeSpaces (formatRemaining delta))) = .ok delta := by
  obtain ⟨delta, hdelta, -⟩ := ofSeconds_of_le (n := 93780) (by decide)
  exact ⟨delta, hdelta,
    parseDuration_formatRemaining ⟨0, .inl rfl⟩ 93780 delta (by decide) hdelta⟩

end Afk

end OtamanBridge
