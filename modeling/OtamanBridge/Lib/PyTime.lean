import OtamanBridge.Lib.PyText

/-!
# Numbers and times in text

How Python writes a number and a point of time in UTC: the digits of `str(n)`, the
calendar date of a time stamp, and the one `strftime` format a program keeps its
times in. What a time looks like is all a reader of these texts relies on, and
`OtamanBridge.Py.DateTime.mem_iso` says it.
-/

namespace OtamanBridge

namespace Py

/-- `str(n)` of a number that is not negative. -/
def decimal (n : ℕ) : Text := (Nat.toDigits 10 n).map Char.toNat

/-- The digits of a number, with zeros before them up to this width. -/
def padded (width n : ℕ) : Text :=
  List.replicate (width - (decimal n).length) '0'.toNat ++ decimal n

theorem mem_decimal {c n : ℕ} (h : c ∈ decimal n) : 48 ≤ c ∧ c ≤ 57 := by
  obtain ⟨d, hd, rfl⟩ := List.mem_map.mp h
  have := Nat.isDigit_of_mem_toDigits (by omega) (by omega) hd
  simp only [Char.isDigit, Bool.and_eq_true, decide_eq_true_eq] at this
  exact ⟨this.1, this.2⟩

theorem mem_padded {c width n : ℕ} (h : c ∈ padded width n) : 48 ≤ c ∧ c ≤ 57 := by
  rcases List.mem_append.mp h with h | h
  · rw [List.eq_of_mem_replicate h]
    decide
  · exact mem_decimal h

/-- Different numbers are written differently. -/
theorem decimal_injective : Function.Injective decimal := by
  intro m n h
  have hchars : Function.Injective Char.toNat := fun c d hcd => Char.ext (UInt32.toNat_inj.mp hcd)
  have hdigits : Nat.toDigits 10 m = Nat.toDigits 10 n := List.map_injective_iff.mpr hchars h
  rw [← Nat.ofDigitChars_ten_toDigits (n := m), hdigits, Nat.ofDigitChars_ten_toDigits]

/-- A number that fits is written as wide as was asked for. -/
theorem length_padded {width n : ℕ} (hw : 0 < width) (h : n < 10 ^ width) :
    (padded width n).length = width := by
  have hle : (decimal n).length ≤ width := by
    rw [decimal, List.length_map]
    exact (Nat.length_toDigits_le_iff (by omega) hw).mpr h
  rw [padded, List.length_append, List.length_replicate, Nat.sub_add_cancel hle]

/-- A time in UTC, as the calendar and the clock show it. -/
structure DateTime where
  year : ℕ
  month : ℕ
  day : ℕ
  hour : ℕ
  minute : ℕ
  second : ℕ
  deriving DecidableEq, Repr

namespace DateTime

/-- `datetime.fromtimestamp(t, timezone.utc)`. The calendar repeats every 400 years of
146097 days, and its years are counted from March on, so that a leap day is the last
day of a year. -/
def ofTimestamp (t : ℕ) : DateTime :=
  let days := t / 86400 + 719468
  let day := days % 146097
  let year := (day - day / 1460 + day / 36524 - day / 146096) / 365
  let ofYear := day - (365 * year + year / 4 - year / 100)
  let march := (5 * ofYear + 2) / 153
  let month := if march < 10 then march + 3 else march - 9
  { year := year + days / 146097 * 400 + if month ≤ 2 then 1 else 0
    month
    day := ofYear - (153 * march + 2) / 5 + 1
    hour := t % 86400 / 3600
    minute := t % 3600 / 60
    second := t % 60 }

/-- The fields of a time before the year 10000 fit the places they are written in. -/
theorem ofTimestamp_lt {t : ℕ} (ht : t < 253402300800) :
    (ofTimestamp t).year < 10000 ∧ (ofTimestamp t).month < 100 ∧ (ofTimestamp t).day < 100 ∧
      (ofTimestamp t).hour < 100 ∧ (ofTimestamp t).minute < 100 ∧
      (ofTimestamp t).second < 100 := by
  simp only [ofTimestamp]
  refine ⟨?_, ?_, ?_, ?_, ?_, ?_⟩
  · split_ifs <;> omega
  · split_ifs <;> omega
  all_goals omega

/-- `strftime("%Y-%m-%dT%H:%M:%SZ")`. -/
def iso (d : DateTime) : Text :=
  padded 4 d.year ++ lit "-" ++ padded 2 d.month ++ lit "-" ++ padded 2 d.day ++ lit "T" ++
    padded 2 d.hour ++ lit ":" ++ padded 2 d.minute ++ lit ":" ++ padded 2 d.second ++ lit "Z"

/-- A time is written in digits, hyphens, colons and the letters T and Z. -/
theorem mem_iso {d : DateTime} {c : ℕ} (h : c ∈ d.iso) :
    (48 ≤ c ∧ c ≤ 57) ∨ c ∈ lit "-T:Z" := by
  have hsep : ∀ s ∈ ["-", "T", ":", "Z"], ∀ c ∈ lit s, c ∈ lit "-T:Z" := by decide
  simp only [iso, List.mem_append] at h
  rcases h with (((((((((((h | h) | h) | h) | h) | h) | h) | h) | h) | h) | h) | h)
  all_goals
    first
    | exact .inl (mem_padded h)
    | exact .inr (hsep _ (by decide) c h)

example : (ofTimestamp 1779105600).iso = lit "2026-05-18T12:00:00Z" := by decide +kernel

end DateTime

end Py

end OtamanBridge
