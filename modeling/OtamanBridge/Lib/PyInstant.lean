import Mathlib.Algebra.Order.Group.Nat
import Mathlib.Algebra.Order.Round
import Mathlib.Data.List.Lex
import Mathlib.Data.Rat.Floor
import Mathlib.Order.Monotone.Basic
import OtamanBridge.Lib.PyTime

/-!
# Instants, and the order of their texts

An aware `datetime` in UTC counts the microseconds of the years 1 to 9999. Its `isoformat`
leaves the fraction out where it is zero, so two texts may differ in length; they are still
in the order of time (`OtamanBridge.Py.Utc.isoformat_lt_iff`). The fields of a date are
written with fixed widths, which puts them in the order of the calendar, and a fraction begins
with a full stop, which comes after the plus sign of the offset.
-/

namespace OtamanBridge

namespace Py

/-! ### The order of texts -/

section Order

variable {α : Type*} [LinearOrder α]

/-- Texts of one length that are in order are so whatever follows them. -/
theorem append_lt_append {x y : List α} (hlen : x.length = y.length) (h : x < y)
    (u v : List α) : x ++ u < y ++ v := by
  induction x generalizing y with
  | nil =>
    obtain rfl := List.length_eq_zero_iff.mp hlen.symm
    exact absurd h (lt_irrefl _)
  | cons a x ih =>
    rcases y with _ | ⟨b, y⟩
    · exact absurd hlen (by simp)
    · rw [List.cons_append, List.cons_append]
      rcases List.cons_lt_cons_iff.mp h with hab | ⟨rfl, hxy⟩
      · exact List.cons_lt_cons_iff.mpr (.inl hab)
      · exact List.cons_lt_cons_iff.mpr (.inr ⟨rfl, ih (Nat.succ.inj hlen) hxy⟩)

/-- What texts have in common does not count. -/
theorem append_lt_append_left_iff {x u v : List α} : x ++ u < x ++ v ↔ u < v := by
  refine ⟨fun h => ?_, List.append_left_lt⟩
  by_contra hnot
  rcases (not_lt.mp hnot).lt_or_eq with hvu | rfl
  · exact absurd h (List.append_left_lt hvu).asymm
  · exact absurd h (lt_irrefl _)

end Order

theorem decimal_of_lt {n : ℕ} (h : n < 10) : decimal n = [48 + n] := by
  rw [decimal, Nat.toDigits_of_lt_base h, List.map_singleton, Nat.toNat_digitChar_of_lt_ten h]

/-- The last digit of a number that is written with a fixed width. -/
theorem padded_succ {width n : ℕ} (hw : 0 < width) :
    padded (width + 1) n = padded width (n / 10) ++ [48 + n % 10] := by
  rcases lt_or_ge n 10 with hn | hn
  · have hzeros : padded width 0 = List.replicate width 48 := by
      obtain ⟨w, rfl⟩ := Nat.exists_eq_add_of_lt hw
      rw [padded, decimal_of_lt (by omega)]
      exact (List.replicate_succ' ..).symm
    rw [padded, decimal_of_lt hn, Nat.div_eq_of_lt hn, Nat.mod_eq_of_lt hn, hzeros]
    rfl
  · have hmore : decimal n = decimal (n / 10) ++ [48 + n % 10] := by
      rw [decimal, Nat.toDigits_of_base_le (by omega) hn, List.map_append, List.map_singleton,
        Nat.toNat_digitChar_of_lt_ten (Nat.mod_lt _ (by omega))]
      rfl
    rw [padded, padded, hmore, List.length_append, List.length_singleton, Nat.add_sub_add_right,
      List.append_assoc]

/-- **Numbers that are written with a fixed width** are in order. -/
theorem padded_lt {width a b : ℕ} (hw : 0 < width) (h : a < b) (hb : b < 10 ^ width) :
    padded width a < padded width b := by
  induction width, hw using Nat.le_induction generalizing a b with
  | base =>
    have hone : ∀ n < 10, padded 1 n = [48 + n] := by
      intro n hn
      rw [padded, decimal_of_lt hn]
      rfl
    rw [hone a (by omega), hone b (by omega)]
    exact List.cons_lt_cons_iff.mpr (.inl (by omega))
  | succ width hw ih =>
    rw [padded_succ hw, padded_succ hw]
    have hb' : b / 10 < 10 ^ width := by omega
    rcases lt_or_ge (a / 10) (b / 10) with hlt | hge
    · have hlen : (padded width (a / 10)).length = (padded width (b / 10)).length := by
        rw [length_padded hw (hlt.trans hb'), length_padded hw hb']
      exact append_lt_append hlen (ih hlt hb') _ _
    · have heq : a / 10 = b / 10 := by omega
      rw [heq]
      exact List.append_left_lt (List.cons_lt_cons_iff.mpr (.inl (by omega)))

/-- A field, and what comes after it. -/
theorem padded_append_lt {width a b : ℕ} (hw : 0 < width) (ha : a < 10 ^ width)
    (hb : b < 10 ^ width) {u v : Text} (h : a < b ∨ a = b ∧ u < v) :
    padded width a ++ u < padded width b ++ v := by
  rcases h with hlt | ⟨rfl, huv⟩
  · have hlen : (padded width a).length = (padded width b).length := by
      rw [length_padded hw ha, length_padded hw hb]
    exact append_lt_append hlen (padded_lt hw hlt hb) _ _
  · exact List.append_left_lt huv

/-- A field decides, or what comes after it. -/
theorem padded_append_lt_iff {width a b : ℕ} (hw : 0 < width) (ha : a < 10 ^ width)
    (hb : b < 10 ^ width) {u v : Text} :
    padded width a ++ u < padded width b ++ v ↔ a < b ∨ a = b ∧ u < v := by
  refine ⟨fun h => ?_, padded_append_lt hw ha hb⟩
  rcases lt_trichotomy a b with hlt | rfl | hgt
  · exact .inl hlt
  · exact .inr ⟨rfl, append_lt_append_left_iff.mp h⟩
  · exact absurd h (padded_append_lt hw hb ha (.inl hgt)).asymm

/-! ### The calendar -/

namespace DateTime

/-- The days before the year `y`, which begins in March; the first year is 0. -/
def daysBefore (y : ℕ) : ℕ := 365 * y + y / 4 - y / 100 + y / 400

theorem daysBefore_mono : Monotone daysBefore :=
  monotone_nat_of_le_succ fun y => by
    unfold daysBefore
    omega

theorem daysBefore_succ_le (y : ℕ) : daysBefore (y + 1) ≤ daysBefore y + 366 := by
  unfold daysBefore
  omega

/-- The date of a day of the year `y`, which begins in March. -/
def ofYearDay (y ofYear : ℕ) (second : ℕ) : DateTime :=
  let march := (5 * ofYear + 2) / 153
  let month := if march < 10 then march + 3 else march - 9
  { year := y + if month ≤ 2 then 1 else 0
    month
    day := ofYear - (153 * march + 2) / 5 + 1
    hour := second / 3600
    minute := second % 3600 / 60
    second := second % 60 }

/-- The year of a day of the first 400 years. -/
def yearOfEra (day : ℕ) : ℕ := (day - day / 1460 + day / 36524 - day / 146096) / 365

/-- The time this many seconds after the first of March of the year 0. -/
def ofSeconds (n : ℕ) : DateTime :=
  let days := n / 86400
  let day := days % 146097
  let year := yearOfEra day
  ofYearDay (year + days / 146097 * 400) (day - (365 * year + year / 4 - year / 100)) (n % 86400)

/-- A time stamp counts from 1970 on. -/
theorem ofTimestamp_eq (t : ℕ) : ofTimestamp t = ofSeconds (t + 719468 * 86400) := by
  have hdays : (t + 719468 * 86400) / 86400 = t / 86400 + 719468 := by omega
  have hsecond : (t + 719468 * 86400) % 86400 = t % 86400 := by omega
  have hhour : t % 86400 % 3600 = t % 3600 := by omega
  have hminute : t % 86400 % 60 = t % 60 := by omega
  rw [ofSeconds, hdays, hsecond]
  simp only [ofYearDay, hhour, hminute]
  rfl

theorem yearOfEra_mono : Monotone yearOfEra :=
  monotone_nat_of_le_succ fun day => Nat.div_le_div_right (by omega)

/-- A year of the first 400 is the year of its days. -/
theorem yearOfEra_eq {y day : ℕ} (hy : y < 400) (h : daysBefore y ≤ day)
    (h' : day < daysBefore (y + 1)) : yearOfEra day = y := by
  have hbounds : ∀ y < 400,
      yearOfEra (daysBefore y) = y ∧ yearOfEra (daysBefore (y + 1) - 1) = y := by
    decide +kernel
  obtain ⟨hfirst, hlast⟩ := hbounds y hy
  refine le_antisymm ?_ ?_
  · exact (yearOfEra_mono (by omega : day ≤ daysBefore (y + 1) - 1)).trans hlast.le
  · exact hfirst.ge.trans (yearOfEra_mono h)

/-- A day that comes before a year is a day of an earlier one. -/
theorem exists_daysBefore_le {n day : ℕ} (h : day < daysBefore n) :
    ∃ y < n, daysBefore y ≤ day ∧ day < daysBefore (y + 1) := by
  induction n with
  | zero => exact absurd h (by simp [daysBefore])
  | succ n ih =>
    rcases lt_or_ge day (daysBefore n) with hlt | hge
    · obtain ⟨y, hy, hday⟩ := ih hlt
      exact ⟨y, by omega, hday⟩
    · exact ⟨n, by omega, hge, h⟩

/-- **The year of a day**, and which day of it the day is. -/
theorem ofSeconds_eq (n : ℕ) : ∃ y ofYear, ofYear ≤ 365 ∧ n / 86400 = daysBefore y + ofYear ∧
    n / 86400 < daysBefore (y + 1) ∧ ofSeconds n = ofYearDay y ofYear (n % 86400) := by
  have hera : n / 86400 % 146097 < daysBefore 400 := Nat.mod_lt _ (by omega)
  obtain ⟨y, hy, hle, hlt⟩ := exists_daysBefore_le hera
  have hyear := yearOfEra_eq hy hle hlt
  -- every 400 years the calendar repeats
  have hshift : ∀ y, daysBefore (y + n / 86400 / 146097 * 400) =
      daysBefore y + n / 86400 / 146097 * 146097 := by
    intro y
    unfold daysBefore
    omega
  have hleap : daysBefore y = 365 * y + y / 4 - y / 100 := by
    unfold daysBefore
    omega
  have hlength := daysBefore_succ_le y
  refine ⟨y + n / 86400 / 146097 * 400, n / 86400 % 146097 - daysBefore y, by omega, ?_, ?_, ?_⟩
  · rw [hshift]
    omega
  · rw [Nat.add_right_comm, hshift]
    omega
  · rw [ofSeconds, hyear, hleap]

/-! ### The order of the calendar -/

/-- The fields of a time fit the places they are written in. -/
structure Fits (d : DateTime) : Prop where
  year : d.year < 10 ^ 4
  month : d.month < 10 ^ 2
  day : d.day < 10 ^ 2
  hour : d.hour < 10 ^ 2
  minute : d.minute < 10 ^ 2
  second : d.second < 10 ^ 2

/-- The calendar and the clock show an earlier time. -/
def Before (d e : DateTime) : Prop :=
  d.year < e.year ∨ d.year = e.year ∧ (d.month < e.month ∨ d.month = e.month ∧
    (d.day < e.day ∨ d.day = e.day ∧ (d.hour < e.hour ∨ d.hour = e.hour ∧
      (d.minute < e.minute ∨ d.minute = e.minute ∧ d.second < e.second))))

/-- The month and the day of a day of a year that begins in March, as a number; January and
February come last. -/
def rankOfDay (ofYear : ℕ) : ℕ :=
  let d := ofYearDay 0 ofYear 0
  10000 * d.year + 100 * d.month + d.day

theorem rankOfDay_lt {o o' : ℕ} (h : o < o') (h' : o' ≤ 365) : rankOfDay o < rankOfDay o' := by
  have hnext : ∀ o < 365, rankOfDay o < rankOfDay (o + 1) := by decide +kernel
  induction o', h using Nat.le_induction with
  | base => exact hnext o (by omega)
  | succ o' _ ih => exact (ih (by omega)).trans (hnext o' (by omega))

theorem rankOfDay_bounds {o : ℕ} (h : o ≤ 365) :
    301 ≤ rankOfDay o ∧ rankOfDay o < 10301 ∧ (ofYearDay 0 o 0).month ≤ 12 ∧
      (ofYearDay 0 o 0).day ≤ 31 := by
  have hall : ∀ o < 366, 301 ≤ rankOfDay o ∧ rankOfDay o < 10301 ∧
      (ofYearDay 0 o 0).month ≤ 12 ∧ (ofYearDay 0 o 0).day ≤ 31 := by decide +kernel
  exact hall o (by omega)

/-- The date of a day, as a number. -/
theorem rank_eq (y o second : ℕ) :
    10000 * (ofYearDay y o second).year + 100 * (ofYearDay y o second).month +
      (ofYearDay y o second).day = 10000 * y + rankOfDay o := by
  show 10000 * (y + _) + _ + _ = 10000 * y + (10000 * (0 + _) + _ + _)
  rw [Nat.zero_add, Nat.mul_add]
  show _ + 100 * (ofYearDay 0 o 0).month + (ofYearDay 0 o 0).day =
    _ + (_ + 100 * (ofYearDay 0 o 0).month + (ofYearDay 0 o 0).day)
  omega

/-- A date whose number is less comes earlier. -/
theorem before_of_rank {d e : DateTime} (hd : d.month ≤ 12 ∧ d.day ≤ 31)
    (he : e.month ≤ 12 ∧ e.day ≤ 31)
    (h : 10000 * d.year + 100 * d.month + d.day < 10000 * e.year + 100 * e.month + e.day) :
    Before d e := by
  obtain ⟨hdm, hdd⟩ := hd
  obtain ⟨hem, hed⟩ := he
  unfold Before
  rcases lt_trichotomy d.year e.year with hlt | heq | hgt
  · exact .inl hlt
  · refine .inr ⟨heq, ?_⟩
    rcases lt_trichotomy d.month e.month with hlt | heq | hgt
    · exact .inl hlt
    · exact .inr ⟨heq, .inl (by omega)⟩
    · omega
  · omega

/-- **The calendar is in order of time.** -/
theorem before_ofSeconds {n m : ℕ} (h : n < m) : Before (ofSeconds n) (ofSeconds m) := by
  obtain ⟨y, o, ho, hn, hn', heq⟩ := ofSeconds_eq n
  obtain ⟨y', o', ho', hm, hm', heq'⟩ := ofSeconds_eq m
  obtain ⟨hlow, hhigh, hmonth, hday⟩ := rankOfDay_bounds ho
  obtain ⟨hlow', hhigh', hmonth', hday'⟩ := rankOfDay_bounds ho'
  rw [heq, heq']
  have hle : y ≤ y' := by
    by_contra hlt
    have := daysBefore_mono (by omega : y' + 1 ≤ y)
    omega
  have hdays : n / 86400 ≤ m / 86400 := Nat.div_le_div_right h.le
  rcases hdays.lt_or_eq with hlt | hsame
  · refine before_of_rank ⟨hmonth, hday⟩ ⟨hmonth', hday'⟩ ?_
    rw [rank_eq, rank_eq]
    rcases hle.lt_or_eq with hyear | rfl
    · omega
    · have := rankOfDay_lt (by omega : o < o') ho'
      omega
  · obtain rfl : y = y' := by
      by_contra hne
      have := daysBefore_mono (by omega : y + 1 ≤ y')
      omega
    obtain rfl : o = o' := by omega
    -- on one day, the clock goes on
    refine .inr ⟨rfl, .inr ⟨rfl, .inr ⟨rfl, ?_⟩⟩⟩
    show _ / 3600 < _ / 3600 ∨ _ / 3600 = _ / 3600 ∧ (_ % 3600 / 60 < _ % 3600 / 60 ∨
      _ % 3600 / 60 = _ % 3600 / 60 ∧ _ % 60 < _ % 60)
    omega

/-- A time of a day, which may be the midnight at its end; the days count from the first of
March of the year 0. -/
def onDay (days second : ℕ) : DateTime :=
  { ofSeconds (days * 86400) with
    hour := second / 3600
    minute := second % 3600 / 60
    second := second % 60 }

theorem ofSeconds_eq_onDay (n : ℕ) : ofSeconds n = onDay (n / 86400) (n % 86400) := by
  have hdays : n / 86400 * 86400 / 86400 = n / 86400 := Nat.mul_div_cancel _ (by omega)
  unfold onDay ofSeconds
  rw [hdays]
  rfl

/-- The year of a day begins with January, after 306 days. -/
theorem year_onDay (d s : ℕ) : ∃ y o, o ≤ 365 ∧ d = daysBefore y + o ∧
    (onDay d s).year = y + if o < 306 then 0 else 1 := by
  obtain ⟨y, o, ho, hn, -, heq⟩ := ofSeconds_eq (d * 86400)
  refine ⟨y, o, ho, by rwa [Nat.mul_div_cancel _ (by omega)] at hn, ?_⟩
  rw [onDay, heq, ofYearDay]
  dsimp only
  congr 1
  split_ifs <;> omega

theorem before_onDay {d d' s s' : ℕ} (h : d < d' ∨ d = d' ∧ s < s') :
    Before (onDay d s) (onDay d' s') := by
  rcases h with hlt | ⟨rfl, hlt⟩
  · have hdays := before_ofSeconds (by omega : d * 86400 < d' * 86400)
    have hfirst : ∀ d, ofSeconds (d * 86400) = onDay d 0 := fun d => by
      rw [ofSeconds_eq_onDay, Nat.mul_div_cancel _ (by omega), Nat.mul_mod_left]
    rw [hfirst, hfirst] at hdays
    -- the clock shows midnight on both days
    exact hdays.imp_right fun h => ⟨h.1, h.2.imp_right fun h => ⟨h.1, h.2.elim .inl fun h =>
      absurd h.2 (by simp [onDay])⟩⟩
  · refine .inr ⟨rfl, .inr ⟨rfl, .inr ⟨rfl, ?_⟩⟩⟩
    show s / 3600 < s' / 3600 ∨ s / 3600 = s' / 3600 ∧ (s % 3600 / 60 < s' % 3600 / 60 ∨
      s % 3600 / 60 = s' % 3600 / 60 ∧ s % 60 < s' % 60)
    omega

/-- The fields of a time before the year 10000 fit. -/
theorem fits_ofSeconds {n : ℕ} (h : n / 86400 < daysBefore 9999 + 306) : Fits (ofSeconds n) := by
  obtain ⟨y, o, ho, hn, -, heq⟩ := ofSeconds_eq n
  obtain ⟨-, hhigh, hmonth, hday⟩ := rankOfDay_bounds ho
  have hrank := rank_eq y o (n % 86400)
  have hmonth' : (ofYearDay y o (n % 86400)).month ≤ 12 := hmonth
  have hday' : (ofYearDay y o (n % 86400)).day ≤ 31 := hday
  have hle : y ≤ 9999 := by
    by_contra hlt
    have := daysBefore_mono (by omega : 9999 + 1 ≤ y)
    have hleap : daysBefore 9999 + 306 ≤ daysBefore (9999 + 1) := by decide
    omega
  have hsecond : n % 86400 < 86400 := Nat.mod_lt _ (by omega)
  rw [heq]
  constructor
  · rcases hle.lt_or_eq with hlt | rfl
    · omega
    · -- the last year ends with December
      have hautumn : ∀ o < 306, rankOfDay o < 10000 := by decide +kernel
      have := hautumn o (by omega)
      omega
  · omega
  · omega
  · show n % 86400 / 3600 < 10 ^ 2
    omega
  · show n % 86400 % 3600 / 60 < 10 ^ 2
    omega
  · show n % 86400 % 60 < 10 ^ 2
    omega

theorem fits_onDay {d s : ℕ} (hd : d < daysBefore 9999 + 306) (hs : s ≤ 86400) :
    Fits (onDay d s) := by
  have hfits := @fits_ofSeconds (d * 86400) (by omega)
  refine ⟨hfits.year, hfits.month, hfits.day, ?_, ?_, ?_⟩
  · show s / 3600 < 10 ^ 2
    omega
  · show s % 3600 / 60 < 10 ^ 2
    omega
  · show s % 60 < 10 ^ 2
    omega

/-- The fields of a time stamp before the year 10000 fit. -/
theorem fits_ofTimestamp {t : ℕ} (h : t < 253402300800) : Fits (ofTimestamp t) := by
  have hlast : daysBefore 9999 = 3652059 := by decide
  rw [ofTimestamp_eq]
  exact fits_ofSeconds (by omega)

/-! ### Texts -/

/-- `%Y-%m-%dT%H:%M:%S`. -/
def clock (d : DateTime) : Text :=
  padded 4 d.year ++ lit "-" ++ padded 2 d.month ++ lit "-" ++ padded 2 d.day ++ lit "T" ++
    padded 2 d.hour ++ lit ":" ++ padded 2 d.minute ++ lit ":" ++ padded 2 d.second

theorem iso_eq (d : DateTime) : d.iso = d.clock ++ lit "Z" := rfl

theorem Fits.length_clock {d : DateTime} (h : d.Fits) : d.clock.length = 19 := by
  have hlit : (lit "-").length = 1 ∧ (lit "T").length = 1 ∧ (lit ":").length = 1 := by decide
  simp only [clock, List.length_append, length_padded (by omega : 0 < 4) h.year,
    length_padded (by omega : 0 < 2) h.month, length_padded (by omega : 0 < 2) h.day,
    length_padded (by omega : 0 < 2) h.hour, length_padded (by omega : 0 < 2) h.minute,
    length_padded (by omega : 0 < 2) h.second, hlit]

theorem Fits.length_iso {d : DateTime} (h : d.Fits) : d.iso.length = 20 := by
  rw [iso_eq, List.length_append, h.length_clock, show (lit "Z").length = 1 from rfl]

/-- **The texts of times are in the order of the calendar.** -/
theorem clock_lt {d e : DateTime} (hd : d.Fits) (he : e.Fits) (h : Before d e) :
    d.clock < e.clock := by
  simp only [clock, List.append_assoc]
  refine padded_append_lt (by omega) hd.year he.year (h.imp_right fun h => ⟨h.1, ?_⟩)
  refine List.append_left_lt (padded_append_lt (by omega) hd.month he.month
    (h.2.imp_right fun h => ⟨h.1, ?_⟩))
  refine List.append_left_lt (padded_append_lt (by omega) hd.day he.day
    (h.2.imp_right fun h => ⟨h.1, ?_⟩))
  refine List.append_left_lt (padded_append_lt (by omega) hd.hour he.hour
    (h.2.imp_right fun h => ⟨h.1, ?_⟩))
  refine List.append_left_lt (padded_append_lt (by omega) hd.minute he.minute
    (h.2.imp_right fun h => ⟨h.1, ?_⟩))
  exact List.append_left_lt (padded_lt (by omega) h.2 he.second)

theorem before_or (d e : DateTime) : Before d e ∨ d = e ∨ Before e d := by
  obtain ⟨y, mo, da, ho, mi, se⟩ := d
  obtain ⟨y', mo', da', ho', mi', se'⟩ := e
  simp only [Before, DateTime.mk.injEq]
  omega

theorem not_before_self (d : DateTime) : ¬Before d d := by
  simp only [Before]
  omega

theorem Before.asymm {d e : DateTime} (h : Before d e) : ¬Before e d := by
  simp only [Before] at h ⊢
  omega

/-- The form that ends in Z keeps the order. -/
theorem iso_lt_iff {d e : DateTime} (hd : d.Fits) (he : e.Fits) :
    d.iso < e.iso ↔ Before d e := by
  have hlt : ∀ {d e : DateTime}, d.Fits → e.Fits → Before d e → d.iso < e.iso := by
    intro d e hd he h
    rw [iso_eq, iso_eq]
    exact append_lt_append (hd.length_clock.trans he.length_clock.symm) (clock_lt hd he h) _ _
  refine ⟨fun h => ?_, hlt hd he⟩
  rcases before_or d e with hde | rfl | hed
  · exact hde
  · exact absurd h (lt_irrefl _)
  · exact absurd h (hlt he hd hed).asymm

/-- The calendar is in the order of time. -/
theorem before_ofSeconds_iff {n m : ℕ} : Before (ofSeconds n) (ofSeconds m) ↔ n < m := by
  refine ⟨fun h => ?_, before_ofSeconds⟩
  rcases lt_trichotomy n m with hnm | rfl | hmn
  · exact hnm
  · exact absurd h (not_before_self _)
  · exact absurd h (before_ofSeconds hmn).asymm

theorem before_ofTimestamp_iff {t t' : ℕ} :
    Before (ofTimestamp t) (ofTimestamp t') ↔ t < t' := by
  rw [ofTimestamp_eq, ofTimestamp_eq, before_ofSeconds_iff]
  omega

end DateTime

/-! ### Instants -/

/-- An aware `datetime` in UTC: the microseconds since the year 1 began, up to the end of the
year 9999. -/
structure Utc where
  micros : ℕ
  lt : micros < 315537897600 * 1000000
  deriving DecidableEq

namespace Utc

theorem micros_injective : Function.Injective micros := by
  rintro ⟨a, ha⟩ ⟨b, hb⟩ rfl
  rfl

instance : LinearOrder Utc := LinearOrder.lift' micros micros_injective

/-- `replace(microsecond=0)`, as the calendar and the clock show it. -/
def date (u : Utc) : DateTime := DateTime.ofSeconds (u.micros / 1000000 + 306 * 86400)

/-- `microsecond`. -/
def microsecond (u : Utc) : ℕ := u.micros % 1000000

/-- `isoformat()`. -/
def isoformat (u : Utc) : Text :=
  u.date.clock ++ (if u.microsecond = 0 then [] else lit "." ++ padded 6 u.microsecond) ++
    lit "+00:00"

/-- A number is rounded to the nearest integer, and to an even one where there are two. -/
def roundHalfEven (q : ℚ) : ℤ :=
  if q - ⌊q⌋ < 1 / 2 then ⌊q⌋
  else if 1 / 2 < q - ⌊q⌋ then ⌊q⌋ + 1
  else if ⌊q⌋ % 2 = 0 then ⌊q⌋ else ⌊q⌋ + 1

/-- `datetime.fromtimestamp(t, timezone.utc)`, which raises outside the years 1 to 9999. -/
def fromtimestamp (t : ℚ) : Option Utc :=
  let micros := roundHalfEven (t * 1000000) + 62135596800 * 1000000
  if h : 0 ≤ micros ∧ micros.toNat < 315537897600 * 1000000 then some ⟨micros.toNat, h.2⟩
  else none

theorem fits_date (u : Utc) : u.date.Fits := by
  refine DateTime.fits_ofSeconds ?_
  have hlast : DateTime.daysBefore 9999 = 3652059 := by decide
  have := u.lt
  omega

/-- **The texts of instants are in order of time**, with and without a fraction. -/
theorem isoformat_lt {u v : Utc} (h : u < v) : u.isoformat < v.isoformat := by
  have hmicros : u.micros < v.micros := h
  unfold isoformat
  rw [List.append_assoc, List.append_assoc]
  rcases lt_or_ge (u.micros / 1000000) (v.micros / 1000000) with hlt | hge
  · have hlen : u.date.clock.length = v.date.clock.length := by
      rw [u.fits_date.length_clock, v.fits_date.length_clock]
    exact append_lt_append hlen (DateTime.clock_lt u.fits_date v.fits_date
      (DateTime.before_ofSeconds (by omega))) _ _
  · -- in one second, the fraction decides
    have hdate : u.date = v.date := by
      unfold date
      rw [show u.micros / 1000000 = v.micros / 1000000 by omega]
    have hus : u.microsecond < v.microsecond := by
      unfold microsecond
      omega
    have hfits : ∀ w : Utc, w.microsecond < 10 ^ 6 := fun w => Nat.mod_lt _ (by omega)
    rw [hdate, if_neg (by omega : v.microsecond ≠ 0)]
    refine List.append_left_lt ?_
    by_cases hzero : u.microsecond = 0
    · rw [if_pos hzero]
      exact List.cons_lt_cons_iff.mpr (.inl (by decide))
    · rw [if_neg hzero, List.append_assoc, List.append_assoc]
      exact List.append_left_lt (padded_append_lt (by omega) (hfits u) (hfits v) (.inl hus))

/-- **The order of the texts is the order of time.** -/
theorem isoformat_lt_iff {u v : Utc} : u.isoformat < v.isoformat ↔ u < v := by
  refine ⟨fun h => ?_, isoformat_lt⟩
  rcases lt_trichotomy u v with hlt | rfl | hgt
  · exact hlt
  · exact absurd h (lt_irrefl _)
  · exact absurd h (isoformat_lt hgt).asymm

example : (fromtimestamp (1779105600 + 1 / 2)).map isoformat =
    some (lit "2026-05-18T12:00:00.500000+00:00") := by decide +kernel

end Utc

end Py

end OtamanBridge
