import OtamanBridge.Inbox.Listing

/-!
# The `since` of `check_messages`

The tool takes an ISO timestamp and promises the messages sent strictly after it. The filter
compares the timestamp as a text with the text of a message's time, which is always in UTC and
in whole seconds. A timestamp in the same form is compared as it should be. One that has an
offset or a fraction is taken for the reading of a clock in UTC; one without seconds for the
end of its minute or hour if it ends in Z; and one in the basic format, or with the number of
the week or of the day in the year, for the end of its year or of some month. Such a timestamp
is right for the messages that were not sent between this time and the instant it denotes
(`OtamanBridge.Inbox.passes_iff`).
-/

namespace OtamanBridge

namespace Inbox

open Py Posix

/-! ### Timestamps -/

/-- The fraction of the last unit, after a full stop or a comma. -/
structure Fraction where
  comma : Bool
  digits : List (Fin 10)
  ne : digits ≠ []

/-- Where the clock hangs: `Z`, or an offset in hours, or in hours and minutes with a colon
between them or without. -/
inductive Zone
  | utc
  | hours (east : Bool) (h : Fin 24)
  | minutes (east colon : Bool) (h : Fin 24) (m : Fin 60)
  deriving DecidableEq

/-- How the day is written: with its month, with its number in the year, or with its week. -/
inductive DateForm
  | calendar
  | ordinal
  | week

/-- The last unit of the time that is written. -/
inductive Precision
  | hour
  | minute
  | second

/-- In seconds. -/
def Precision.unit : Precision → ℕ
  | hour => 3600
  | minute => 60
  | second => 1

/-- **An ISO 8601 timestamp** in the years 1 to 9999: the reading of a clock in the basic or
the extended format, down to some unit, perhaps with a fraction of it, and with its zone. The
days are counted from the first of January of the year 1, and the end of a day may be written
as 24 hours. -/
structure Timestamp where
  basic : Bool
  form : DateForm
  precision : Precision
  day : ℕ
  day_lt : day < 3652059
  second : ℕ
  second_le : second ≤ 86400
  whole : precision.unit ∣ second
  fraction : Option Fraction
  zone : Zone

def Fraction.text (f : Fraction) : Text :=
  (if f.comma then lit "," else lit ".") ++ f.digits.map fun d => 48 + d.val

def Fraction.value (f : Fraction) : ℚ := f.digits.foldr (fun d acc => (d.val + acc) / 10) 0

def Zone.text : Zone → Text
  | .utc => lit "Z"
  | .hours east h => (if east then lit "+" else lit "-") ++ padded 2 h
  | .minutes east colon h m => (if east then lit "+" else lit "-") ++ padded 2 h ++
      (if colon then lit ":" else []) ++ padded 2 m

/-- How far the clock is ahead of UTC. -/
def Zone.seconds : Zone → ℤ
  | .utc => 0
  | .hours east h => (if east then 1 else -1) * (3600 * h.val)
  | .minutes east _ h m => (if east then 1 else -1) * (3600 * h.val + 60 * m.val)

namespace Timestamp

/-- What the calendar and the clock show. -/
def shown (p : Timestamp) : DateTime := DateTime.onDay (p.day + 306) p.second

/-- The number of the day in its year. -/
def yearDay (p : Timestamp) : ℕ := p.day - DateTime.daysBefore (p.shown.year - 1) + 1

/-- The Thursday of the week, to whose year the week belongs. -/
def thursday (p : Timestamp) : ℕ := p.day - p.day % 7 + 3

def weekYear (p : Timestamp) : ℕ := (DateTime.onDay (p.thursday + 306) 0).year

def week (p : Timestamp) : ℕ := (p.thursday - DateTime.daysBefore (p.weekYear - 1)) / 7 + 1

def hyphen (p : Timestamp) : Text := if p.basic then [] else lit "-"

def colon (p : Timestamp) : Text := if p.basic then [] else lit ":"

def dateText (p : Timestamp) : Text :=
  match p.form with
  | .calendar => padded 4 p.shown.year ++ p.hyphen ++ padded 2 p.shown.month ++ p.hyphen ++
      padded 2 p.shown.day
  | .ordinal => padded 4 p.shown.year ++ p.hyphen ++ padded 3 p.yearDay
  | .week => padded 4 p.weekYear ++ p.hyphen ++ lit "W" ++ padded 2 p.week ++ p.hyphen ++
      decimal (p.day % 7 + 1)

def timeText (p : Timestamp) : Text :=
  lit "T" ++ padded 2 p.shown.hour ++
    match p.precision with
    | .hour => []
    | .minute => p.colon ++ padded 2 p.shown.minute
    | .second => p.colon ++ padded 2 p.shown.minute ++ p.colon ++ padded 2 p.shown.second

/-- What follows the time. -/
def tail (p : Timestamp) : Text := (p.fraction.elim [] Fraction.text) ++ p.zone.text

/-- The timestamp, as it is written. -/
def text (p : Timestamp) : Text := p.dateText ++ p.timeText ++ p.tail

/-- The reading, taken for one in UTC, in seconds since 1970. -/
def face (p : Timestamp) : ℤ := p.day * 86400 + p.second - 62135596800

/-- **The instant a timestamp denotes**, in seconds since 1970. -/
def instant (p : Timestamp) : ℚ :=
  p.face - p.zone.seconds + p.fraction.elim 0 fun f => f.value * p.precision.unit

/-- Nothing but the Z follows, and the reading is not the end of a day. -/
def Plain (p : Timestamp) : Prop := p.fraction = none ∧ p.zone = .utc ∧ p.second < 86400

instance (p : Timestamp) : Decidable p.Plain :=
  decidable_of_iff (p.fraction.isNone ∧ p.zone = .utc ∧ p.second < 86400)
    (by rw [Plain, Option.isNone_iff_eq_none])

/-- **What the filter takes for later than the timestamp**, in the terms of the calendar: what
was sent from the reading of the clock on, or after the unit it ends with; or, where the text
is in another format, after its year, or after a month. -/
def Past (p : Timestamp) (t : ℕ) : Prop :=
  let sent := DateTime.ofTimestamp t
  match p.form with
  | .calendar =>
    if p.basic then p.shown.year < sent.year
    else if p.Plain then p.face + p.precision.unit ≤ t else p.face ≤ t
  | .ordinal =>
    if p.basic then p.shown.year < sent.year
    -- the first two digits of the day are compared with the month
    else p.shown.year < sent.year ∨ p.shown.year = sent.year ∧ p.yearDay / 10 < sent.month
  | .week => p.weekYear < sent.year

/-- **The timestamp is right for a message that was sent at a time**: the message was not sent
between the instant that the timestamp denotes and what the filter takes it for. -/
def Right (p : Timestamp) (t : ℕ) : Prop :=
  ¬(p.instant < t ∧ ¬p.Past t) ∧ ¬((t : ℚ) ≤ p.instant ∧ p.Past t)

example : text ⟨false, .calendar, .second, 739753, by decide, 48600, by decide, by decide,
    some ⟨false, [5], by decide⟩, .minutes true true 2 0⟩ =
    lit "2026-05-18T13:30:00.5+02:00" := by decide +kernel

example : text ⟨false, .week, .minute, 739753, by decide, 48600, by decide, by decide, none,
    .utc⟩ = lit "2026-W21-1T13:30Z" := by decide +kernel

example : text ⟨true, .ordinal, .hour, 739753, by decide, 86400, by decide, by decide, none,
    .utc⟩ = lit "2026138T24Z" := by decide +kernel

/-! ### The order of texts -/

variable {p : Timestamp} {t : ℕ}

theorem fits_shown (p : Timestamp) : p.shown.Fits := by
  have := p.day_lt
  have hlast : DateTime.daysBefore 9999 = 3652059 := by decide
  exact DateTime.fits_onDay (by omega) p.second_le

/-- The year of a week fits, too. -/
theorem weekYear_lt (p : Timestamp) : p.weekYear < 10 ^ 4 := by
  have := p.day_lt
  have hlast : DateTime.daysBefore 9999 = 3652059 := by decide
  refine (DateTime.fits_onDay ?_ (by omega)).year
  rw [thursday]
  omega

/-- The number of a day in its year has three digits. -/
theorem yearDay_lt (p : Timestamp) : p.yearDay < 10 ^ 3 := by
  obtain ⟨y, o, ho, hn, hyear⟩ := DateTime.year_onDay (p.day + 306) p.second
  rw [yearDay, shown, hyear]
  simp only [DateTime.daysBefore] at hn ⊢
  split_ifs <;> omega

/-- The time of a message, in days and seconds. -/
theorem ofTimestamp_eq_onDay (t : ℕ) :
    DateTime.ofTimestamp t = DateTime.onDay (t / 86400 + 719468) (t % 86400) := by
  have hdays : (t + 719468 * 86400) / 86400 = t / 86400 + 719468 := by omega
  have hsecond : (t + 719468 * 86400) % 86400 = t % 86400 := by omega
  rw [DateTime.ofTimestamp_eq, DateTime.ofSeconds_eq_onDay, hdays, hsecond]

/-- A digit comes after a hyphen. -/
theorem not_padded_lt_hyphen {width n : ℕ} (hw : 0 < width) (hn : n < 10 ^ width) (u v : Text) :
    ¬padded width n ++ u < lit "-" ++ v := by
  have hdash : lit "-" = [45] := by decide
  rcases hm : padded width n with _ | ⟨c, w⟩
  · have := length_padded hw hn
    rw [hm] at this
    exact absurd this (by simp; omega)
  · have hc : 48 ≤ c := (mem_padded (hm ▸ List.mem_cons_self : c ∈ padded width n)).1
    rw [hdash, List.singleton_append, List.cons_append, List.cons_lt_cons_iff]
    omega

/-- And before a letter. -/
theorem not_week_lt_padded {width n : ℕ} (hw : 0 < width) (hn : n < 10 ^ width) (u v : Text) :
    ¬lit "W" ++ u < padded width n ++ v := by
  have hletter : lit "W" = [87] := by decide
  rcases hm : padded width n with _ | ⟨c, w⟩
  · have := length_padded hw hn
    rw [hm] at this
    exact absurd this (by simp; omega)
  · have hc : c ≤ 57 := (mem_padded (hm ▸ List.mem_cons_self : c ∈ padded width n)).2
    rw [hletter, List.singleton_append, List.cons_append, List.cons_lt_cons_iff]
    omega

/-- **A timestamp in the basic format, or with a week**, comes after all times of its year. -/
theorem text_lt_iff_of_year {y : ℕ} {u : Text} (hy : y < 10 ^ 4)
    (htext : p.text = padded 4 y ++ u) (hafter : ∀ d : DateTime, d.Fits →
      ¬u < lit "-" ++ (padded 2 d.month ++ (lit "-" ++ (padded 2 d.day ++ (lit "T" ++
        (padded 2 d.hour ++ (lit ":" ++ (padded 2 d.minute ++ (lit ":" ++
          (padded 2 d.second ++ lit "Z"))))))))))
    (ht : t < 253402300800) :
    p.text < (DateTime.ofTimestamp t).iso ↔ y < (DateTime.ofTimestamp t).year := by
  have hfits := DateTime.fits_ofTimestamp ht
  rw [htext, DateTime.iso]
  simp only [List.append_assoc]
  rw [padded_append_lt_iff (by omega) hy hfits.year, or_iff_left]
  exact fun h => hafter _ hfits h.2

theorem text_lt_iff_of_basic (hb : p.basic = true) (hform : p.form ≠ .week)
    (ht : t < 253402300800) :
    p.text < (DateTime.ofTimestamp t).iso ↔ p.shown.year < (DateTime.ofTimestamp t).year := by
  have hfits := p.fits_shown
  have hyear : ∃ width n u, 0 < width ∧ n < 10 ^ width ∧
      p.text = padded 4 p.shown.year ++ (padded width n ++ u) := by
    rw [text, dateText, hyphen, if_pos hb]
    rcases hf : p.form with _ | _ | _
    · exact ⟨2, p.shown.month, padded 2 p.shown.day ++ (p.timeText ++ p.tail), by omega,
        hfits.month, by simp⟩
    · exact ⟨3, p.yearDay, p.timeText ++ p.tail, by omega, p.yearDay_lt, by simp⟩
    · exact absurd hf hform
  obtain ⟨width, n, u, hw, hn, htext⟩ := hyear
  exact text_lt_iff_of_year hfits.year htext (fun _ _ => not_padded_lt_hyphen hw hn _ _) ht

theorem text_lt_iff_of_week (hform : p.form = .week) (ht : t < 253402300800) :
    p.text < (DateTime.ofTimestamp t).iso ↔ p.weekYear < (DateTime.ofTimestamp t).year := by
  have hyear : ∃ u, p.text = padded 4 p.weekYear ++ (p.hyphen ++ (lit "W" ++ u)) := by
    rw [text, dateText, hform]
    exact ⟨padded 2 p.week ++ (p.hyphen ++ (decimal (p.day % 7 + 1) ++ (p.timeText ++ p.tail))),
      by simp⟩
  obtain ⟨u, htext⟩ := hyear
  refine text_lt_iff_of_year p.weekYear_lt htext (fun d hd => ?_) ht
  unfold hyphen
  split_ifs
  · rw [List.nil_append]
    exact not_lt.mpr (List.cons_lt_cons_iff.mpr (.inl (by decide))).le
  · intro h
    rcases List.cons_lt_cons_iff.mp h with hlt | ⟨-, h⟩
    · exact absurd hlt (lt_irrefl _)
    · exact not_week_lt_padded (by omega) hd.month _ _ h

/-- **A timestamp with the number of the day**: its first two digits stand where the month
is. -/
theorem text_lt_iff_of_ordinal (hb : p.basic = false) (hform : p.form = .ordinal)
    (ht : t < 253402300800) :
    p.text < (DateTime.ofTimestamp t).iso ↔ p.shown.year < (DateTime.ofTimestamp t).year ∨
      p.shown.year = (DateTime.ofTimestamp t).year ∧
        p.yearDay / 10 < (DateTime.ofTimestamp t).month := by
  have hfits := p.fits_shown
  have hfits' := DateTime.fits_ofTimestamp ht
  have hday := p.yearDay_lt
  rw [text, dateText, hform, hyphen, hb, padded_succ (by omega : 0 < 2), DateTime.iso]
  simp only [List.append_assoc, Bool.false_eq_true, if_false]
  rw [padded_append_lt_iff (by omega) hfits.year hfits'.year]
  refine or_congr_right (and_congr_right fun _ => ?_)
  have hdash : lit "-" = [45] := by decide
  simp only [hdash, List.cons_append, List.nil_append, List.cons_lt_cons_self]
  rw [padded_append_lt_iff (by omega) (by omega) hfits'.month, or_iff_left]
  -- the third digit comes after a hyphen
  rintro ⟨-, h⟩
  rw [List.cons_lt_cons_iff] at h
  omega

/-! ### The extended calendar format -/

/-- The time down to a unit. -/
def upTo (unit : Precision) (d : DateTime) : Text :=
  padded 4 d.year ++ lit "-" ++ padded 2 d.month ++ lit "-" ++ padded 2 d.day ++ lit "T" ++
    padded 2 d.hour ++
    match unit with
    | .hour => []
    | .minute => lit ":" ++ padded 2 d.minute
    | .second => lit ":" ++ padded 2 d.minute ++ lit ":" ++ padded 2 d.second

/-- And what is left of it. -/
def below (unit : Precision) (d : DateTime) : Text :=
  match unit with
  | .hour => lit ":" ++ padded 2 d.minute ++ lit ":" ++ padded 2 d.second ++ lit "Z"
  | .minute => lit ":" ++ padded 2 d.second ++ lit "Z"
  | .second => lit "Z"

theorem iso_eq_upTo (unit : Precision) (d : DateTime) : d.iso = upTo unit d ++ below unit d := by
  cases unit <;> simp [DateTime.iso, upTo, below]

theorem text_eq_upTo (hb : p.basic = false) (hform : p.form = .calendar) :
    p.text = upTo p.precision p.shown ++ p.tail := by
  rw [text, dateText, timeText, hform, hyphen, colon, hb]
  cases p.precision <;> simp [upTo]

theorem length_upTo (unit : Precision) {d e : DateTime} (hd : d.Fits) (he : e.Fits) :
    (upTo unit d).length = (upTo unit e).length := by
  cases unit <;>
    simp only [upTo, List.length_append, length_padded (by omega : 0 < 4) hd.year,
      length_padded (by omega : 0 < 2) hd.month, length_padded (by omega : 0 < 2) hd.day,
      length_padded (by omega : 0 < 2) hd.hour, length_padded (by omega : 0 < 2) hd.minute,
      length_padded (by omega : 0 < 2) hd.second, length_padded (by omega : 0 < 4) he.year,
      length_padded (by omega : 0 < 2) he.month, length_padded (by omega : 0 < 2) he.day,
      length_padded (by omega : 0 < 2) he.hour, length_padded (by omega : 0 < 2) he.minute,
      length_padded (by omega : 0 < 2) he.second]

/-- A time at which a unit begins is written like the others of this unit. -/
theorem upTo_onDay (unit : Precision) (d s : ℕ) :
    upTo unit (DateTime.onDay d s) = upTo unit (DateTime.onDay d (s - s % unit.unit)) := by
  have hhour : s / 3600 = (s - s % 3600) / 3600 := by omega
  have hminute : s / 3600 = (s - s % 60) / 3600 ∧ s % 3600 / 60 = (s - s % 60) % 3600 / 60 := by
    omega
  cases unit with
  | hour => simp only [upTo, DateTime.onDay, Precision.unit, ← hhour]
  | minute => simp only [upTo, DateTime.onDay, Precision.unit, ← hminute.1, ← hminute.2]
  | second => rw [Precision.unit, Nat.mod_one, Nat.sub_zero]

/-- Times at which units begin are in order as texts. -/
theorem upTo_lt {unit : Precision} {d d' s s' : ℕ} (hs : unit.unit ∣ s) (hs' : unit.unit ∣ s')
    (hd : (DateTime.onDay d s).Fits) (hd' : (DateTime.onDay d' s').Fits)
    (h : d < d' ∨ d = d' ∧ s < s') :
    upTo unit (DateTime.onDay d s) < upTo unit (DateTime.onDay d' s') := by
  have hbefore := DateTime.before_onDay h
  have hclock := DateTime.clock_lt hd hd' hbefore
  -- below the unit the clocks are alike
  have hsame : ∃ v, (DateTime.onDay d s).clock = upTo unit (DateTime.onDay d s) ++ v ∧
      (DateTime.onDay d' s').clock = upTo unit (DateTime.onDay d' s') ++ v := by
    cases unit with
    | hour =>
      have hzero : ∀ {s}, 3600 ∣ s → s % 3600 / 60 = 0 ∧ s % 60 = 0 := fun h => by omega
      refine ⟨lit ":" ++ padded 2 0 ++ lit ":" ++ padded 2 0, ?_, ?_⟩
      · simp [DateTime.clock, upTo, DateTime.onDay, hzero hs]
      · simp [DateTime.clock, upTo, DateTime.onDay, hzero hs']
    | minute =>
      have hzero : ∀ {s}, 60 ∣ s → s % 60 = 0 := fun h => by omega
      refine ⟨lit ":" ++ padded 2 0, ?_, ?_⟩
      · simp [DateTime.clock, upTo, DateTime.onDay, hzero hs]
      · simp [DateTime.clock, upTo, DateTime.onDay, hzero hs']
    | second => exact ⟨[], by simp [DateTime.clock, upTo], by simp [DateTime.clock, upTo]⟩
  obtain ⟨v, heq, heq'⟩ := hsame
  rw [heq, heq'] at hclock
  rcases lt_trichotomy (upTo unit (DateTime.onDay d s)) (upTo unit (DateTime.onDay d' s')) with
    hlt | hsame | hgt
  · exact hlt
  · rw [hsame] at hclock
    exact absurd hclock (lt_irrefl _)
  · exact absurd hclock (append_lt_append (length_upTo unit hd' hd) hgt _ _).asymm

/-- What follows the time is `Z`, or comes before all that is left of a message's. -/
theorem tail_lt_below_iff (p : Timestamp) (unit : Precision) (d : DateTime) :
    p.tail < below unit d ↔ ¬(p.fraction = none ∧ p.zone = .utc) := by
  -- what the bound goes on with: a colon before minutes or seconds, the last `Z` after them
  have hbelow : ∃ c u, below unit d = c :: u ∧ 46 < c ∧ c ≤ 90 ∧ (c = 90 → u = []) := by
    cases unit with
    | hour => exact ⟨58, _, rfl, by omega, by omega, by omega⟩
    | minute => exact ⟨58, _, rfl, by omega, by omega, by omega⟩
    | second => exact ⟨90, [], rfl, by omega, by omega, fun _ => rfl⟩
  obtain ⟨c, u, hc, hlow, hhigh, hlast⟩ := hbelow
  have hhead : ∀ (b : ℕ) (w : Text), b ≤ 46 → b :: w < c :: u := fun b w hb =>
    List.cons_lt_cons_iff.mpr (.inl (by omega))
  have hsigns : lit "," = [44] ∧ lit "." = [46] ∧ lit "+" = [43] ∧ lit "-" = [45] ∧
      lit "Z" = [90] := by decide
  rw [tail, hc]
  rcases hf : p.fraction with _ | f
  · rcases hzone : p.zone with _ | ⟨east, h⟩ | ⟨east, colon, h, m⟩
    · refine iff_of_false ?_ fun hn => hn ⟨rfl, rfl⟩
      simp only [Option.elim, Zone.text, hsigns, List.nil_append]
      intro hlt
      rcases List.cons_lt_cons_iff.mp hlt with hlt | ⟨rfl, hlt⟩
      · omega
      · rw [hlast rfl] at hlt
        exact absurd hlt (lt_irrefl _)
    · refine iff_of_true ?_ fun hs => absurd hs.2 (by simp)
      cases east <;> simp only [Option.elim, Zone.text, hsigns] <;> exact hhead _ _ (by omega)
    · refine iff_of_true ?_ fun hs => absurd hs.2 (by simp)
      cases east <;> simp only [Option.elim, Zone.text, hsigns] <;> exact hhead _ _ (by omega)
  · refine iff_of_true ?_ fun hs => absurd hs.1 (by simp)
    rw [Option.elim, Fraction.text]
    cases f.comma <;> simp only [hsigns] <;> exact hhead _ _ (by omega)

/-- **A timestamp in the extended calendar format** comes before the times that its clock, in
UTC, has not passed; and before those of its last unit unless nothing but a Z follows. -/
theorem text_lt_iff_of_calendar (hb : p.basic = false) (hform : p.form = .calendar)
    (ht : t < 253402300800) : p.text < (DateTime.ofTimestamp t).iso ↔
      if p.Plain then p.face + p.precision.unit ≤ t else p.face ≤ t := by
  have hfits := p.fits_shown
  have hfits' := DateTime.fits_ofTimestamp ht
  have hlen := length_upTo p.precision hfits hfits'
  -- a unit that begins before another one ends before it begins
  have hunits : ∀ u : Precision, u.unit ∣ p.second → ∀ s, (p.second < s - s % u.unit →
      p.second + u.unit ≤ s) ∧ (s - s % u.unit < p.second → s < p.second) ∧
      (p.second = s - s % u.unit → p.second ≤ s ∧ s < p.second + u.unit) ∧
      (p.second < 86400 → p.second + u.unit ≤ 86400) := by
    intro u hu s
    cases u <;> simp only [Precision.unit] at hu ⊢ <;> omega
  obtain ⟨hless, hmore, hsame, hfull⟩ := hunits p.precision p.whole (t % 86400)
  have hle := p.second_le
  have hface : p.face = p.day * 86400 + p.second - 62135596800 := rfl
  have hbegin : (DateTime.onDay (t / 86400 + 719468)
      (t % 86400 - t % 86400 % p.precision.unit)).Fits := by
    have hlast : DateTime.daysBefore 9999 = 3652059 := by decide
    exact DateTime.fits_onDay (by omega) (by omega)
  have hunit : p.precision.unit ∣ t % 86400 - t % 86400 % p.precision.unit := Nat.dvd_sub_mod _
  rw [ofTimestamp_eq_onDay] at hlen hfits'
  rw [text_eq_upTo hb hform, iso_eq_upTo p.precision, ofTimestamp_eq_onDay]
  rcases (by omega : (p.day + 306 < t / 86400 + 719468 ∨ p.day + 306 = t / 86400 + 719468 ∧
      p.second < t % 86400 - t % 86400 % p.precision.unit) ∨
    (p.day + 306 = t / 86400 + 719468 ∧
      p.second = t % 86400 - t % 86400 % p.precision.unit) ∨
    (t / 86400 + 719468 < p.day + 306 ∨ t / 86400 + 719468 = p.day + 306 ∧
      t % 86400 - t % 86400 % p.precision.unit < p.second)) with hlt | ⟨hdays, hseconds⟩ | hgt
  · have hupTo := upTo_lt p.whole hunit hfits hbegin hlt
    rw [← upTo_onDay] at hupTo
    refine iff_of_true (append_lt_append hlen hupTo _ _) ?_
    split_ifs with hplain
    · have := hplain.2.2
      omega
    · omega
  · have hupTo : upTo p.precision p.shown =
        upTo p.precision (DateTime.onDay (t / 86400 + 719468) (t % 86400)) := by
      rw [upTo_onDay, shown, hdays, ← hseconds]
    obtain ⟨hfirst, hlast⟩ := hsame hseconds
    have hday : p.second < 86400 := by omega
    have htail : p.Plain ↔ p.fraction = none ∧ p.zone = .utc := by
      rw [Plain, ← and_assoc, and_iff_left hday]
    rw [hupTo, append_lt_append_left_iff, tail_lt_below_iff, ← htail]
    split_ifs with hplain
    · exact iff_of_false (not_not.mpr hplain) (by omega)
    · exact iff_of_true hplain (by omega)
  · have hupTo := upTo_lt hunit p.whole hbegin hfits hgt
    rw [← upTo_onDay] at hupTo
    refine iff_of_false (append_lt_append hlen.symm hupTo _ _).asymm ?_
    split_ifs <;> omega

end Timestamp

/-! ### The filter -/

/-- A message passes the filter for this `since`. -/
def Passes (since : Text) (x : StoredMessage) : Prop :=
  Filter.wants ⟨false, .none, .str since⟩ x = .ok true

theorem passes_iff_lt {since : Text} (hne : since ≠ []) (x : StoredMessage) :
    Passes since x ↔ since < x.sentAt := by
  obtain ⟨b, hb, hiff⟩ := wants_texts false none (some since) x
  have hpasses : Passes since x ↔ b = true := by
    rw [Passes]
    exact (congrArg (· = Except.ok true) hb).to_iff.trans (by simp)
  rw [hpasses, hiff]
  constructor
  · exact fun h => h.2.2 since rfl hne
  · refine fun h => ⟨by simp, by simp, ?_⟩
    rintro t ht -
    rwa [← Option.some.inj ht]

theorem text_ne_nil (p : Timestamp) : p.text ≠ [] := by
  have hT : lit "T" ≠ [] := by decide
  rw [Timestamp.text, Timestamp.timeText]
  simp [hT]

/-- What comes after the timestamp as a text. -/
theorem Timestamp.text_lt_iff (p : Timestamp) {t : ℕ} (ht : t < 253402300800) :
    p.text < (DateTime.ofTimestamp t).iso ↔ p.Past t := by
  unfold Timestamp.Past
  rcases hform : p.form with _ | _ | _
  · rcases hb : p.basic with _ | _
    · exact Timestamp.text_lt_iff_of_calendar hb hform ht
    · exact Timestamp.text_lt_iff_of_basic hb (by simp [hform]) ht
  · rcases hb : p.basic with _ | _
    · exact Timestamp.text_lt_iff_of_ordinal hb hform ht
    · exact Timestamp.text_lt_iff_of_basic hb (by simp [hform]) ht
  · exact Timestamp.text_lt_iff_of_week hform ht

/-- **When `since` is chronological.** A message that was sent at a time passes the filter
exactly when this is after the instant the timestamp denotes: if and only if the message was
not sent between this instant and what the filter takes the timestamp for. -/
theorem passes_iff (p : Timestamp) {x : StoredMessage} {t : ℕ} (ht : SentAt x t) :
    (Passes p.text x ↔ p.instant < t) ↔ p.Right t := by
  rw [passes_iff_lt (text_ne_nil p), ht.2, p.text_lt_iff ht.1, Timestamp.Right]
  constructor
  · refine fun hiff => ⟨fun h => h.2 (hiff.mpr h.1), fun h => ?_⟩
    exact absurd (hiff.mp h.2) (not_lt.mpr h.1)
  · rintro ⟨hlate, hearly⟩
    constructor
    · exact fun h => not_le.mp fun hle => hearly ⟨hle, h⟩
    · exact fun h => not_not.mp fun hnot => hlate ⟨h, hnot⟩

/-- **A timestamp in the form in which times are stored** is right for every message. -/
theorem passes_iff_of_stored {p : Timestamp} (hb : p.basic = false) (hform : p.form = .calendar)
    (hprecision : p.precision = .second) (hplain : p.Plain) {x : StoredMessage} {t : ℕ}
    (ht : SentAt x t) : Passes p.text x ↔ p.instant < t := by
  have hinstant : p.instant = p.face := by
    rw [Timestamp.instant, hplain.1, hplain.2.1]
    simp [Zone.seconds]
  have hpast : p.Past t ↔ p.face < t := by
    simp only [Timestamp.Past, hform, hb, Bool.false_eq_true, if_false, if_pos hplain, hprecision,
      Precision.unit]
    exact Int.add_one_le_iff
  have hright : p.instant < t ↔ p.face < t := by
    rw [hinstant]
    exact_mod_cast Iff.rfl
  refine (passes_iff p ht).mpr ⟨fun h => h.2 (hpast.mpr (hright.mp h.1)), fun h => ?_⟩
  exact absurd (hright.mpr (hpast.mp h.2)) (not_lt.mpr h.1)

/-- Half past one in a zone two hours ahead of UTC. -/
def halfPastOne : Timestamp where
  basic := false
  form := .calendar
  precision := .second
  day := 739753
  day_lt := by decide
  second := 48600
  second_le := by decide
  whole := by decide
  fraction := none
  zone := .minutes true true 2 0

/-- A note that was sent at noon, UTC. -/
def noonNote : StoredMessage :=
  (note (lit "s")).message (DateTime.ofTimestamp 1779105600).iso (lit "i") (lit "p")

theorem sentAt_noonNote : SentAt noonNote 1779105600 := ⟨by decide, rfl⟩

theorem instant_halfPastOne : halfPastOne.instant = 1779103800 := by
  norm_num [Timestamp.instant, Timestamp.face, halfPastOne, Zone.seconds]

/-- What was sent from half past one on comes after it. -/
theorem past_halfPastOne {t : ℕ} : halfPastOne.Past t ↔ 1779111000 ≤ t := by
  have hplain : ¬halfPastOne.Plain := fun h => absurd h.2.1 (by simp [halfPastOne])
  have hface : halfPastOne.face = 1779111000 := by decide
  simp only [Timestamp.Past, show halfPastOne.form = .calendar from rfl,
    show halfPastOne.basic = false from rfl, Bool.false_eq_true, if_false, if_neg hplain, hface]
  omega

/-- A message that was sent after both the instant and the reading is found. -/
theorem passes_iff_later :
    ∃ x : StoredMessage, SentAt x 1779112800 ∧ Passes halfPastOne.text x := by
  have hx : SentAt { noonNote with sentAt := (DateTime.ofTimestamp 1779112800).iso }
      1779112800 := ⟨by decide, rfl⟩
  refine ⟨_, hx, ((passes_iff halfPastOne hx).mpr ?_).mpr ?_⟩
  · rw [Timestamp.Right, instant_halfPastOne, past_halfPastOne]
    exact ⟨fun h => h.2 (by decide), fun h => absurd h.1 (by norm_num)⟩
  · rw [instant_halfPastOne]
    norm_num

/-- **A message that is missed**: sent at noon, and not found by a timestamp of half an hour
before. -/
theorem not_passes_iff : ∃ (p : Timestamp) (x : StoredMessage) (t : ℕ), SentAt x t ∧
    ¬(Passes p.text x ↔ p.instant < t) := by
  refine ⟨halfPastOne, noonNote, 1779105600, sentAt_noonNote, fun hiff => ?_⟩
  have hafter : halfPastOne.instant < (1779105600 : ℕ) := by
    rw [instant_halfPastOne]
    norm_num
  have hlt := (passes_iff_lt (text_ne_nil _) _).mp (hiff.mpr hafter)
  exact absurd hlt (by decide +kernel)

end Inbox

end OtamanBridge
