import OtamanBridge.Lib.PyDigits
import OtamanBridge.Lib.PyInstant

/-!
# Durations

`parse_duration` of `afk.py`, and what `afk on` does with its result. A duration is a sequence
of numbers with units, and what the loop reads of a text is exactly such a sequence
(`OtamanBridge.Afk.loop_chunks`, `OtamanBridge.Afk.exists_chunks_of_loop`).

What is too long for a `timedelta` is an `OverflowError`, and so is what ends after the year
9999. `cmd_on` catches the `ValueError` only. So the durations for which all is as it is meant
to be are those that end in time (`OtamanBridge.Afk.exact_iff`). There are two more cases in the
condition: Python refuses a number with very many digits, even if they are zeros, and an empty
argument counts as none.
-/

namespace OtamanBridge

namespace Afk

open Py

/-! ### Python -/

/-- The exceptions. -/
inductive Raised
  | valueError
  | overflowError
  deriving DecidableEq

/-- The limit on the digits that `int` takes, which is 0 for no limit, and else not below 640. -/
structure Interpreter where
  maxStrDigits : ℕ
  le : maxStrDigits = 0 ∨ 640 ≤ maxStrDigits

/-- `int` does not refuse so many digits. -/
def Interpreter.takes (py : Interpreter) (digits : Text) : Bool :=
  py.maxStrDigits = 0 || digits.length ≤ py.maxStrDigits

/-- `int` of a text of digits. -/
def Interpreter.int (py : Interpreter) (digits : Text) : Except Raised ℕ :=
  if py.takes digits then .ok (ofDigits digits) else .error .valueError

/-- `timedelta`: so many microseconds, and at most 999999999 days and the rest of one. -/
structure Timedelta where
  micros : ℤ
  le : -(999999999 * 86400 * 1000000) ≤ micros
  lt : micros < 1000000000 * 86400 * 1000000
  deriving DecidableEq

/-- `timedelta(seconds=n)`. -/
def Timedelta.ofSeconds (n : ℤ) : Except Raised Timedelta :=
  if h : -(999999999 * 86400 * 1000000) ≤ n * 1000000 ∧
      n * 1000000 < 1000000000 * 86400 * 1000000 then .ok ⟨n * 1000000, h.1, h.2⟩
  else .error .overflowError

/-- `now + delta`. -/
def addDelta (now : Utc) (delta : Timedelta) : Except Raised Utc :=
  if h : 0 ≤ now.micros + delta.micros ∧
      (now.micros + delta.micros).toNat < 315537897600 * 1000000 then .ok ⟨_, h.2⟩
  else .error .overflowError

/-! ### The parser -/

/-- The units. -/
inductive DurationUnit
  | s
  | m
  | h
  | d
  | w
  deriving DecidableEq

namespace DurationUnit

/-- The letter. -/
def letter : DurationUnit → ℕ
  | s => 's'.toNat
  | m => 'm'.toNat
  | h => 'h'.toNat
  | d => 'd'.toNat
  | w => 'w'.toNat

/-- `_DURATION_UNITS`. -/
def seconds : DurationUnit → ℕ
  | s => 1
  | m => 60
  | h => 60 * 60
  | d => 24 * 60 * 60
  | w => 7 * 24 * 60 * 60

/-- `[smhdw]`. -/
def ofLetter (c : ℕ) : Option DurationUnit := [s, m, h, d, w].find? fun u => u.letter = c

theorem ofLetter_eq_some_iff {c : ℕ} {u : DurationUnit} : ofLetter c = some u ↔ u.letter = c := by
  constructor
  · intro h
    rw [ofLetter] at h
    exact by simpa using List.find?_some h
  · rintro rfl
    cases u <;> rfl

/-- No letter is a digit. -/
theorem not_isDigit_letter (u : DurationUnit) : isDigit u.letter = false := by
  cases u <;> decide

end DurationUnit

/-- `_DURATION_CHUNK.match`: the digits, the unit and what comes after. -/
def matchChunk (t : Text) : Option (Text × DurationUnit × Text) :=
  match span1 isDigit t with
  | some (digits, c :: rest) => (DurationUnit.ofLetter c).map fun unit => (digits, unit, rest)
  | _ => none

/-- A match takes something. -/
theorem eq_of_matchChunk {t digits rest : Text} {unit : DurationUnit}
    (h : matchChunk t = some (digits, unit, rest)) :
    t = digits ++ unit.letter :: rest ∧ digits ≠ [] ∧ ∀ c ∈ digits, isDigit c := by
  unfold matchChunk at h
  split at h
  next ds c rest' hspan =>
    obtain ⟨ht, hne, hds, -⟩ := span1_eq_some hspan
    obtain ⟨u, hu, heq⟩ := Option.map_eq_some_iff.mp h
    obtain ⟨rfl, rfl, rfl⟩ : ds = digits ∧ u = unit ∧ rest' = rest := by
      simpa [Prod.ext_iff] using heq
    obtain rfl := DurationUnit.ofLetter_eq_some_iff.mp hu
    refine ⟨ht, hne, fun c hc => ?_⟩
    rw [hds] at hc
    exact List.mem_takeWhile_imp hc
  · cases h

variable (py : Interpreter)

/-- The loop, on what is left of the text. -/
def loop (t : Text) (total : ℕ) : Except Raised ℕ :=
  if t = [] then .ok total
  else
    match _hmatch : matchChunk t with
    | none => .error .valueError
    | some (digits, unit, rest) =>
      match py.int digits with
      | .error e => .error e
      | .ok count => loop rest (total + count * unit.seconds)
termination_by t.length
decreasing_by
  have hlen := congrArg List.length (eq_of_matchChunk _hmatch).1
  simp only [List.length_append, List.length_cons] at hlen
  omega

/-- `parse_duration`. -/
def parseDuration : Option Text → Except Raised Timedelta
  | none => .error .valueError
  | some text =>
    let stripped := lower (strip text)
    if stripped = [] then .error .valueError
    else
      match loop py stripped 0 with
      | .error e => .error e
      | .ok total => if total ≤ 0 then .error .valueError else Timedelta.ofSeconds total

/-- What `cmd_on` comes to. -/
inductive Outcome
  /-- The error is printed, and 2 returned. -/
  | usageError
  /-- The state is written, with this end. -/
  | afkOn (expiresAt : Option Utc)
  /-- An exception is not caught. -/
  | raised (e : Raised)

/-- `cmd_on`, as far as the duration is concerned. -/
def cmdOn (now : Utc) : Option Text → Outcome
  | none | some [] => .afkOn none
  | some text =>
    match parseDuration py (some text) with
    | .error .valueError => .usageError
    | .error .overflowError => .raised .overflowError
    | .ok delta =>
      match addDelta now delta with
      | .error e => .raised e
      | .ok expiresAt => .afkOn (some expiresAt)

/-! ### The grammar -/

/-- A number with a unit. -/
structure Chunk where
  digits : Text
  unit : DurationUnit
  nonempty : digits ≠ []
  decimal : ∀ c ∈ digits, isDigit c

namespace Chunk

/-- How it is written. -/
def text (c : Chunk) : Text := c.digits ++ [c.unit.letter]

/-- How long it is. -/
def value (c : Chunk) : ℕ := ofDigits c.digits * c.unit.seconds

end Chunk

/-- How chunks are written. -/
def written (cs : List Chunk) : Text := cs.flatMap Chunk.text

/-- How long chunks are. -/
def total (cs : List Chunk) : ℕ := (cs.map Chunk.value).sum

/-- **The grammar**: trimmed and in lower case, the text is a non-empty sequence of chunks. -/
def Spells (text : Text) (cs : List Chunk) : Prop :=
  cs ≠ [] ∧ lower (strip text) = written cs

/-- **What the text stands for**: the chunks add up to this, and it is more than nothing. -/
def Denotes (text : Text) (delta : Timedelta) : Prop :=
  ∃ cs, Spells text cs ∧ 0 < total cs ∧ delta.micros = total cs * 1000000

/-! ### The loop reads the grammar -/

variable {py} {t : Text} {n : ℕ}

/-- A chunk is matched for what it is. -/
theorem matchChunk_text (c : Chunk) (rest : Text) :
    matchChunk (c.text ++ rest) = some (c.digits, c.unit, rest) := by
  have hstop : isDigit c.unit.letter = false := c.unit.not_isDigit_letter
  have htake : (c.text ++ rest).takeWhile isDigit = c.digits := by
    rw [Chunk.text, List.append_assoc, List.takeWhile_append_of_pos c.decimal]
    simp [hstop]
  have hdrop : (c.text ++ rest).dropWhile isDigit = c.unit.letter :: rest := by
    rw [Chunk.text, List.append_assoc, List.dropWhile_append_of_pos c.decimal]
    simp [hstop]
  rw [matchChunk, span1, htake, if_neg c.nonempty, hdrop]
  simp only [DurationUnit.ofLetter_eq_some_iff.mpr rfl, Option.map_some]

/-- A match is a chunk. -/
theorem exists_chunk {digits rest : Text} {unit : DurationUnit}
    (h : matchChunk t = some (digits, unit, rest)) :
    ∃ c : Chunk, c.digits = digits ∧ c.unit = unit ∧ t = c.text ++ rest := by
  obtain ⟨rfl, hne, hdigits⟩ := eq_of_matchChunk h
  exact ⟨⟨digits, unit, hne, hdigits⟩, rfl, rfl, by simp [Chunk.text]⟩

theorem Chunk.text_ne_nil (c : Chunk) : c.text ≠ [] := by
  simp [Chunk.text]

theorem loop_nil : loop py [] n = .ok n := by
  rw [loop, if_pos rfl]

/-- The loop goes on behind a chunk, if `int` takes its number. -/
theorem loop_append (py : Interpreter) (c : Chunk) (rest : Text) (n : ℕ) :
    loop py (c.text ++ rest) n =
      if py.takes c.digits then loop py rest (n + c.value) else .error .valueError := by
  have hne : c.text ++ rest ≠ [] := fun h => c.text_ne_nil (List.append_eq_nil_iff.mp h).1
  rw [loop, if_neg hne]
  split
  next hnone =>
    rw [matchChunk_text] at hnone
    cases hnone
  next digits unit rest' hsome =>
    rw [matchChunk_text] at hsome
    obtain ⟨rfl, rfl, rfl⟩ : c.digits = digits ∧ c.unit = unit ∧ rest = rest' := by
      simpa [Prod.ext_iff] using hsome
    rw [Interpreter.int]
    by_cases htakes : py.takes c.digits
    · rw [if_pos htakes, if_pos htakes]
      rfl
    · rw [if_neg htakes, if_neg htakes]

/-- **Chunks are read as what they add up to**, unless `int` refuses one. -/
theorem loop_chunks (py : Interpreter) (cs : List Chunk) (n : ℕ) : loop py (written cs) n =
    if ∀ c ∈ cs, py.takes c.digits then .ok (n + total cs) else .error .valueError := by
  induction cs generalizing n with
  | nil =>
    rw [if_pos fun c hc => absurd hc List.not_mem_nil]
    exact loop_nil
  | cons c cs ih =>
    have hsum : n + c.value + total cs = n + total (c :: cs) := by
      simp only [total, List.map_cons, List.sum_cons]
      omega
    rw [written, List.flatMap_cons, loop_append, ← written, ih, hsum]
    simp only [List.forall_mem_cons]
    by_cases htakes : py.takes c.digits
    · rw [if_pos htakes]
      simp only [htakes, true_and]
    · rw [if_neg htakes, if_neg fun h => htakes h.1]

/-- **What the loop reads is chunks.** -/
theorem exists_chunks_of_loop {m : ℕ} (h : loop py t n = .ok m) : ∃ cs, t = written cs := by
  induction hlen : t.length using Nat.strong_induction_on generalizing t n with
  | _ k ih =>
    rw [loop] at h
    split_ifs at h with hnil
    · exact ⟨[], hnil⟩
    · split at h
      · cases h
      next digits unit rest hsome =>
        obtain ⟨c, rfl, rfl, rfl⟩ := exists_chunk hsome
        split at h
        · cases h
        next count hcount =>
          have hlt : rest.length < k := by
            have := List.length_pos_of_ne_nil c.text_ne_nil
            rw [← hlen, List.length_append]
            omega
          obtain ⟨cs, rfl⟩ := ih _ hlt h rfl
          exact ⟨c :: cs, rfl⟩

/-- The loop raises a `ValueError` only. -/
theorem eq_valueError_of_loop {e : Raised} (h : loop py t n = .error e) : e = .valueError := by
  induction hlen : t.length using Nat.strong_induction_on generalizing t n with
  | _ k ih =>
    rw [loop] at h
    split_ifs at h with hnil
    split at h
    · exact (Except.error.inj h).symm
    next digits unit rest hsome =>
      obtain ⟨c, rfl, rfl, rfl⟩ := exists_chunk hsome
      split at h
      next e' he' =>
        rw [Interpreter.int] at he'
        split_ifs at he' with htakes
        exact (Except.error.inj h).symm.trans (Except.error.inj he').symm
      next count hcount =>
        have hlt : rest.length < k := by
          have := List.length_pos_of_ne_nil c.text_ne_nil
          rw [← hlen, List.length_append]
          omega
        exact ih _ hlt h rfl

/-- A text is written with one sequence of chunks only. -/
theorem written_injective : Function.Injective written := by
  intro cs
  induction cs with
  | nil =>
    intro cs' h
    cases cs' with
    | nil => rfl
    | cons c' cs' => exact absurd (List.append_eq_nil_iff.mp h.symm).1 c'.text_ne_nil
  | cons c cs ih =>
    intro cs' h
    cases cs' with
    | nil => exact absurd (List.append_eq_nil_iff.mp h).1 c.text_ne_nil
    | cons c' cs' =>
      have hmatch := congrArg matchChunk h
      rw [written, List.flatMap_cons, matchChunk_text, written, List.flatMap_cons,
        matchChunk_text] at hmatch
      obtain ⟨hdigits, hunit, hrest⟩ : c.digits = c'.digits ∧ c.unit = c'.unit ∧
          written cs = written cs' := by
        simpa [Prod.ext_iff, written] using hmatch
      obtain ⟨digits, unit, hne, hdec⟩ := c
      obtain ⟨digits', unit', hne', hdec'⟩ := c'
      obtain rfl : digits = digits' := hdigits
      obtain rfl : unit = unit' := hunit
      rw [ih hrest]

/-! ### What `parse_duration` returns -/

variable {text : Text} {cs : List Chunk} {delta : Timedelta} {now : Utc}

/-- The seconds of the longest `timedelta`, less its microseconds. -/
def maxSeconds : ℕ := 1000000000 * 86400 - 1

theorem ofSeconds_of_le (h : n ≤ maxSeconds) :
    ∃ delta, Timedelta.ofSeconds n = .ok delta ∧ delta.micros = n * 1000000 := by
  rw [maxSeconds] at h
  exact ⟨⟨n * 1000000, by omega, by omega⟩, dif_pos (by omega), rfl⟩

theorem ofSeconds_of_lt (h : maxSeconds < n) :
    Timedelta.ofSeconds n = .error .overflowError := by
  rw [maxSeconds] at h
  exact dif_neg (by omega)

theorem le_maxSeconds_of_micros (h : delta.micros = n * 1000000) : n ≤ maxSeconds := by
  have := delta.lt
  rw [maxSeconds]
  omega

theorem Timedelta.ext_micros {delta' : Timedelta} (h : delta.micros = delta'.micros) :
    delta = delta' := by
  obtain ⟨micros, hle, hlt⟩ := delta
  obtain ⟨micros', hle', hlt'⟩ := delta'
  obtain rfl : micros = micros' := h
  rfl

/-- **A text that is no sequence of chunks** is a `ValueError`. -/
theorem parseDuration_of_not_spells (py : Interpreter) (h : ∀ cs, ¬Spells text cs) :
    parseDuration py (some text) = .error .valueError := by
  simp only [parseDuration]
  split_ifs with hnil
  · rfl
  cases hloop : loop py (lower (strip text)) 0 with
  | error e => rw [eq_valueError_of_loop hloop]
  | ok m =>
    obtain ⟨cs, hcs⟩ := exists_chunks_of_loop hloop
    refine absurd ⟨?_, hcs⟩ (h cs)
    rintro rfl
    exact hnil hcs

/-- **A sequence of chunks**, where `int` takes them all and where it does not. -/
theorem parseDuration_of_spells (py : Interpreter) (h : Spells text cs) :
    parseDuration py (some text) =
    if (∀ c ∈ cs, py.takes c.digits) ∧ 0 < total cs then Timedelta.ofSeconds (total cs)
    else .error .valueError := by
  obtain ⟨hne, hcs⟩ := h
  have hnil : written cs ≠ [] := fun hnil => hne (written_injective hnil)
  simp only [parseDuration, hcs, if_neg hnil, loop_chunks, Nat.zero_add]
  by_cases htakes : ∀ c ∈ cs, py.takes c.digits
  · rw [if_pos htakes]
    rcases Nat.eq_zero_or_pos (total cs) with hzero | hpos
    · rw [if_neg (by omega)]
      simp only [hzero, le_refl, if_true]
    · rw [if_pos ⟨htakes, hpos⟩]
      simp only [if_neg (not_le.mpr hpos)]
  · rw [if_neg htakes, if_neg fun h => htakes h.1]

/-- A text has one reading. -/
theorem denotes_iff (h : Spells text cs) :
    Denotes text delta ↔ 0 < total cs ∧ delta.micros = total cs * 1000000 := by
  constructor
  · rintro ⟨cs', hcs', hpos, hmicros⟩
    obtain rfl := written_injective (hcs'.2.symm.trans h.2)
    exact ⟨hpos, hmicros⟩
  · rintro ⟨hpos, hmicros⟩
    exact ⟨cs, h, hpos, hmicros⟩

/-- No text without chunks stands for anything. -/
theorem not_denotes (h : ∀ cs, ¬Spells text cs) : ¬Denotes text delta := by
  rintro ⟨cs, hcs, -⟩
  exact h cs hcs

theorem Spells.ne_nil (h : Spells text cs) : text ≠ [] := by
  rintro rfl
  exact h.1 (written_injective h.2.symm)

/-- `cmd_on` reports a `ValueError`, if there is an argument. -/
theorem cmdOn_of_valueError (hne : text ≠ [])
    (h : parseDuration py (some text) = .error .valueError) :
    cmdOn py now (some text) = .usageError := by
  cases text with
  | nil => exact absurd rfl hne
  | cons c t => simp only [cmdOn, h]

/-- When there is a date for the end. -/
theorem exists_addDelta_iff {n : ℕ} (h : delta.micros = n * 1000000) :
    (∃ u, addDelta now delta = .ok u) ↔ now.micros + n * 1000000 < 315537897600 * 1000000 := by
  rw [addDelta]
  split_ifs with hdate
  · exact iff_of_true ⟨_, rfl⟩ (by omega)
  · refine iff_of_false ?_ (by omega)
    rintro ⟨u, hu⟩
    cases hu

/-! ### Exact and total -/

/-- **The grammar is exact and total** on a text: what it stands for is accepted and nothing
else, the rest is a `ValueError`, and `cmd_on` reports it, and what would end too late. -/
structure Exact (py : Interpreter) (now : Utc) (text : Text) : Prop where
  accepts : ∀ delta, parseDuration py (some text) = .ok delta ↔ Denotes text delta
  refuses : ∀ e, parseDuration py (some text) = .error e → e = .valueError
  reports : (¬∃ delta expiresAt, Denotes text delta ∧ addDelta now delta = .ok expiresAt) →
    cmdOn py now (some text) = .usageError

/-- **The text ends in time**: there is one, and if it is a sequence of chunks, then what they
add up to ends before the year 10000; or `int` refuses one of them and they are not a
duration anyway. -/
def InTime (py : Interpreter) (now : Utc) (text : Text) : Prop :=
  text ≠ [] ∧ ∀ cs, Spells text cs →
    if ∀ c ∈ cs, py.takes c.digits then
      now.micros + total cs * 1000000 < 315537897600 * 1000000
    else total cs = 0 ∨ maxSeconds < total cs

/-- A `ValueError` is right for what stands for nothing. -/
theorem exact_of_valueError (hne : text ≠ [])
    (hparse : parseDuration py (some text) = .error .valueError)
    (hnot : ∀ delta, ¬Denotes text delta) : Exact py now text := by
  refine ⟨fun delta => ?_, fun e he => ?_, fun _ => cmdOn_of_valueError hne hparse⟩
  · rw [hparse]
    exact iff_of_false (fun heq => by cases heq) (hnot delta)
  · rw [hparse] at he
    exact (Except.error.inj he).symm

/-- A duration that is accepted is not reported. -/
theorem cmdOn_ne_usageError (hne : text ≠ []) (hparse : parseDuration py (some text) = .ok delta) :
    cmdOn py now (some text) ≠ .usageError := by
  cases text with
  | nil => exact absurd rfl hne
  | cons c t =>
    simp only [cmdOn, hparse]
    cases addDelta now delta with
    | error e => exact nofun
    | ok u => exact nofun

/-- What is accepted, and rightly so, is exact if there is a date for the end. -/
theorem exact_iff_of_ok (hne : text ≠ []) (hparse : parseDuration py (some text) = .ok delta)
    (hdenotes : ∀ delta', Denotes text delta' ↔ delta' = delta) :
    Exact py now text ↔ ∃ u, addDelta now delta = .ok u := by
  constructor
  · intro hexact
    by_contra hlate
    refine cmdOn_ne_usageError hne hparse (hexact.reports ?_)
    rintro ⟨delta', u, hdelta', hu⟩
    obtain rfl := (hdenotes delta').mp hdelta'
    exact hlate ⟨u, hu⟩
  · rintro ⟨u, hu⟩
    refine ⟨fun delta' => ?_, fun e he => ?_, fun hnot => ?_⟩
    · rw [hparse, hdenotes]
      exact ⟨fun heq => (Except.ok.inj heq).symm, fun heq => heq ▸ rfl⟩
    · rw [hparse] at he
      cases he
    · exact absurd ⟨delta, u, (hdenotes delta).mpr rfl, hu⟩ hnot

/-- Where `int` takes all the numbers. -/
theorem exact_iff_of_takes (h : Spells text cs) (htakes : ∀ c ∈ cs, py.takes c.digits) :
    Exact py now text ↔ now.micros + total cs * 1000000 < 315537897600 * 1000000 := by
  have hnow := now.lt
  have hparse := parseDuration_of_spells py h
  rcases Nat.eq_zero_or_pos (total cs) with hzero | hpos
  · rw [if_neg (by omega)] at hparse
    refine iff_of_true (exact_of_valueError h.ne_nil hparse fun delta hdelta => ?_) (by omega)
    have := ((denotes_iff h).mp hdelta).1
    omega
  rw [if_pos ⟨htakes, hpos⟩] at hparse
  rcases Nat.lt_or_ge maxSeconds (total cs) with hlong | hshort
  · -- the `timedelta` overflows, and so would the date
    rw [ofSeconds_of_lt hlong] at hparse
    refine iff_of_false (fun hexact => ?_) ?_
    · exact absurd (hexact.refuses _ hparse) (by decide)
    · rw [maxSeconds] at hlong
      omega
  · obtain ⟨delta, hdelta, hmicros⟩ := ofSeconds_of_le hshort
    rw [hdelta] at hparse
    rw [← exists_addDelta_iff hmicros]
    refine exact_iff_of_ok h.ne_nil hparse fun delta' => ?_
    rw [denotes_iff h, ← hmicros]
    exact ⟨fun hdelta' => Timedelta.ext_micros hdelta'.2, fun heq => ⟨hpos, heq ▸ rfl⟩⟩

/-- Where `int` refuses a number. -/
theorem exact_iff_of_not_takes (h : Spells text cs) (htakes : ¬∀ c ∈ cs, py.takes c.digits) :
    Exact py now text ↔ total cs = 0 ∨ maxSeconds < total cs := by
  have hparse := parseDuration_of_spells py h
  rw [if_neg fun hall => htakes hall.1] at hparse
  constructor
  · intro hexact
    by_contra hnot
    obtain ⟨delta, -, hmicros⟩ := ofSeconds_of_le (n := total cs) (by omega)
    have := (hexact.accepts delta).mpr ((denotes_iff h).mpr ⟨by omega, hmicros⟩)
    rw [hparse] at this
    cases this
  · intro hnot
    refine exact_of_valueError h.ne_nil hparse fun delta hdelta => ?_
    obtain ⟨hpos, hmicros⟩ := (denotes_iff h).mp hdelta
    have := le_maxSeconds_of_micros hmicros
    omega

/-- **When the duration grammar is exact and total**: for the texts that end in time. -/
theorem exact_iff (py : Interpreter) (now : Utc) (text : Text) :
    Exact py now text ↔ InTime py now text := by
  by_cases hspells : ∃ cs, Spells text cs
  · obtain ⟨cs, h⟩ := hspells
    have hcs : InTime py now text ↔
        if ∀ c ∈ cs, py.takes c.digits then
          now.micros + total cs * 1000000 < 315537897600 * 1000000
        else total cs = 0 ∨ maxSeconds < total cs := by
      refine ⟨fun hin => hin.2 cs h, fun hin => ⟨h.ne_nil, fun cs' h' => ?_⟩⟩
      obtain rfl := written_injective (h'.2.symm.trans h.2)
      exact hin
    rw [hcs]
    split_ifs with htakes
    · exact exact_iff_of_takes h htakes
    · exact exact_iff_of_not_takes h htakes
  · have hnone : ∀ cs, ¬Spells text cs := fun cs h => hspells ⟨cs, h⟩
    have hparse := parseDuration_of_not_spells py hnone
    constructor
    · intro hexact
      refine ⟨?_, fun cs h => absurd h (hnone cs)⟩
      rintro rfl
      have hreport : cmdOn py now (some []) = .usageError := by
        refine hexact.reports ?_
        rintro ⟨delta, u, hdenotes, -⟩
        exact not_denotes hnone hdenotes
      cases hreport
    · rintro ⟨hne, -⟩
      exact exact_of_valueError hne hparse fun _ => not_denotes hnone

/-- **A duration that is too long is no `ValueError`**: two hundred million weeks. -/
theorem not_exact : ¬∀ py now text, Exact py now text := by
  intro h
  have hlong : parseDuration ⟨0, .inl rfl⟩ (some (lit "200000000w")) = .error .overflowError := by
    decide +kernel
  exact absurd ((h _ ⟨0, by decide⟩ _).refuses _ hlong) (by decide)

end Afk

end OtamanBridge
