import OtamanBridge.Bus.RoundTrip
import OtamanBridge.Core

/-!
# The AFK file, and its two readers

`afk.py` reads the file with PyYAML, minds its expiry and the sources there are;
`idle_afk.py` looks for the first line that begins with `source:`. Both take the file under
`.otaman/`, or the one under `.maestro/` if there is no other.

What PyYAML makes of a text, and what `datetime` makes of what is to be a time, are
parameters (`OtamanBridge.Afk.Python`). What the monitor writes is read back as an entry that
is active (`OtamanBridge.Afk.readAfk_idleText`).
-/

namespace OtamanBridge

namespace Afk

open Py Bus

/-! ### The file -/

/-- What Python and PyYAML do with the values of the file. -/
structure Python extends Bus.Python where
  /-- The time of a `datetime` with this `str`, in UTC if it says no zone. -/
  instant : Text → Seconds
  /-- The time that `datetime.fromisoformat` makes of a text, or its `ValueError`. -/
  fromisoformat : Text → Option Seconds

/-- What is in a file: a text, or bytes that are no UTF-8. Of these the lines that are read
before the error is met are known. -/
inductive Content
  | text (t : Text)
  | undecodable (lines : List Text)
  deriving DecidableEq

/-- Where the file may be. -/
inductive Place
  /-- Under `.otaman/`. -/
  | preferred
  /-- Under `.maestro/`. -/
  | legacy
  deriving DecidableEq

/-- The files there are. -/
structure Files where
  preferred : Option Content
  legacy : Option Content
  deriving DecidableEq

namespace Files

variable (f : Files)

/-- The file that is looked at: `_resolve_state_file`, and the same choice of `read_afk`. -/
def place : Place :=
  if f.preferred.isSome then .preferred else if f.legacy.isSome then .legacy else .preferred

/-- The file there. -/
def get : Place → Option Content
  | .preferred => f.preferred
  | .legacy => f.legacy

/-- The files with this one written or removed. -/
def set : Place → Option Content → Files
  | .preferred, c => { f with preferred := c }
  | .legacy, c => { f with legacy := c }

/-- What is written where the file is looked for is looked at. -/
theorem get_set_place (c : Content) :
    (f.set f.place (some c)).get (f.set f.place (some c)).place = some c := by
  rcases f with ⟨_ | p, _ | l⟩ <;> rfl

end Files

/-! ### The reader -/

/-- `AfkState`. -/
structure AfkState where
  enabledAt : Seconds
  expiresAt : Option Seconds
  source : Text
  enabledBy : Text
  deriving DecidableEq

/-- `VALID_SOURCES`. -/
def validSources : List Text := ["manual", "unattended", "ssh-auto", "idle-auto"].map lit

/-- `_IDLE_SOURCE`. -/
def idleSource : Text := lit "idle-auto"

/-- `is_expired`. -/
def AfkState.isExpired (st : AfkState) (now : Seconds) : Prop :=
  ∃ e ∈ st.expiresAt, e ≤ now

instance (st : AfkState) (now : Seconds) : Decidable (st.isExpired now) :=
  inferInstanceAs (Decidable (∃ e ∈ st.expiresAt, e ≤ now))

variable (py : Python)

/-- The `Z` at the end of a time, written out. -/
def zoned (t : Text) : Text :=
  if t.getLast? = some 'Z'.toNat then t.dropLast ++ lit "+00:00" else t

/-- `datetime.fromisoformat`, which may raise a `ValueError`. -/
def parseText (t : Text) : Except Unit (Option Seconds) :=
  match py.fromisoformat (zoned t) with
  | some time => .ok (some time)
  | none => .error ()

/-- `_parse_iso`. -/
def parseIso : Option Value → Except Unit (Option Seconds)
  | none | some .none | some (.str []) => .ok none
  | some (.date type t) =>
    if type = lit "datetime" then .ok (some (py.instant t))
    else parseText py (py.text (.date type t))
  | some v => parseText py (py.text v)

/-- `AfkState.from_dict`, which may raise a `ValueError`. -/
def fromDict (data : Value) : Except Unit AfkState :=
  match parseIso py (data.get "enabled_at") with
  | .error _ | .ok none => .error ()
  | .ok (some enabledAt) =>
    let source := py.text ((data.get "source").getD (.str (lit "manual")))
    if source ∉ validSources then .error ()
    else (parseIso py (data.get "expires_at")).map fun expiresAt =>
      { enabledAt, expiresAt, source
        enabledBy := match data.get "enabled_by" with
          | none => []
          | some v => if v.truthy then py.text v else [] }

/-- The state that `read_afk` finds, before it looks at the clock; it may raise. -/
def loadAfk : Option Content → Except Unit (Option AfkState)
  | none => .ok none
  | some (.undecodable _) => .error ()
  | some (.text t) =>
    match py.safeLoad (universalNewlines t) with
    | .error .yaml => .ok none
    | .error .other => .error ()
    | .ok v =>
      match if v.truthy then v else .dict [] with
      | .dict items => .ok (fromDict py (.dict items)).toOption
      | _ => .ok none

/-- `read_afk`: what it returns. -/
def readAfk (f : Files) (now : Seconds) : Except Unit (Option AfkState) :=
  (loadAfk py (f.get f.place)).map (Option.filter fun st => ¬st.isExpired now)

/-- `read_afk`: the files after it, which takes away an entry that is expired. -/
def afterRead (f : Files) (now : Seconds) : Files :=
  match loadAfk py (f.get f.place) with
  | .ok (some st) => if st.isExpired now then f.set f.place none else f
  | _ => f

variable {py}

theorem readAfk_eq_some_iff {f : Files} {now : Seconds} {st : AfkState} :
    readAfk py f now = .ok (some st) ↔
      loadAfk py (f.get f.place) = .ok (some st) ∧ ¬st.isExpired now := by
  unfold readAfk
  rcases loadAfk py (f.get f.place) with _ | _ | st'
  · simp [Except.map]
  · simp [Except.map]
  · simp only [Except.map, Except.ok.injEq, Option.filter_eq_some_iff, Option.some.injEq,
      decide_not, Bool.not_eq_true', decide_eq_false_iff_not]

/-- **Where nothing is read, nothing is read later**: an entry that is expired stays so. -/
theorem readAfk_eq_none_mono {f : Files} {now now' : Seconds} (h : readAfk py f now = .ok none)
    (hle : now ≤ now') : readAfk py f now' = .ok none := by
  rcases hload : loadAfk py (f.get f.place) with _ | _ | st
  · simp [readAfk, hload, Except.map] at h
  · simp [readAfk, hload, Except.map]
  · have hexpired : st.isExpired now := by simpa [readAfk, hload, Except.map] using h
    obtain ⟨e, he, hpast⟩ := hexpired
    have hlater : st.isExpired now' := ⟨e, he, hpast.trans hle⟩
    simp [readAfk, hload, Except.map, hlater]

/-! ### The monitor's reader -/

/-- The value of the first line that begins with `source:`. -/
def scanLines (lines : List Text) : Option Text :=
  (lines.find? (lit "source:").isPrefixOf).map fun l => strip (l.drop (lit "source:").length)

/-- `_read_afk_source`, which may raise. -/
def readAfkSource : Option Content → Except Unit (Option Text)
  | none => .ok none
  | some (.text t) => .ok (scanLines ((universalNewlines t).splitOn 10))
  | some (.undecodable lines) =>
    match scanLines lines with
    | some source => .ok (some source)
    | none => .error ()

/-! ### The monitor's writer -/

/-- The lines of `_write_idle_afk`. -/
def idleFields (i : Instant) (idleSeconds : Seconds) : List (Text × Text) :=
  [(lit "enabled_at", i.isoformat), (lit "source", idleSource),
    (lit "signal", lit "idle-minutes=" ++ decimal (idleSeconds / 60).floor.toNat),
    (lit "enabled_by", lit "bridge-daemon")]

/-- The text of `_write_idle_afk`. -/
def idleText (i : Instant) (idleSeconds : Seconds) : Text :=
  joinLines ((idleFields i idleSeconds).map Yaml.line) ++ lit "\n"

/-- What a clock can show: `datetime` ends with the year 9999. -/
def ClockShows (i : Instant) : Prop := i.second < 253402300800 ∧ i.micro < 1000000

instance (i : Instant) : Decidable (ClockShows i) := inferInstanceAs (Decidable (_ ∧ _))

/-- **PyYAML as the monitor relies on it**: a loader of lines, for which a time is a
`datetime`, and the newline after the last line is nothing. -/
structure Conforms (py : Python) (scalar : Text → Except LoadError Value) (node : Text → Prop) :
    Prop where
  load : Yaml.Loader py.safeLoad scalar node
  newline : ∀ kvs : List (Text × Text), kvs ≠ [] → (∀ kv ∈ kvs, Yaml.IsKey kv.1 ∧ node kv.2) →
    py.safeLoad (joinLines (kvs.map Yaml.line) ++ lit "\n") =
      py.safeLoad (joinLines (kvs.map Yaml.line))
  time : ∀ i : Instant, ClockShows i → ∃ t, scalar i.isoformat = .ok (.date (lit "datetime") t)

section Written

variable {scalar : Text → Except LoadError Value} {node : Text → Prop}

/-- The lines the monitor writes are plain. -/
theorem plain_idleFields (i : Instant) (idleSeconds : Seconds) :
    ∀ kv ∈ idleFields i idleSeconds, Yaml.IsKey kv.1 ∧ Yaml.Plain kv.2 := by
  have hminutes : ∀ n, Yaml.Plain (lit "idle-minutes=" ++ decimal n) := by
    refine fun n => Yaml.plain_of_visible (fun c hc => ?_) ?_ ?_
    · have hword : ∀ c ∈ lit "idle-minutes=", 33 ≤ c ∧ c ≤ 126 := by decide
      rcases List.mem_append.mp hc with hc | hc
      · exact hword c hc
      · have := mem_decimal hc
        omega
    · exact ⟨'i'.toNat, rfl, by decide, by decide⟩
    · rw [List.getLast?_append_of_ne_nil _ (Inbox.decimal_ne_nil n)]
      intro h
      have := mem_decimal (List.mem_of_getLast? h)
      have hcolon : ':'.toNat = 58 := rfl
      omega
  simp only [idleFields, List.forall_mem_cons]
  exact ⟨⟨by decide, plain_isoformat i⟩, ⟨by decide, by decide⟩, ⟨by decide, hminutes _⟩,
    ⟨by decide, by decide⟩, List.forall_mem_nil _⟩

/-- What PyYAML makes of them. -/
theorem readFields_idleFields (h : Conforms py scalar node) {i : Instant} (hi : ClockShows i)
    (idleSeconds : Seconds) : ∃ t signal, readFields scalar (idleFields i idleSeconds) = .ok
      [(.str (lit "enabled_at"), .date (lit "datetime") t), (.str (lit "source"), .str idleSource),
        (.str (lit "signal"), signal), (.str (lit "enabled_by"), .str (lit "bridge-daemon"))] := by
  obtain ⟨t, ht⟩ := h.time i hi
  have hplain := plain_idleFields i idleSeconds
  simp only [idleFields, List.forall_mem_cons] at hplain
  have hidle : scalar idleSource = .ok (.str idleSource) :=
    h.load.string _ hplain.2.1.2 (by decide)
  have hsignal : scalar (lit "idle-minutes=" ++ decimal (idleSeconds / 60).floor.toNat) =
      .ok (.str (lit "idle-minutes=" ++ decimal (idleSeconds / 60).floor.toNat)) := by
    refine h.load.string _ hplain.2.2.1.2
      ⟨⟨'i'.toNat, List.mem_cons_self, by decide⟩, fun hmem => ?_⟩
    -- longer than every word that YAML takes for something else
    have hshort : ∀ w ∈ Yaml.reserved, w.length < 13 := by decide
    have hlong := hshort _ hmem
    have hlen : (lit "idle-minutes=").length = 13 := by decide
    rw [List.length_append, hlen] at hlong
    omega
  have hby : scalar (lit "bridge-daemon") = .ok (.str (lit "bridge-daemon")) :=
    h.load.string _ hplain.2.2.2.1.2 (by decide)
  refine ⟨t, .str (lit "idle-minutes=" ++ decimal (idleSeconds / 60).floor.toNat), ?_⟩
  simp only [idleFields, readFields_cons, ht, hidle, hsignal, hby]
  rfl

/-- The text is read as it was written. -/
theorem universalNewlines_idleText (i : Instant) (idleSeconds : Seconds) :
    universalNewlines (idleText i idleSeconds) = idleText i idleSeconds := by
  refine universalNewlines_eq_self fun hc => ?_
  rcases List.mem_append.mp hc with hc | hc
  · rcases mem_joinLines hc with hc | ⟨l, hl, hc⟩
    · exact absurd hc (by decide)
    · obtain ⟨kv, hkv, rfl⟩ := List.mem_map.mp hl
      obtain ⟨hkey, hplain⟩ := plain_idleFields i idleSeconds kv hkv
      have hline : OneLine (Yaml.line kv) := by
        rw [Yaml.line, oneLine_append, oneLine_append]
        exact ⟨⟨hkey.oneLine, by decide⟩, hplain.oneLine⟩
      exact absurd (hline 13 hc) (by decide)
  · exact absurd hc (by decide)

/-- **What the monitor writes is an entry of its own**, and it does not expire. -/
theorem readAfk_idleText (h : Conforms py scalar node) (f : Files) {i : Instant}
    (hi : ClockShows i) (idleSeconds now : Seconds) :
    ∃ st, readAfk py (f.set f.place (some (.text (idleText i idleSeconds)))) now =
      .ok (some st) ∧ st.source = idleSource := by
  obtain ⟨t, signal, hread⟩ := readFields_idleFields h hi idleSeconds
  have hfields : ∀ kv ∈ idleFields i idleSeconds, Yaml.IsKey kv.1 ∧ node kv.2 := fun kv hkv =>
    (plain_idleFields i idleSeconds kv hkv).imp_right (h.load.plain _)
  have hsafe : py.safeLoad (universalNewlines (idleText i idleSeconds)) =
      (readFields scalar (idleFields i idleSeconds)).map .dict := by
    rw [universalNewlines_idleText, idleText, h.newline _ (by simp [idleFields]) hfields]
    exact h.load.block _ (by simp [idleFields])
      (show ([lit "enabled_at", lit "source", lit "signal", lit "enabled_by"]).Nodup by decide)
      hfields
  -- what the loader gives back, field by field, and `from_dict` of it
  obtain ⟨items, hitems⟩ : ∃ items, items = [
      (Value.str (lit "enabled_at"), Value.date (lit "datetime") t),
      (.str (lit "source"), .str idleSource), (.str (lit "signal"), signal),
      (.str (lit "enabled_by"), .str (lit "bridge-daemon"))] := ⟨_, rfl⟩
  have hat : (Value.dict items).get "enabled_at" = some (.date (lit "datetime") t) := by
    rw [hitems, get_cons, if_pos rfl]
  have hsource : (Value.dict items).get "source" = some (.str idleSource) := by
    rw [hitems, get_cons, if_neg (by decide), get_cons, if_pos rfl]
  have hexpires : (Value.dict items).get "expires_at" = none := by
    rw [hitems, get_cons, if_neg (by decide), get_cons, if_neg (by decide), get_cons,
      if_neg (by decide), get_cons, if_neg (by decide)]
    rfl
  have hby : (Value.dict items).get "enabled_by" = some (.str (lit "bridge-daemon")) := by
    rw [hitems, get_cons, if_neg (by decide), get_cons, if_neg (by decide), get_cons,
      if_neg (by decide), get_cons, if_pos rfl]
  have hdict : fromDict py (.dict items) =
      .ok ⟨py.instant t, none, idleSource, lit "bridge-daemon"⟩ := by
    simp only [fromDict, hat, hsource, hexpires, hby, parseIso, if_true, Option.getD_some,
      Python.text]
    rw [if_neg (not_not.mpr (show idleSource ∈ validSources by decide))]
    rfl
  have htruthy : (Value.dict items).truthy := by
    rw [hitems]
    rfl
  have hload : loadAfk py (some (.text (idleText i idleSeconds))) =
      .ok (some ⟨py.instant t, none, idleSource, lit "bridge-daemon"⟩) := by
    rw [← hitems] at hread
    simp only [loadAfk, hsafe, hread, Except.map, htruthy, if_true, hdict, Except.toOption]
  refine ⟨⟨py.instant t, none, idleSource, lit "bridge-daemon"⟩,
    readAfk_eq_some_iff.mpr ⟨?_, ?_⟩, rfl⟩
  · rw [Files.get_set_place]
    exact hload
  · simp [AfkState.isExpired]

end Written

/-! ### A reader of plain scalars -/

/-- The number that digits write. -/
def number (t : Text) : ℕ := t.foldl (fun n c => 10 * n + (c - '0'.toNat)) 0

/-- The time of a `datetime` in UTC, from its `str`: the days before this one, with years
that begin in March, and the time of day. -/
def plainInstant (t : Text) : Seconds :=
  let month := number ((t.drop 5).take 2)
  let year := if month ≤ 2 then number (t.take 4) - 1 else number (t.take 4)
  let march := if month ≤ 2 then month + 9 else month - 3
  let days := 365 * year + year / 4 - year / 100 + year / 400 + (153 * march + 2) / 5 +
    number ((t.drop 8).take 2) - 1 - 719468
  ((86400 * days + 3600 * number ((t.drop 11).take 2) + 60 * number ((t.drop 14).take 2) +
    number ((t.drop 17).take 2) : ℕ) : Seconds)

/-- What PyYAML makes of a string, and of a time with a `T` in it. -/
def afkScalar (t : Text) : Except LoadError Value :=
  if t.all Yaml.isNumeral && t.contains 'T'.toNat then
    .ok (.date (lit "datetime") (t.map fun c => if c = 'T'.toNat then 32 else c))
  else .ok (.str t)

/-- A Python that reads entries of strings and times. -/
def afkPython : Python where
  str := plainPython.str
  lower := plainPython.lower
  safeLoad := Yaml.loadLines afkScalar .yaml
  instant := plainInstant
  fromisoformat := fun _ => none

example : plainInstant (lit "2026-05-18 12:00:00+00:00") = 1779105600 := by decide +kernel

theorem conforms_afkPython : Conforms afkPython afkScalar Yaml.Plain where
  load := by
    refine Yaml.loader_loadLines LoadError.yaml fun t _ ht => ?_
    obtain ⟨c, hc, hnum⟩ := ht.1
    have hall : t.all Yaml.isNumeral = false := List.all_eq_false.mpr ⟨c, hc, by simp [hnum]⟩
    simp [afkScalar, hall]
  newline kvs hne h := by
    have hlines : ∀ l ∈ kvs.map Yaml.line, OneLine l ∧ l ≠ [] := by
      intro l hl
      obtain ⟨kv, hkv, rfl⟩ := List.mem_map.mp hl
      refine ⟨?_, by simp [Yaml.line, lit]⟩
      rw [Yaml.line, oneLine_append, oneLine_append]
      exact ⟨⟨(h kv hkv).1.oneLine, by decide⟩, (h kv hkv).2.oneLine⟩
    have hnewline : splitlines (joinLines (kvs.map Yaml.line) ++ lit "\n") =
        splitlines (joinLines (kvs.map Yaml.line)) :=
      (splitlines_joinLines_newline (by simpa using hne) fun l hl => (hlines l hl).1).trans
        (splitlines_joinLines hlines).symm
    simp only [afkPython, Yaml.loadLines, hnewline]
  time i _ := by
    have hall : i.isoformat.all Yaml.isNumeral := List.all_eq_true.mpr fun c hc => by
      have hsep : ∀ c ∈ lit "-T:.+", Yaml.isNumeral c := by decide
      rcases mem_isoformat hc with hc | hc
      · simp [Yaml.isNumeral, hc]
      · exact hsep c hc
    have hmem : i.isoformat.contains 'T'.toNat := by
      have hT : 'T'.toNat ∈ lit "T" := by decide
      simp only [List.contains_iff_mem, Instant.isoformat, List.mem_append, hT, true_or, or_true]
    refine ⟨i.isoformat.map fun c => if c = 'T'.toNat then 32 else c, ?_⟩
    simp only [afkScalar, hall, hmem, Bool.and_self, if_true]

end Afk

end OtamanBridge
