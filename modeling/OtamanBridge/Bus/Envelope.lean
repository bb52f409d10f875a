import OtamanBridge.Bus.Writers
import OtamanBridge.Lib.Yaml

/-!
# What becomes of an envelope

The writers make an envelope by interpolation, and `parse_bus_file` cuts it out of the file
by a regular expression and has PyYAML read it. As long as every value is one line, the
expression cuts where the writer did (`OtamanBridge.Bus.frontmatterMatch_envelope`), and as
long as every value is a whole node of YAML, the reader has the writer's keys, each with what
the node resolves to (`OtamanBridge.Bus.parseBusFile_envelope`).
-/

namespace OtamanBridge

namespace Bus

open Py

open Yaml (IsKey Plain)

/-! ### Where the front matter ends -/

theorem oneLine_not_mem_cr {t : Text} (h : OneLine t) : 13 ∉ t := fun hc =>
  absurd (h 13 hc) (by decide)

/-- What begins with no white space is not entered before its first character. -/
theorem afterNewlines_newline {t : Text} (h : ∀ c ∈ t.head?, isSpace c = false) :
    afterNewlines (10 :: t) = [t] := by
  have hspace : isSpace 10 := by decide
  have ht : afterNewlines t = [] := by
    cases t with
    | nil => rfl
    | cons c t => simp [afterNewlines, h c rfl]
  simp [afterNewlines, hspace, ht]

/-- Where the fence is, the first character apart. -/
theorem closingFence_cons {c : ℕ} (hc : c ≠ 10) {t before after : Text}
    (h : cut (lit "\n---") (c :: t) = some (before, after)) :
    closingFence (c :: t) = some (before, lstrip after) := by
  have hsep : lit "\n---" = 10 :: lit "---" := by decide
  have hcons : cut (lit "\n---") (c :: t) =
      (cut (lit "\n---") t).map fun ab => (c :: ab.1, ab.2) := by
    have hnot : 10 ∉ [c] := by simpa using Ne.symm hc
    rw [hsep]
    exact cut_append hnot t
  rw [hcons] at h
  obtain ⟨⟨a, b⟩, hcut, hab⟩ := Option.map_eq_some_iff.mp h
  obtain ⟨rfl, rfl⟩ := Prod.mk.inj hab
  rw [closingFence, hcut]
  rfl

section Fields

variable {fields : List (Text × Text)}

/-- A line of an envelope does not look like a fence. -/
theorem envelopeLine_ok (hkeys : ∀ kv ∈ fields, IsKey kv.1) (hvals : ∀ kv ∈ fields, OneLine kv.2)
    {l : Text} (hl : l ∈ fields.map envelopeLine) :
    OneLine l ∧ ∃ c ∈ l.head?, 97 ≤ c ∧ c ≤ 122 := by
  obtain ⟨kv, hkv, rfl⟩ := List.mem_map.mp hl
  constructor
  · rw [envelopeLine, oneLine_append, oneLine_append]
    exact ⟨⟨(hkeys kv hkv).oneLine, by decide⟩, hvals kv hkv⟩
  · obtain ⟨c, hc, hrange⟩ := (hkeys kv hkv).starts
    refine ⟨c, ?_, hrange⟩
    obtain ⟨k, hk⟩ := List.head?_eq_some_iff.mp hc
    simp [envelopeLine, hk]

/-- **The regular expression cuts an envelope where the writer put the fences**, whatever
stands in the body. -/
theorem frontmatterMatch_envelope (hne : fields ≠ []) (hkeys : ∀ kv ∈ fields, IsKey kv.1)
    (hvals : ∀ kv ∈ fields, OneLine kv.2) (body : Text) :
    frontmatterMatch (universalNewlines (envelope fields body)) =
      some (joinLines (fields.map envelopeLine), lstrip (universalNewlines body)) := by
  obtain ⟨ls, hls⟩ : ∃ ls, ls = fields.map envelopeLine := ⟨_, rfl⟩
  have hok : ∀ l ∈ ls, OneLine l ∧ ∃ c ∈ l.head?, 97 ≤ c ∧ c ≤ 122 := fun l hl =>
    envelopeLine_ok hkeys hvals (hls ▸ hl)
  have hlsne : ls ≠ [] := by simpa [hls] using hne
  have hcr : 13 ∉ joinLines ls := fun h => by
    rcases mem_joinLines h with h | ⟨l, hl, h⟩
    · exact absurd h (by decide)
    · exact oneLine_not_mem_cr (hok l hl).1 h
  -- no carriage return stands before the body
  have htext : universalNewlines (envelope fields body) = lit "---" ++ 10 :: (joinLines ls ++
      (10 :: 45 :: lit "--" ++ 10 :: universalNewlines body)) := by
    rw [envelope, ← hls, universalNewlines_append]
    · simp [lit]
    · simp only [List.mem_append, not_or]
      exact ⟨⟨by decide, hcr⟩, by decide⟩
  obtain ⟨c, t, hct, hrange⟩ : ∃ c t, joinLines ls = c :: t ∧ 97 ≤ c ∧ c ≤ 122 := by
    obtain ⟨l, ls', rfl⟩ := List.exists_cons_of_ne_nil hlsne
    obtain ⟨c, hc, hrange⟩ := (hok l List.mem_cons_self).2
    obtain ⟨l', rfl⟩ := List.head?_eq_some_iff.mp hc
    rcases eq_or_ne ls' [] with rfl | hne'
    · exact ⟨c, l', by simp [joinLines, List.intercalate], hrange⟩
    · exact ⟨c, _, joinLines_cons hne', hrange⟩
  have hspace : isSpace c = false := by
    simp only [isSpace, Bool.or_eq_false_iff, Bool.and_eq_false_iff, decide_eq_false_iff_not]
    omega
  have hcut : cut (10 :: 45 :: lit "--")
      (joinLines ls ++ (10 :: 45 :: lit "--" ++ 10 :: universalNewlines body)) =
        some (joinLines ls, 10 :: universalNewlines body) := by
    refine cut_joinLines hlsne (fun l hl => ?_) _
    obtain ⟨hone, d, hd, hd'⟩ := hok l hl
    refine ⟨fun h => absurd (hone 10 h) (by decide), ?_, ?_⟩
    · rintro rfl
      exact absurd hd (by simp)
    · rw [Option.mem_def.mp hd, ne_eq, Option.some.injEq]
      omega
  have hlstrip : lstrip (10 :: universalNewlines body) = lstrip (universalNewlines body) :=
    List.dropWhile_cons_of_pos (by decide)
  rw [hct, List.cons_append] at hcut
  have hclose := closingFence_cons (by omega) hcut
  rw [htext, hct, frontmatterMatch, if_pos (by simp [lit]), hls.symm, hct,
    show ∀ t, (lit "---" ++ t).drop 3 = t from fun _ => rfl, List.cons_append,
    afterNewlines_newline (by simpa using hspace), List.findSome?_cons, hclose, hlstrip]

/-! ### What the reader makes of it -/

/-- What PyYAML makes of the lines of an envelope. -/
def readFields (scalar : Text → Except LoadError Value) (fields : List (Text × Text)) :
    Except LoadError (List (Value × Value)) :=
  fields.mapM fun kv => (scalar kv.2).map fun v => (Value.str kv.1, v)

variable {py : Python} {scalar : Text → Except LoadError Value} {items : List (Value × Value)}

theorem readFields_cons {kv : Text × Text} :
    readFields scalar (kv :: fields) = (scalar kv.2).bind fun v =>
      (readFields scalar fields).map fun items => (Value.str kv.1, v) :: items := by
  unfold readFields
  rw [List.mapM_cons]
  rcases scalar kv.2 with e | v <;> rcases List.mapM _ fields with e | items <;> rfl

theorem readFields_cons_eq_ok {kv : Text × Text}
    (h : readFields scalar (kv :: fields) = .ok items) :
    ∃ v rest, scalar kv.2 = .ok v ∧ readFields scalar fields = .ok rest ∧
      items = (Value.str kv.1, v) :: rest := by
  rw [readFields_cons] at h
  rcases hv : scalar kv.2 with e | v
  · simp [hv, Except.bind] at h
  · rcases hr : readFields scalar fields with e | rest
    · simp [hv, hr, Except.bind, Except.map] at h
    · refine ⟨v, rest, rfl, rfl, ?_⟩
      simpa [hv, hr, Except.bind, Except.map, eq_comm] using h

theorem get_cons (k : Text) (x : Value) (key : String) :
    (Value.dict ((.str k, x) :: items)).get key =
      if k = lit key then some x else (Value.dict items).get key := by
  simp only [Value.get, List.findSome?_cons]
  split_ifs <;> simp

/-- The keys that are read are the keys that were written, in their order. -/
theorem keys_of_readFields (h : readFields scalar fields = .ok items) :
    items.map Prod.fst = fields.map fun kv => .str kv.1 := by
  induction fields generalizing items with
  | nil =>
    obtain rfl := Except.ok.inj h
    rfl
  | cons kv fields ih =>
    obtain ⟨v, rest, -, hr, rfl⟩ := readFields_cons_eq_ok h
    rw [List.map_cons, List.map_cons, ih hr]

/-- A key that was written has the value its node resolves to. -/
theorem get_of_readFields (h : readFields scalar fields = .ok items)
    (hnd : (fields.map Prod.fst).Nodup) {kv : Text × Text} (hkv : kv ∈ fields) :
    ∃ v, scalar kv.2 = .ok v ∧ ∀ key : String, kv.1 = lit key →
      (Value.dict items).get key = some v := by
  induction fields generalizing items with
  | nil => exact absurd hkv (by simp)
  | cons kv' fields ih =>
    obtain ⟨v, rest, hv, hr, rfl⟩ := readFields_cons_eq_ok h
    rw [List.map_cons, List.nodup_cons] at hnd
    rcases List.mem_cons.mp hkv with rfl | hkv
    · exact ⟨v, hv, fun key hkey => by rw [get_cons, if_pos hkey]⟩
    · obtain ⟨x, hx, hget⟩ := ih hr hnd.2 hkv
      refine ⟨x, hx, fun key hkey => ?_⟩
      have hne : kv'.1 ≠ lit key := fun he =>
        hnd.1 (he.trans hkey.symm ▸ List.mem_map_of_mem hkv)
      rw [get_cons, if_neg hne, hget key hkey]

/-- **An envelope of whole nodes is read** as what its lines say. -/
theorem parseBusFile_envelope {node : Text → Prop} (hload : Yaml.Loader py.safeLoad scalar node)
    (hne : fields ≠ []) (hnd : (fields.map Prod.fst).Nodup) (hkeys : ∀ kv ∈ fields, IsKey kv.1)
    (hnode : ∀ kv ∈ fields, node kv.2) (stem body : Text) :
    parseBusFile py stem (some (.text (envelope fields body))) =
      match readFields scalar fields with
      | .ok items => .ok (some ⟨stem, items, lstrip (universalNewlines body)⟩)
      | .error .yaml => .ok none
      | .error .other => .error () := by
  have hmatch := frontmatterMatch_envelope hne hkeys
    (fun kv hkv => hload.oneLine _ (hnode kv hkv)) body
  have hsafe : py.safeLoad (joinLines (fields.map envelopeLine)) =
      (readFields scalar fields).map .dict :=
    hload.block fields hne hnd fun kv hkv => ⟨hkeys kv hkv, hnode kv hkv⟩
  simp only [parseBusFile, hmatch, hsafe]
  rcases hr : readFields scalar fields with (_ | _) | items
  · rfl
  · rfl
  · have hitems : items ≠ [] := by
      rintro rfl
      have := keys_of_readFields hr
      exact hne (by simpa using this)
    have htruthy : (Value.dict items).truthy := by
      cases items with
      | nil => exact absurd rfl hitems
      | cons => rfl
    simp [Except.map, htruthy]

end Fields

/-! ### A reader of plain scalars -/

/-- What PyYAML makes of a string and of a time with a `T` in it. -/
def plainScalar (t : Text) : Except LoadError Value :=
  if t.all Yaml.isNumeral && t[4]? = some '-'.toNat && t[10]? = some 'T'.toNat then
    .ok (.date (lit "datetime") (t.set 10 32))
  else .ok (.str t)

/-- A Python that reads envelopes of strings and times. -/
def plainPython : Python where
  str
    | .date _ t => t
    | _ => []
  lower := Py.lower
  safeLoad := Yaml.loadLines plainScalar .yaml

theorem loader_plainPython : Yaml.Loader plainPython.safeLoad plainScalar Plain := by
  refine Yaml.loader_loadLines LoadError.yaml fun t _ ht => ?_
  obtain ⟨c, hc, hnum⟩ := ht.1
  have hall : t.all Yaml.isNumeral = false := List.all_eq_false.mpr ⟨c, hc, by simp [hnum]⟩
  simp [plainScalar, hall]

end Bus

end OtamanBridge
