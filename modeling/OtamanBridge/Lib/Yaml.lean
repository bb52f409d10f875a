import OtamanBridge.Lib.PyLines

/-!
# Plain scalars of YAML, one to a line

A program that writes YAML by interpolation relies on one part of the language: a document
of lines `key: value`, every value a node that ends with its line, such as a *plain scalar*.
This file says which texts are such scalars (`OtamanBridge.Yaml.Plain`) and what a loader
does with such a document (`OtamanBridge.Yaml.Loader`): it makes a mapping of it, each value
what the node alone resolves to. Which scalars are numbers, dates or truth values is the loader's
business; that a text in which no such thing is written is a string is part of the contract.

`OtamanBridge.Yaml.loadLines` is a loader that keeps this contract and refuses everything
else that has no colon on a line.
-/

namespace OtamanBridge

namespace Yaml

open Py

/-! ### Plain scalars -/

/-- A line of a block mapping. -/
def line (kv : Text × Text) : Text := kv.1 ++ lit ": " ++ kv.2

/-- The characters of a plain scalar on one line: what can be printed, but no tab and no
line break. -/
def isPlainChar (c : ℕ) : Bool :=
  (0x20 ≤ c && c ≤ 0x7e) || (0xa0 ≤ c && c ≤ 0xd7ff && c ≠ 0x2028 && c ≠ 0x2029) ||
    (0xe000 ≤ c && c ≤ 0xfffd) || (0x10000 ≤ c && c ≤ 0x10ffff)

/-- The indicators: the characters that make something else of what follows. -/
def indicators : Text := lit ",[]{}#&*!|>'\"%@`"

/-- The indicators that do so only before white space. -/
def mappingIndicators : Text := lit "-?:"

/-- Whether a plain scalar may begin like this. -/
def startsPlain : Text → Bool
  | [] => false
  | c :: t => c ≠ 32 && c ∉ indicators && (c ∉ mappingIndicators || (t ≠ [] && t.head? ≠ some 32))

/-- Whether a plain scalar goes on to the end of the text: no colon ends a word, and no
word begins with a number sign. -/
def goesOn : Text → Bool
  | [] => true
  | c :: t =>
    (c ≠ ':'.toNat || (t ≠ [] && t.head? ≠ some 32)) &&
      (c ≠ 32 || t.head? ≠ some '#'.toNat) && goesOn t

/-- **A plain scalar that ends with its line**, and is the whole of the text. -/
structure Plain (t : Text) : Prop where
  chars : ∀ c ∈ t, isPlainChar c
  starts : startsPlain t
  goes : goesOn t
  ends : t.getLast? ≠ some 32

instance (t : Text) : Decidable (Plain t) :=
  decidable_of_iff ((∀ c ∈ t, isPlainChar c) ∧ startsPlain t ∧ goesOn t ∧ t.getLast? ≠ some 32)
    ⟨fun ⟨h, h', h'', h'''⟩ => ⟨h, h', h'', h'''⟩, fun ⟨h, h', h'', h'''⟩ => ⟨h, h', h'', h'''⟩⟩

/-- The characters numbers and dates are written with. -/
def isNumeral (c : ℕ) : Bool :=
  ('0'.toNat ≤ c && c ≤ '9'.toNat) || ('a'.toNat ≤ c && c ≤ 'f'.toNat) ||
    ('A'.toNat ≤ c && c ≤ 'F'.toNat) || c ∈ lit "xtTZ_.:+- "

/-- The scalars that stand for a truth value, for nothing, for a float without a digit, or
for a merge or a default. -/
def reserved : List Text :=
  ["yes", "Yes", "YES", "no", "No", "NO", "true", "True", "TRUE", "false", "False", "FALSE",
    "on", "On", "ON", "off", "Off", "OFF", "~", "null", "Null", "NULL", ".inf", ".Inf", ".INF",
    "+.inf", "+.Inf", "+.INF", "-.inf", "-.Inf", "-.INF", ".nan", ".NaN", ".NAN", "<<", "="].map
    lit

/-- A text that is a string to YAML: no number and no date is written like this. -/
def IsString (t : Text) : Prop := (∃ c ∈ t, isNumeral c = false) ∧ t ∉ reserved

instance (t : Text) : Decidable (IsString t) :=
  inferInstanceAs (Decidable ((∃ c ∈ t, isNumeral c = false) ∧ t ∉ reserved))

/-- A key: a word of small letters, hyphens and underscores. A longer one than this is no simple
key. -/
structure IsKey (k : Text) : Prop where
  short : k.length ≤ 1024
  chars : ∀ c ∈ k, ('a'.toNat ≤ c ∧ c ≤ 'z'.toNat) ∨ c ∈ lit "-_"
  starts : ∃ c ∈ k.head?, 'a'.toNat ≤ c ∧ c ≤ 'z'.toNat
  word : k ∉ reserved

instance (k : Text) : Decidable (IsKey k) :=
  decidable_of_iff (k.length ≤ 1024 ∧
      (∀ c ∈ k, ('a'.toNat ≤ c ∧ c ≤ 'z'.toNat) ∨ c ∈ lit "-_") ∧
      (∃ c ∈ k.head?, 'a'.toNat ≤ c ∧ c ≤ 'z'.toNat) ∧ k ∉ reserved)
    ⟨fun h => ⟨h.1, h.2.1, h.2.2.1, h.2.2.2⟩, fun h => ⟨h.short, h.chars, h.starts, h.word⟩⟩

variable {ε : Type*}

/-- **What a YAML loader does** with lines that each hold a whole node, `node` saying which
texts are one and `scalar` what it makes of one. Whatever is no plain scalar, such as a
collection in brackets, is the loader's business. -/
structure Loader (load scalar : Text → Except ε Value) (node : Text → Prop) : Prop where
  /-- A document of such lines is a mapping, with the keys in their order. -/
  block : ∀ kvs : List (Text × Text), kvs ≠ [] → (kvs.map Prod.fst).Nodup →
    (∀ kv ∈ kvs, IsKey kv.1 ∧ node kv.2) → load (joinLines (kvs.map line)) =
      (kvs.mapM fun kv => (scalar kv.2).map fun v => (Value.str kv.1, v)).map Value.dict
  oneLine : ∀ t, node t → OneLine t
  /-- Plain scalars are such nodes. -/
  plain : ∀ t, Plain t → node t
  /-- What is no number, no date and no word of YAML is a string. -/
  string : ∀ t, Plain t → IsString t → scalar t = .ok (.str t)

/-! ### Which texts are plain -/

theorem Plain.ne_nil {t : Text} (h : Plain t) : t ≠ [] := by
  rintro rfl
  exact absurd h.starts (by decide)

theorem isPlainChar_of_le {c : ℕ} (h : 0x20 ≤ c) (h' : c ≤ 0x7e) : isPlainChar c := by
  simp [isPlainChar, h, h']

/-- A plain scalar has no line break of any kind in it. -/
theorem Plain.oneLine {t : Text} (h : Plain t) : OneLine t := by
  intro c hc
  have hp := h.chars c hc
  simp only [isPlainChar, Bool.or_eq_true, Bool.and_eq_true, decide_eq_true_eq] at hp
  simp only [isLineBreak, Bool.or_eq_false_iff, Bool.and_eq_false_iff, decide_eq_false_iff_not]
  omega

theorem IsKey.range {k : Text} (h : IsKey k) {c : ℕ} (hc : c ∈ k) :
    c = 45 ∨ c = 95 ∨ (97 ≤ c ∧ c ≤ 122) := by
  have hlit : ∀ c ∈ lit "-_", c = 45 ∨ c = 95 := by decide
  rcases h.chars c hc with hc | hc
  · exact .inr (.inr hc)
  · exact (hlit c hc).imp_right .inl

theorem IsKey.oneLine {k : Text} (h : IsKey k) : OneLine k := by
  intro c hc
  have := h.range hc
  simp only [isLineBreak, Bool.or_eq_false_iff, Bool.and_eq_false_iff, decide_eq_false_iff_not]
  omega

/-- A text without spaces that does not end in a colon goes on to its end. -/
theorem goesOn_of_no_space {t : Text} (hspace : 32 ∉ t) (hlast : t.getLast? ≠ some ':'.toNat) :
    goesOn t := by
  induction t with
  | nil => rfl
  | cons c t ih =>
    rw [List.mem_cons, not_or] at hspace
    have hnext : t.head? ≠ some 32 := fun h => hspace.2 (List.mem_of_mem_head? h)
    simp only [goesOn, Bool.and_eq_true, Bool.or_eq_true, decide_eq_true_eq]
    rcases eq_or_ne t [] with rfl | hne
    · exact ⟨⟨.inl (by simpa using hlast), .inl (Ne.symm hspace.1)⟩, rfl⟩
    · refine ⟨⟨.inr ⟨hne, hnext⟩, .inl (Ne.symm hspace.1)⟩, ih hspace.2 ?_⟩
      rwa [List.getLast?_cons_of_ne_nil hne] at hlast

/-- **A text of visible ASCII characters is plain** unless it begins with an indicator or
ends in a colon. -/
theorem plain_of_visible {t : Text} (hchars : ∀ c ∈ t, 33 ≤ c ∧ c ≤ 126)
    (hhead : ∃ c ∈ t.head?, c ∉ indicators ∧ c ∉ mappingIndicators)
    (hlast : t.getLast? ≠ some ':'.toNat) : Plain t where
  chars c hc := isPlainChar_of_le (by have := hchars c hc; omega) (hchars c hc).2
  starts := by
    obtain ⟨c, hc, hind, hmap⟩ := hhead
    obtain ⟨t, rfl⟩ := List.head?_eq_some_iff.mp hc
    have h32 : c ≠ 32 := by
      have := hchars c List.mem_cons_self
      omega
    simp [startsPlain, h32, hind, hmap]
  goes := goesOn_of_no_space (fun h => absurd (hchars 32 h).1 (by omega)) hlast
  ends h := absurd (hchars 32 (List.mem_of_getLast? h)).1 (by omega)

/-! ### A loader of such lines -/

/-- A line falls apart into its key and its value. -/
theorem cut_line {k : Text} (hk : IsKey k) (v : Text) :
    cut (lit ": ") (line (k, v)) = some (k, v) := by
  have hcolon : 58 ∉ k := fun hc => by
    have := hk.range hc
    omega
  have hsep : lit ": " = 58 :: [32] := by decide
  rw [line, List.append_assoc, hsep, cut_append hcolon, cut_self]
  simp

/-- The loader that makes of every line with a colon a key and a scalar. -/
def loadLines (scalar : Text → Except ε Value) (malformed : ε) (t : Text) : Except ε Value :=
  ((splitlines t).mapM fun l =>
    match cut (lit ": ") l with
    | some (k, v) => (scalar v).map fun x => (Value.str k, x)
    | none => .error malformed).map .dict

/-- It does what a YAML loader does with them. -/
theorem loader_loadLines {scalar : Text → Except ε Value} (malformed : ε)
    (hstr : ∀ t, Plain t → IsString t → scalar t = .ok (.str t)) :
    Loader (loadLines scalar malformed) scalar Plain where
  block kvs hne hnd h := by
    have hlines : splitlines (joinLines (kvs.map line)) = kvs.map line := by
      refine splitlines_joinLines fun l hl => ?_
      obtain ⟨kv, hkv, rfl⟩ := List.mem_map.mp hl
      refine ⟨?_, by simp [line, lit]⟩
      rw [line, oneLine_append, oneLine_append]
      exact ⟨⟨(h kv hkv).1.oneLine, by decide⟩, (h kv hkv).2.oneLine⟩
    rw [loadLines, hlines]
    congr 1
    clear hne hnd hlines
    induction kvs with
    | nil => rfl
    | cons kv kvs ih =>
      have hcut := cut_line (h kv List.mem_cons_self).1 kv.2
      rw [List.map_cons, List.mapM_cons, List.mapM_cons, hcut,
        ih fun kv hkv => h kv (List.mem_cons_of_mem _ hkv)]
  oneLine _ h := h.oneLine
  plain _ h := h
  string := hstr

end Yaml

end OtamanBridge
