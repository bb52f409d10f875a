import Mathlib.Algebra.GroupWithZero.Nat
import Mathlib.Data.List.DropRight
import Mathlib.Data.List.Infix
import Mathlib.Data.List.Lex
import Mathlib.Data.Nat.Basic
import Mathlib.Tactic.Common

/-!
# Text as Python handles it

The `str` methods a program that reads and writes lines of text is made of, on lists of
code points: what `strip` takes away, where `splitlines` cuts, what `partition` finds,
what `lower` does, what a file opened in text mode turns line endings into. Each follows
the documented behaviour of its Python counterpart. A `str` may hold lone surrogates,
which no encoding takes, so a code point is a number and not a `Char`.

The lemmas are the ones a round trip asks for: when a method leaves a text alone, what
it cannot leave behind, and what it does on a text put together from known pieces.
-/

namespace OtamanBridge

namespace Py

/-- A `str`: its code points. -/
abbrev Text := List ℕ

instance : LawfulBEq Text := inferInstance

/-- A string of the source. -/
def lit (s : String) : Text := s.toList.map Char.toNat

theorem lit_injective : Function.Injective lit := by
  intro s t h
  have hchars : Function.Injective Char.toNat := fun c d hcd => Char.ext (UInt32.toNat_inj.mp hcd)
  exact String.toList_inj.mp (List.map_injective_iff.mpr hchars h)

/-! ### White space -/

/-- `str.isspace` of one character. -/
def isSpace (c : ℕ) : Bool :=
  (9 ≤ c && c ≤ 13) || (28 ≤ c && c ≤ 32) || c = 0x85 || c = 0xa0 || c = 0x1680 ||
    (0x2000 ≤ c && c ≤ 0x200a) || c = 0x2028 || c = 0x2029 || c = 0x202f || c = 0x205f ||
    c = 0x3000

/-- `str.lstrip`. -/
def lstrip (t : Text) : Text := t.dropWhile isSpace

/-- `str.rstrip`. -/
def rstrip (t : Text) : Text := t.rdropWhile isSpace

/-- `str.strip`. -/
def strip (t : Text) : Text := rstrip (lstrip t)

/-! ### Case -/

/-- `str.lower` of one character, as far as ASCII is concerned: the two characters
outside ASCII whose lower case has an ASCII letter in it are the Kelvin sign and the
dotted capital I. -/
def lowerChar (c : ℕ) : Text :=
  if 'A'.toNat ≤ c ∧ c ≤ 'Z'.toNat then [c + 32]
  else if c = 0x212a then lit "k"
  else if c = 0x130 then ['i'.toNat, 0x307]
  else [c]

/-- `str.lower`. -/
def lower (t : Text) : Text := t.flatMap lowerChar

/-! ### Joining -/

/-- What a text that was joined is made of. -/
theorem mem_intercalate {sep : Text} {ls : List Text} {c : ℕ} (h : c ∈ sep.intercalate ls) :
    c ∈ sep ∨ ∃ l ∈ ls, c ∈ l := by
  induction ls with
  | nil => simp at h
  | cons l ls ih =>
    rcases eq_or_ne ls [] with rfl | hls
    · exact .inr ⟨l, List.mem_cons_self, by simpa using h⟩
    · rw [List.intercalate_cons_of_ne_nil hls, List.mem_append, List.mem_append] at h
      rcases h with (h | h) | h
      · exact .inr ⟨l, List.mem_cons_self, h⟩
      · exact .inl h
      · refine (ih h).imp_right ?_
        rintro ⟨l', hl', hc⟩
        exact ⟨l', List.mem_cons_of_mem _ hl', hc⟩

/-! ### Values -/

/-- What `json.loads` and `yaml.safe_load` build. A float is kept as its `repr`, and a date
of YAML as the name of its type and its `str`. -/
inductive Value
  | none
  | bool (b : Bool)
  | int (n : ℤ)
  | float (repr : String)
  | date (type str : Text)
  | str (t : Text)
  | list (items : List Value)
  | dict (items : List (Value × Value))

namespace Value

/-- `bool(v)`. -/
def truthy : Value → Bool
  | .none => false
  | .bool b => b
  | .int n => n ≠ 0
  | .float repr => repr ≠ "0.0" && repr ≠ "-0.0"
  | .date .. => true
  | .str t => t ≠ []
  | .list items => !items.isEmpty
  | .dict items => !items.isEmpty

/-- `type(v).__name__`. -/
def typeName : Value → Text
  | .none => lit "NoneType"
  | .bool _ => lit "bool"
  | .int _ => lit "int"
  | .float _ => lit "float"
  | .date type _ => type
  | .str _ => lit "str"
  | .list _ => lit "list"
  | .dict _ => lit "dict"

/-- `d.get(key)` for a string key. -/
def get (v : Value) (key : String) : Option Value :=
  match v with
  | .dict items => items.findSome? fun
    | (.str k, x) => if k = lit key then some x else Option.none
    | _ => Option.none
  | _ => Option.none

end Value

end Py

end OtamanBridge
