import OtamanBridge.Lib.PyText

/-!
# Pieces of regular expressions

A regular expression whose pieces exclude each other's characters is matched from left to
right without going back: a repetition takes all it can, since what comes next could take
none of it. Each piece is a function from a text to what is left of it, or nothing where the
piece does not match.
-/

namespace OtamanBridge

namespace Py

/-- A piece of the expression that is this text. -/
def afterLit (s : Text) (t : Text) : Option Text :=
  if s.isPrefixOf t then some (t.drop s.length) else none

/-- `[...]+`: what it takes, and what is left. -/
def span1 (p : ℕ → Bool) (t : Text) : Option (Text × Text) :=
  if t.takeWhile p = [] then none else some (t.takeWhile p, t.dropWhile p)

/-- `[...]+`, where only the rest is of interest. -/
def skip1 (p : ℕ → Bool) (t : Text) : Option Text := (span1 p t).map Prod.snd

/-- The first of each ten digits that `\d` takes, as of Unicode 14. -/
def digitRuns : List ℕ :=
  [0x30, 0x660, 0x6f0, 0x7c0, 0x966, 0x9e6, 0xa66, 0xae6, 0xb66, 0xbe6, 0xc66, 0xce6, 0xd66,
    0xde6, 0xe50, 0xed0, 0xf20, 0x1040, 0x1090, 0x17e0, 0x1810, 0x1946, 0x19d0, 0x1a80, 0x1a90,
    0x1b50, 0x1bb0, 0x1c40, 0x1c50, 0xa620, 0xa8d0, 0xa900, 0xa9d0, 0xa9f0, 0xaa50, 0xabf0,
    0xff10, 0x104a0, 0x10d30, 0x11066, 0x110f0, 0x11136, 0x111d0, 0x112f0, 0x11450, 0x114d0,
    0x11650, 0x116c0, 0x11730, 0x118e0, 0x11950, 0x11c50, 0x11d50, 0x11da0, 0x16a60, 0x16ac0,
    0x16b50, 0x1d7ce, 0x1d7d8, 0x1d7e2, 0x1d7ec, 0x1d7f6, 0x1e140, 0x1e2f0, 0x1e950, 0x1fbf0]

/-- `\d`. -/
def isDigit (c : ℕ) : Bool := digitRuns.any fun d => d ≤ c && c < d + 10

theorem span1_eq_some {p : ℕ → Bool} {t a b : Text} (h : span1 p t = some (a, b)) :
    t = a ++ b ∧ a ≠ [] ∧ a = t.takeWhile p ∧ b = t.dropWhile p := by
  unfold span1 at h
  split_ifs at h with hne
  obtain ⟨rfl, rfl⟩ := Prod.mk.inj (Option.some.inj h)
  exact ⟨List.takeWhile_append_dropWhile.symm, hne, rfl, rfl⟩

end Py

end OtamanBridge
