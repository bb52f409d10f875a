import OtamanBridge.Lib.PyText

/-!
# UTF-8

How a text becomes bytes and bytes a text, as Python's strict codec does it: a surrogate has
no encoding, and bytes are a text only if they are the shortest encoding of each of its code
points. Bytes are numbers, and one above 255 begins nothing.

What was encoded is decoded to the same text (`OtamanBridge.Utf8.decode_encode`).
-/

namespace OtamanBridge

namespace Utf8

open Py

/-! ### Encoding -/

/-- The bytes of a code point. -/
def encodeChar (c : ℕ) : Option (List ℕ) :=
  if c < 0x80 then some [c]
  else if c < 0x800 then some [0xc0 + c / 64, 0x80 + c % 64]
  else if 0xd800 ≤ c ∧ c ≤ 0xdfff then none
  else if c < 0x10000 then some [0xe0 + c / 4096, 0x80 + c / 64 % 64, 0x80 + c % 64]
  else if c < 0x110000 then
    some [0xf0 + c / 262144, 0x80 + c / 4096 % 64, 0x80 + c / 64 % 64, 0x80 + c % 64]
  else none

/-- `str.encode("utf-8")`. -/
def encode : Text → Option (List ℕ)
  | [] => some []
  | c :: t => (encodeChar c).bind fun bs => (encode t).map (bs ++ ·)

/-! ### Decoding -/

/-- A continuation byte. -/
def isTail (b : ℕ) : Bool := 0x80 ≤ b && b ≤ 0xbf

/-- `bytes.decode("utf-8")`. -/
def decode : List ℕ → Option Text
  | [] => some []
  | a :: t =>
    if a < 0x80 then (decode t).map (a :: ·)
    else
      match t with
      | [] => none
      | b :: t =>
        if 0xc2 ≤ a && a ≤ 0xdf && isTail b then
          (decode t).map ((64 * (a - 0xc0) + (b - 0x80)) :: ·)
        else
          match t with
          | [] => none
          | c :: t =>
            let wide := 4096 * (a - 0xe0) + 64 * (b - 0x80) + (c - 0x80)
            if 0xe0 ≤ a && a ≤ 0xef && isTail b && isTail c && 0x800 ≤ wide &&
                !(0xd800 ≤ wide && wide ≤ 0xdfff) then
              (decode t).map (wide :: ·)
            else
              match t with
              | [] => none
              | d :: t =>
                let wider := 262144 * (a - 0xf0) + 4096 * (b - 0x80) + 64 * (c - 0x80) + (d - 0x80)
                if 0xf0 ≤ a && isTail b && isTail c && isTail d && 0x10000 ≤ wider &&
                    wider < 0x110000 then
                  (decode t).map (wider :: ·)
                else none

/-! ### The two of them -/

theorem encode_append (s t : Text) :
    encode (s ++ t) = (encode s).bind fun bs => (encode t).map (bs ++ ·) := by
  induction s with
  | nil => simp [encode]
  | cons c s ih =>
    rw [List.cons_append, encode, encode, ih]
    rcases encodeChar c with _ | bs
    · rfl
    · rcases encode s with _ | bs'
      · rfl
      · rcases encode t with _ | bs'' <;> simp

/-- ASCII is its own encoding. -/
theorem encode_of_ascii {t : Text} (h : ∀ c ∈ t, c < 0x80) : encode t = some t := by
  induction t with
  | nil => rfl
  | cons c t ih =>
    rw [encode, encodeChar, if_pos (h c List.mem_cons_self),
      ih fun d hd => h d (List.mem_cons_of_mem _ hd)]
    rfl

/-- A character outside ASCII has two bytes or more. -/
theorem length_encodeChar {c : ℕ} {bs : List ℕ} (h : encodeChar c = some bs) :
    1 ≤ bs.length ∧ (bs.length = 1 → c < 0x80) := by
  unfold encodeChar at h
  split_ifs at h with h1
  · obtain rfl := Option.some.inj h
    exact ⟨le_refl _, fun _ => h1⟩
  all_goals
    obtain rfl := Option.some.inj h
    exact ⟨by simp, by simp⟩

/-- **There are as many bytes as characters** exactly if these are all ASCII, and more
otherwise. -/
theorem length_encode {t : Text} {bs : List ℕ} (h : encode t = some bs) :
    t.length ≤ bs.length ∧ (t.length = bs.length → ∀ c ∈ t, c < 0x80) := by
  induction t generalizing bs with
  | nil => exact ⟨Nat.zero_le _, fun _ => List.forall_mem_nil _⟩
  | cons c t ih =>
    obtain ⟨cs, hcs, hrest⟩ := Option.bind_eq_some_iff.mp h
    obtain ⟨ts, hts, rfl⟩ := Option.map_eq_some_iff.mp hrest
    obtain ⟨hpos, hone⟩ := length_encodeChar hcs
    obtain ⟨hle, hall⟩ := ih hts
    rw [List.length_cons, List.length_append]
    refine ⟨by omega, fun heq => List.forall_mem_cons.mpr ⟨hone (by omega), hall (by omega)⟩⟩

/-- The bytes of a code point are read as that code point. -/
theorem decode_encodeChar {c : ℕ} {bs : List ℕ} (h : encodeChar c = some bs) (rest : List ℕ) :
    decode (bs ++ rest) = (decode rest).map (c :: ·) := by
  unfold encodeChar at h
  split_ifs at h with h1 h2 h3 h4 h5
  · obtain rfl := Option.some.inj h
    rw [List.singleton_append, decode.eq_def]
    simp only
    rw [if_pos h1]
  · obtain rfl := Option.some.inj h
    have hvalue : 64 * (0xc0 + c / 64 - 0xc0) + (0x80 + c % 64 - 0x80) = c := by omega
    rw [List.cons_append, List.cons_append, List.nil_append, decode.eq_def]
    simp only [hvalue]
    rw [if_neg (by omega), if_pos (by simp [isTail]; omega)]
  · obtain rfl := Option.some.inj h
    have hvalue : 4096 * (0xe0 + c / 4096 - 0xe0) + 64 * (0x80 + c / 64 % 64 - 0x80) +
        (0x80 + c % 64 - 0x80) = c := by omega
    rw [List.cons_append, List.cons_append, List.cons_append, List.nil_append, decode.eq_def]
    simp only [hvalue]
    rw [if_neg (by omega), if_neg (by simp; omega), if_pos (by simp [isTail]; omega)]
  · obtain rfl := Option.some.inj h
    have hvalue : 262144 * (0xf0 + c / 262144 - 0xf0) + 4096 * (0x80 + c / 4096 % 64 - 0x80) +
        64 * (0x80 + c / 64 % 64 - 0x80) + (0x80 + c % 64 - 0x80) = c := by omega
    rw [List.cons_append, List.cons_append, List.cons_append, List.cons_append,
      List.nil_append, decode.eq_def]
    simp only [hvalue]
    rw [if_neg (by omega), if_neg (by simp; omega), if_neg (by simp; omega),
      if_pos (by simp [isTail]; omega)]

/-- **What was encoded is decoded to the same text.** -/
theorem decode_encode {t : Text} {bs : List ℕ} (h : encode t = some bs) : decode bs = some t := by
  induction t generalizing bs with
  | nil =>
    obtain rfl := Option.some.inj h
    rfl
  | cons c t ih =>
    obtain ⟨bc, hc, h⟩ := Option.bind_eq_some_iff.mp h
    obtain ⟨bt, ht, rfl⟩ := Option.map_eq_some_iff.mp h
    rw [decode_encodeChar hc, ih ht]
    rfl

end Utf8

end OtamanBridge
