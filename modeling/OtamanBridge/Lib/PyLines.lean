import OtamanBridge.Lib.PyText

/-!
# Lines, separators and escapes

A program that keeps records in text files writes lines and takes them apart again. This
module has the methods it does that with, and the facts that make such a codec a codec:
the lines of a text hold no line break; lines that hold none come back from the text they
were joined to; a separator is found where it first stands; two replacements undo two
others.
-/

namespace OtamanBridge

namespace Py

/-! ### What stripping does -/

theorem mem_of_mem_rstrip {t : Text} {c : ℕ} (h : c ∈ rstrip t) : c ∈ t :=
  (List.rdropWhile_prefix _ _).subset h

theorem mem_of_mem_strip {t : Text} {c : ℕ} (h : c ∈ strip t) : c ∈ t :=
  (List.dropWhile_suffix _).subset (mem_of_mem_rstrip h)

theorem rstrip_append_of_space {t s : Text} (hs : ∀ c ∈ s, isSpace c) :
    rstrip (t ++ s) = rstrip t := by
  induction s using List.reverseRecOn with
  | nil => rw [List.append_nil]
  | append_singleton s c ih =>
    rw [rstrip, ← List.append_assoc, List.rdropWhile_concat_pos _ _ _ (hs c (by simp))]
    exact ih fun c hc => hs c (List.mem_append_left _ hc)

/-- A text is what `rstrip` leaves of it and white space. -/
theorem exists_rstrip_append (t : Text) : ∃ s, t = rstrip t ++ s ∧ ∀ c ∈ s, isSpace c := by
  refine ⟨t.rtakeWhile isSpace, ?_, fun c hc => List.mem_rtakeWhile_imp hc⟩
  rw [rstrip, List.rdropWhile, List.rtakeWhile, ← List.reverse_append,
    List.takeWhile_append_dropWhile, List.reverse_reverse]

theorem rstrip_rstrip (t : Text) : rstrip (rstrip t) = rstrip t :=
  List.rdropWhile_idempotent ..

/-- A text with a visible character at either end is left alone. -/
theorem strip_eq_self {t : Text} (hhead : ∀ c ∈ t.head?, isSpace c = false)
    (hlast : ∀ c ∈ t.getLast?, isSpace c = false) : strip t = t := by
  have hl : lstrip t = t := by
    cases t with
    | nil => rfl
    | cons c t => simp [lstrip, hhead c (by simp)]
  rw [strip, hl, rstrip, List.rdropWhile_eq_self_iff]
  intro hne
  simp [hlast (t.getLast hne) (List.getLast?_eq_some_getLast hne)]

/-- And only such a text is. -/
theorem isSpace_ends_of_strip {t : Text} (h : strip t = t) :
    (∀ c ∈ t.head?, isSpace c = false) ∧ ∀ c ∈ t.getLast?, isSpace c = false := by
  have hl : lstrip t = t := by
    have hle : t.length ≤ (lstrip t).length := by
      rw [← congrArg List.length h]
      exact (List.rdropWhile_prefix _ _).length_le
    exact (List.dropWhile_suffix _).eq_of_length_le hle
  have hr : rstrip t = t := by rw [← h, strip, rstrip_rstrip]
  constructor
  · intro c hc
    cases t with
    | nil => exact absurd hc (by simp)
    | cons d t =>
      obtain rfl : d = c := by simpa using hc
      have hpos := List.dropWhile_eq_self_iff.mp hl (by simp)
      simpa using hpos
  · intro c hc
    obtain ⟨hne, rfl⟩ := List.mem_getLast?_eq_getLast hc
    simpa using List.rdropWhile_eq_self_iff.mp hr hne

theorem strip_space_cons {c : ℕ} (hc : isSpace c) (t : Text) : strip (c :: t) = strip t := by
  simp [strip, lstrip, hc]

/-! ### Lines -/

/-- The characters `str.splitlines` cuts at. -/
def isLineBreak (c : ℕ) : Bool :=
  (10 ≤ c && c ≤ 13) || (28 ≤ c && c ≤ 30) || c = 0x85 || c = 0x2028 || c = 0x2029

/-- A text in one line. -/
def OneLine (t : Text) : Prop := ∀ c ∈ t, isLineBreak c = false

instance (t : Text) : Decidable (OneLine t) := inferInstanceAs (Decidable (∀ c ∈ t, _))

/-- `str.splitlines`. -/
def splitlines : Text → List Text
  | [] => []
  | 13 :: 10 :: t => [] :: splitlines t
  | c :: t =>
    if isLineBreak c then [] :: splitlines t
    else
      match splitlines t with
      | [] => [[c]]
      | l :: ls => (c :: l) :: ls

theorem isSpace_of_isLineBreak {c : ℕ} (h : isLineBreak c) : isSpace c := by
  simp only [isLineBreak, isSpace, Bool.or_eq_true, Bool.and_eq_true, decide_eq_true_eq] at h ⊢
  omega

theorem OneLine.mono {s t : Text} (h : OneLine t) (hst : ∀ c ∈ s, c ∈ t) : OneLine s :=
  fun c hc => h c (hst c hc)

theorem oneLine_append {s t : Text} : OneLine (s ++ t) ↔ OneLine s ∧ OneLine t := by
  simp only [OneLine, List.mem_append, or_imp, forall_and]

theorem splitlines_cons {c : ℕ} (hc : isLineBreak c = false) (t : Text) :
    splitlines (c :: t) = match splitlines t with
      | [] => [[c]]
      | l :: ls => (c :: l) :: ls := by
  rw [splitlines, if_neg (by simp [hc])]
  rintro t' rfl -
  simp [isLineBreak] at hc

theorem splitlines_ne_nil (c : ℕ) (t : Text) : splitlines (c :: t) ≠ [] := by
  unfold splitlines
  split
  · exact absurd ‹_› (List.cons_ne_nil c t)
  · exact List.cons_ne_nil _ _
  · split_ifs
    · exact List.cons_ne_nil _ _
    · split <;> exact List.cons_ne_nil _ _

/-- **The lines of a text hold no line break.** -/
theorem oneLine_of_mem_splitlines {t l : Text} (h : l ∈ splitlines t) : OneLine l := by
  induction t using splitlines.induct generalizing l with
  | case1 => simp [splitlines] at h
  | case2 t ih =>
    rw [splitlines, List.mem_cons] at h
    rcases h with rfl | h
    · simp [OneLine]
    · exact ih h
  | case3 c t hne hc ih =>
    rw [splitlines.eq_3 _ _ hne, if_pos hc, List.mem_cons] at h
    rcases h with rfl | h
    · simp [OneLine]
    · exact ih h
  | case4 c t hne hc hnil ih =>
    rw [splitlines_cons (by simpa using hc), hnil, List.mem_singleton] at h
    subst h
    simpa [OneLine] using hc
  | case5 c t hne hc l₀ ls hcons ih =>
    rw [splitlines_cons (by simpa using hc), hcons, List.mem_cons] at h
    rcases h with rfl | h
    · intro d hd
      rcases List.mem_cons.mp hd with rfl | hd
      · simpa using hc
      · exact ih (l := l₀) (by rw [hcons]; exact List.mem_cons_self) d hd
    · exact ih (by rw [hcons]; exact List.mem_cons_of_mem _ h)

/-- A line that ends in a newline is cut off. -/
theorem splitlines_append_newline {l : Text} (h : OneLine l) (t : Text) :
    splitlines (l ++ 10 :: t) = l :: splitlines t := by
  induction l with
  | nil => simp [splitlines, isLineBreak]
  | cons c l ih =>
    rw [List.cons_append, splitlines_cons (h c List.mem_cons_self),
      ih fun c hc => h c (List.mem_cons_of_mem _ hc)]

theorem splitlines_of_oneLine {l : Text} (h : OneLine l) (hne : l ≠ []) :
    splitlines l = [l] := by
  induction l with
  | nil => exact absurd rfl hne
  | cons c l ih =>
    rw [splitlines_cons (h c List.mem_cons_self)]
    rcases eq_or_ne l [] with rfl | hl
    · simp [splitlines]
    · rw [ih (fun c hc => h c (List.mem_cons_of_mem _ hc)) hl]

/-- `"\n".join(lines)`. -/
def joinLines (ls : List Text) : Text := [10].intercalate ls

theorem joinLines_cons {l : Text} {ls : List Text} (h : ls ≠ []) :
    joinLines (l :: ls) = l ++ 10 :: joinLines ls := by
  cases ls with
  | nil => exact absurd rfl h
  | cons l' ls => simp [joinLines, List.intercalate, List.intersperse]

theorem joinLines_append {ls ms : List Text} (hl : ls ≠ []) (hm : ms ≠ []) :
    joinLines (ls ++ ms) = joinLines ls ++ 10 :: joinLines ms := by
  induction ls with
  | nil => exact absurd rfl hl
  | cons l ls ih =>
    rcases eq_or_ne ls [] with rfl | hls
    · rw [List.singleton_append, joinLines_cons hm]
      simp [joinLines, List.intercalate]
    · rw [List.cons_append, joinLines_cons (by simp [hls]), ih hls, joinLines_cons hls]
      simp

/-- The length of joined lines: each of them, and a newline between two. -/
theorem length_joinLines {ls : List Text} (h : ls ≠ []) :
    (joinLines ls).length + 1 = (ls.map fun l => l.length + 1).sum := by
  induction ls with
  | nil => exact absurd rfl h
  | cons l ls ih =>
    rcases eq_or_ne ls [] with rfl | hls
    · simp [joinLines, List.intercalate]
    · have ih' := ih hls
      rw [joinLines_cons hls]
      simp only [List.length_append, List.length_cons, List.map_cons, List.sum_cons]
      omega

theorem mem_joinLines {ls : List Text} {c : ℕ} (h : c ∈ joinLines ls) :
    c = 10 ∨ ∃ l ∈ ls, c ∈ l :=
  (mem_intercalate h).imp_left List.mem_singleton.mp

/-- **Lines come back** from the text they are joined to. -/
theorem splitlines_joinLines {ls : List Text} (h : ∀ l ∈ ls, OneLine l ∧ l ≠ []) :
    splitlines (joinLines ls) = ls := by
  induction ls with
  | nil => simp [joinLines, List.intercalate, splitlines]
  | cons l ls ih =>
    have hl := h l List.mem_cons_self
    have hls := ih fun l hl => h l (List.mem_cons_of_mem _ hl)
    rcases eq_or_ne ls [] with rfl | hne
    · simpa [joinLines, List.intercalate] using splitlines_of_oneLine hl.1 hl.2
    · rw [joinLines_cons hne, splitlines_append_newline hl.1, hls]

/-- The newline after the last line begins no other. -/
theorem splitlines_joinLines_newline {ls : List Text} (hne : ls ≠ []) (h : ∀ l ∈ ls, OneLine l) :
    splitlines (joinLines ls ++ [10]) = ls := by
  induction ls with
  | nil => exact absurd rfl hne
  | cons l ls ih =>
    have hl := h l List.mem_cons_self
    rcases eq_or_ne ls [] with rfl | hls
    · have hjoin : joinLines [l] = l := by simp [joinLines, List.intercalate]
      rw [hjoin, splitlines_append_newline hl]
      rfl
    · rw [joinLines_cons hls, List.append_assoc, List.cons_append, splitlines_append_newline hl,
        ih hls fun l hl => h l (List.mem_cons_of_mem _ hl)]

/-- The lines of a text that is cut at a newline: those of its two parts, and an empty one if
the first part ends with a line break. -/
theorem splitlines_append_cons {s : Text} (h : 13 ∉ s) (t : Text) :
    ∃ e, (e = [] ∨ e = [[]]) ∧ splitlines (s ++ 10 :: t) = splitlines s ++ e ++ splitlines t := by
  induction s with
  | nil => exact ⟨[[]], .inr rfl, by simp [splitlines, isLineBreak]⟩
  | cons c s ih =>
    rw [List.mem_cons, not_or] at h
    obtain ⟨e, he, heq⟩ := ih h.2
    have hcons : ∀ u, isLineBreak c = true → splitlines (c :: u) = [] :: splitlines u := by
      intro u hc
      rw [splitlines, if_pos hc]
      rintro u' rfl
      exact absurd rfl h.1
    rcases Bool.eq_false_or_eq_true (isLineBreak c) with hc | hc
    · refine ⟨e, he, ?_⟩
      rw [List.cons_append, hcons _ hc, hcons _ hc, heq]
      rfl
    · rw [List.cons_append, splitlines_cons hc, splitlines_cons hc]
      rcases s with _ | ⟨d, s⟩
      · exact ⟨[], .inl rfl, by simp [splitlines, isLineBreak]⟩
      · refine ⟨e, he, ?_⟩
        rcases hs : splitlines (d :: s) with _ | ⟨l, ls⟩
        · exact absurd hs (splitlines_ne_nil d s)
        · rw [heq, hs]
          rfl

/-- Joined lines are the lines of the text. -/
theorem splitOn_joinLines {ls : List Text} (h : ∀ l ∈ ls, 10 ∉ l) (hne : ls ≠ []) :
    (joinLines ls).splitOn 10 = ls :=
  List.splitOn_intercalate 10 h hne

theorem joinLines_splitOn (t : Text) : joinLines (t.splitOn 10) = t :=
  List.intercalate_splitOn 10

/-- A text without newlines begins the first line. -/
theorem exists_splitOn_append {s : Text} (h : 10 ∉ s) (t : Text) :
    ∃ l ls, (s ++ t).splitOn 10 = (s ++ l) :: ls := by
  induction s with
  | nil => exact List.exists_cons_of_ne_nil (List.splitOn_ne_nil 10 t)
  | cons c s ih =>
    rw [List.mem_cons, not_or] at h
    obtain ⟨l, ls, hsplit⟩ := ih h.2
    have hc : (c == 10) = false := by simpa using Ne.symm h.1
    refine ⟨l, ls, ?_⟩
    rw [List.cons_append, List.splitOn_cons_eq_if_modifyHead, hc, hsplit, if_neg (by decide)]
    rfl

/-- A character of a line is one of the text, and no newline. -/
theorem mem_of_mem_splitOn {t l : Text} {c : ℕ} (hl : l ∈ t.splitOn 10) (hc : c ∈ l) :
    c ∈ t ∧ c ≠ 10 := by
  induction t generalizing l with
  | nil =>
    rw [List.splitOn_nil, List.mem_singleton] at hl
    rw [hl] at hc
    exact absurd hc List.not_mem_nil
  | cons x t ih =>
    rw [List.splitOn_cons_eq_if_modifyHead] at hl
    split_ifs at hl with hx
    · rcases List.mem_cons.mp hl with rfl | hl
      · exact absurd hc List.not_mem_nil
      · exact (ih hl hc).imp_left (List.mem_cons_of_mem x)
    · obtain ⟨l₀, ls, hsplit⟩ := List.exists_cons_of_ne_nil (List.splitOn_ne_nil 10 t)
      rw [hsplit] at hl ih
      rcases List.mem_cons.mp hl with rfl | hl
      · rcases List.mem_cons.mp hc with rfl | hc
        · exact ⟨List.mem_cons_self, by simpa using hx⟩
        · exact (ih List.mem_cons_self hc).imp_left (List.mem_cons_of_mem x)
      · exact (ih (List.mem_cons_of_mem _ hl) hc).imp_left (List.mem_cons_of_mem x)

/-! ### Line endings of files in text mode -/

/-- What reading in text mode makes of a text: a carriage return, with or without a
newline after it, is a newline. -/
def universalNewlines : Text → Text
  | [] => []
  | 13 :: 10 :: t => 10 :: universalNewlines t
  | c :: t => (if c = 13 then 10 else c) :: universalNewlines t

theorem universalNewlines_cons {c : ℕ} (hc : c ≠ 13) (t : Text) :
    universalNewlines (c :: t) = c :: universalNewlines t := by
  rw [universalNewlines, if_neg hc]
  rintro t' rfl
  exact absurd rfl hc

theorem universalNewlines_append {s : Text} (h : 13 ∉ s) (t : Text) :
    universalNewlines (s ++ t) = s ++ universalNewlines t := by
  induction s with
  | nil => rfl
  | cons c s ih =>
    rw [List.mem_cons, not_or] at h
    rw [List.cons_append, universalNewlines_cons (Ne.symm h.1), ih h.2, List.cons_append]

theorem universalNewlines_eq_self {t : Text} (h : 13 ∉ t) : universalNewlines t = t := by
  simpa [universalNewlines] using universalNewlines_append h []

/-- No carriage return is read in text mode. -/
theorem carriageReturn_not_mem_universalNewlines (t : Text) : 13 ∉ universalNewlines t := by
  induction t using universalNewlines.induct with
  | case1 => simp [universalNewlines]
  | case2 t ih => simpa [universalNewlines] using ih
  | case3 c t hne ih =>
    rw [universalNewlines.eq_3 _ _ hne, List.mem_cons, not_or]
    refine ⟨?_, ih⟩
    split_ifs with hc
    · decide
    · exact Ne.symm hc

/-! ### The first place of a separator -/

/-- What stands before and after the first place of `sep`, if it has one: `str.find`
and the slices around it, and `str.partition`. -/
def cut (sep : Text) : Text → Option (Text × Text)
  | [] => if sep = [] then some ([], []) else none
  | c :: t =>
    if sep.isPrefixOf (c :: t) then some ([], (c :: t).drop sep.length)
    else (cut sep t).map fun (a, b) => (c :: a, b)

theorem cut_self {sep : Text} (t : Text) : cut sep (sep ++ t) = some ([], t) := by
  rcases h : sep ++ t with _ | ⟨c, t'⟩
  · obtain ⟨rfl, rfl⟩ := List.append_eq_nil_iff.mp h
    simp [cut]
  · have hp : sep.isPrefixOf (c :: t') := by
      rw [← h]
      simp
    rw [cut, if_pos hp, ← h]
    simp

/-- A text without the first character of the separator is passed over. -/
theorem cut_append {d : ℕ} {sep s : Text} (h : d ∉ s) (t : Text) :
    cut (d :: sep) (s ++ t) = (cut (d :: sep) t).map fun (a, b) => (s ++ a, b) := by
  induction s with
  | nil => simp
  | cons c s ih =>
    rw [List.mem_cons, not_or] at h
    rw [List.cons_append, cut, if_neg (by simp [List.isPrefixOf, h.1]), ih h.2, Option.map_map]
    rfl

/-- So is the first character of the separator, where the rest does not follow. -/
theorem cut_cons {d e : ℕ} {sep : Text} {t : Text} (h : t.head? ≠ some e) :
    cut (d :: e :: sep) (d :: t) = (cut (d :: e :: sep) t).map fun (a, b) => (d :: a, b) := by
  rw [cut, if_neg]
  cases t with
  | nil => simp [List.isPrefixOf]
  | cons c t =>
    have hc : e ≠ c := by
      rintro rfl
      exact h rfl
    simp [List.isPrefixOf, hc]

/-- What a text is cut into is the text. -/
theorem eq_of_cut {sep t a b : Text} (h : cut sep t = some (a, b)) : t = a ++ sep ++ b := by
  induction t generalizing a with
  | nil =>
    unfold cut at h
    split_ifs at h with hs
    obtain ⟨rfl, rfl⟩ := Prod.mk.inj (Option.some.inj h)
    simp [hs]
  | cons c t ih =>
    unfold cut at h
    split_ifs at h with hp
    · obtain ⟨rfl, rfl⟩ := Prod.mk.inj (Option.some.inj h)
      rw [List.nil_append]
      exact (List.prefix_iff_eq_append.mp (List.isPrefixOf_iff_prefix.mp hp)).symm
    · obtain ⟨⟨a', b'⟩, hcut, hab⟩ := Option.map_eq_some_iff.mp h
      obtain ⟨rfl, rfl⟩ := Prod.mk.inj hab
      rw [ih hcut]
      simp

/-- A text in which the separator does not stand is passed over, up to a character that the
separator does not have. -/
theorem cut_append_of_not_infix {sep s : Text} {c : ℕ} (hsep : sep ≠ []) (h : ¬sep <:+: s)
    (hc : c ∉ sep) (t : Text) :
    cut sep (s ++ c :: t) = (cut sep (c :: t)).map fun (a, b) => (s ++ a, b) := by
  induction s with
  | nil => simp
  | cons x s ih =>
    have hno : ¬sep.isPrefixOf (x :: (s ++ c :: t)) := by
      rw [List.isPrefixOf_iff_prefix]
      intro hp
      have hs : x :: s <+: x :: (s ++ c :: t) := ⟨c :: t, rfl⟩
      rcases List.prefix_or_prefix_of_prefix hp hs with hin | ⟨r, rfl⟩
      · exact h hin.isInfix
      · -- the separator would reach the character after the text
        rcases r with _ | ⟨d, r⟩
        · exact h (by simp)
        · rw [List.cons_append, List.prefix_cons_inj, List.prefix_append_right_inj,
            List.cons_prefix_cons] at hp
          exact hc (by simp [hp.1])
    rw [List.cons_append, cut, if_neg hno,
      ih fun hin => h (hin.trans (List.suffix_cons x s).isInfix), Option.map_map]
    rfl

/-- The cut is made where the separator first stands. -/
theorem exists_cut (sep s t : Text) :
    ∃ a b, cut sep (s ++ (sep ++ t)) = some (a, b) ∧ a.length ≤ s.length := by
  induction s with
  | nil => exact ⟨[], t, cut_self t, le_rfl⟩
  | cons x s ih =>
    obtain ⟨a, b, hcut, hle⟩ := ih
    rw [List.cons_append, cut]
    split_ifs
    · exact ⟨[], _, rfl, Nat.zero_le _⟩
    · exact ⟨x :: a, b, by rw [hcut]; rfl, Nat.succ_le_succ hle⟩

/-- **A fence line is found** after lines that do not start like it. -/
theorem cut_joinLines {e : ℕ} {sep : Text} {ls : List Text} (hne : ls ≠ [])
    (h : ∀ l ∈ ls, 10 ∉ l ∧ l ≠ [] ∧ l.head? ≠ some e) (t : Text) :
    cut (10 :: e :: sep) (joinLines ls ++ (10 :: e :: sep ++ t)) = some (joinLines ls, t) := by
  induction ls with
  | nil => exact absurd rfl hne
  | cons l ls ih =>
    have hl := h l List.mem_cons_self
    rcases eq_or_ne ls [] with rfl | hls
    · have hj : joinLines [l] = l := by simp [joinLines, List.intercalate]
      rw [hj, cut_append hl.1, cut_self]
      simp
    · have ih' := ih hls fun l hl => h l (List.mem_cons_of_mem _ hl)
      -- the newline before the next line does not start the fence
      have hhead : (joinLines ls ++ (10 :: e :: sep ++ t)).head? ≠ some e := by
        obtain ⟨l', ls', rfl⟩ := List.exists_cons_of_ne_nil hls
        have hl' := h l' (by simp)
        obtain ⟨c, l'', rfl⟩ := List.exists_cons_of_ne_nil hl'.2.1
        rcases eq_or_ne ls' [] with rfl | hls'
        · simpa [joinLines, List.intercalate] using hl'.2.2
        · rw [joinLines_cons hls']
          simpa using hl'.2.2
      rw [joinLines_cons hls, List.append_assoc, cut_append hl.1, List.cons_append,
        cut_cons hhead, ih']
      simp

theorem prefix_of_prefix_append {sep s t : Text} {c : ℕ} (h : sep <+: s ++ c :: t) (hc : c ∉ sep) :
    sep <+: s := by
  rcases List.prefix_or_prefix_of_prefix h (List.prefix_append s (c :: t)) with hs | ⟨r, rfl⟩
  · exact hs
  · rcases r with _ | ⟨d, r⟩
    · simp
    · rw [List.prefix_append_right_inj, List.cons_prefix_cons] at h
      exact absurd (by simp [h.1]) hc

/-- **A fence line is found** after lines, of which only the first may start like it. -/
theorem cut_joinLines_of_not_prefix {sep : Text} (hsep : 10 ∉ sep) {l : Text} {ls : List Text}
    (h : ∀ x ∈ l :: ls, 10 ∉ x) (hfence : ∀ x ∈ ls, ¬sep <+: x) (t : Text) :
    cut (10 :: sep) (joinLines (l :: ls) ++ 10 :: (sep ++ t)) = some (joinLines (l :: ls), t) := by
  induction ls generalizing l with
  | nil =>
    have hj : joinLines [l] = l := by simp [joinLines, List.intercalate]
    rw [hj, cut_append (h l List.mem_cons_self), ← List.cons_append, cut_self]
    simp
  | cons l' ls ih =>
    have hl := h l List.mem_cons_self
    have ih' := ih (fun x hx => h x (List.mem_cons_of_mem l hx))
      fun x hx => hfence x (List.mem_cons_of_mem l' hx)
    have hno : ¬(10 :: sep).isPrefixOf (10 :: (joinLines (l' :: ls) ++ 10 :: (sep ++ t))) := by
      rw [List.isPrefixOf_iff_prefix, List.prefix_cons_inj]
      intro hp
      refine hfence l' List.mem_cons_self ?_
      rcases eq_or_ne ls [] with rfl | hls
      · have hj : joinLines [l'] = l' := by simp [joinLines, List.intercalate]
        rw [hj] at hp
        exact prefix_of_prefix_append hp hsep
      · rw [joinLines_cons hls, List.append_assoc] at hp
        exact prefix_of_prefix_append hp hsep
    rw [joinLines_cons (List.cons_ne_nil l' ls), List.append_assoc, cut_append hl,
      List.cons_append, cut, if_neg hno, ih']
    simp

/-- Where there is such a line after the first, the text is cut; so where there is none, it
is not. -/
theorem exists_prefix_of_cut {sep a b l : Text} {ls : List Text} (h : ∀ x ∈ l :: ls, 10 ∉ x)
    (hcut : cut (10 :: sep) (joinLines (l :: ls)) = some (a, b)) (hsep : 10 ∉ sep) :
    ∃ x ∈ ls, sep <+: x := by
  have heq := eq_of_cut hcut
  have hlines : l :: ls = a.splitOn 10 ++ (sep ++ b).splitOn 10 := by
    rw [← splitOn_joinLines h (List.cons_ne_nil l ls), heq, List.append_assoc, List.cons_append,
      List.splitOn_append_cons_self]
  obtain ⟨x, xs, hx⟩ := List.exists_cons_of_ne_nil (List.splitOn_ne_nil 10 (sep ++ b))
  obtain ⟨y, ys, hy⟩ := List.exists_cons_of_ne_nil (List.splitOn_ne_nil 10 a)
  refine ⟨x, ?_, ?_⟩
  · rw [hy, hx, List.cons_append] at hlines
    rw [(List.cons.inj hlines).2]
    exact List.mem_append_right _ List.mem_cons_self
  · have hjoin := joinLines_splitOn (sep ++ b)
    rw [hx] at hjoin
    rcases eq_or_ne xs [] with rfl | hxs
    · have hj : joinLines [x] = x := by simp [joinLines, List.intercalate]
      rw [hj] at hjoin
      exact ⟨b, hjoin.symm⟩
    · rw [joinLines_cons hxs] at hjoin
      exact prefix_of_prefix_append ⟨b, hjoin.symm⟩ hsep

/-! ### Replacing and undoing it -/

/-- `str.replace`, of one character. -/
def replaceChar (a : ℕ) (new : Text) (t : Text) : Text :=
  t.flatMap fun c => if c = a then new else [c]

/-- `str.replace`, of two characters. -/
def replacePair (a b : ℕ) (new : Text) : Text → Text
  | x :: y :: t => if x = a ∧ y = b then new ++ replacePair a b new t
      else x :: replacePair a b new (y :: t)
  | t => t

theorem replacePair_pair (a b : ℕ) (new t : Text) :
    replacePair a b new (a :: b :: t) = new ++ replacePair a b new t := by
  simp [replacePair]

theorem replacePair_cons {a b x : ℕ} (new : Text) {t : Text} (h : x = a → t.head? ≠ some b) :
    replacePair a b new (x :: t) = x :: replacePair a b new t := by
  cases t with
  | nil => simp [replacePair]
  | cons y t =>
    rw [replacePair, if_neg]
    rintro ⟨rfl, rfl⟩
    exact h rfl rfl

/-- `s.replace("\\", "\\\\").replace('"', '\\"')`. -/
def escape (t : Text) : Text :=
  replaceChar '"'.toNat (lit "\\\"") (replaceChar '\\'.toNat (lit "\\\\") t)

/-- `s.replace('\\"', '"').replace("\\\\", "\\")`. -/
def unescape (t : Text) : Text :=
  replacePair '\\'.toNat '\\'.toNat (lit "\\") (replacePair '\\'.toNat '"'.toNat (lit "\"") t)

@[simp] theorem escape_nil : escape [] = [] := rfl

theorem escape_cons (c : ℕ) (t : Text) :
    escape (c :: t) = (if c = 92 then [92, 92] else if c = 34 then [92, 34] else [c]) ++
      escape t := by
  have hb : '\\'.toNat = 92 := rfl
  have hq : '"'.toNat = 34 := rfl
  have hbb : lit "\\\\" = [92, 92] := by decide
  have hbq : lit "\\\"" = [92, 34] := by decide
  unfold escape replaceChar
  rw [hb, hq, hbb, hbq]
  split_ifs with h h'
  · simp [h]
  · simp [h']
  · simp [h, h']

theorem head?_escape_ne (t : Text) : (escape t).head? ≠ some 34 := by
  cases t with
  | nil => simp
  | cons c t =>
    rw [escape_cons]
    split_ifs with h h'
    · simp
    · simp
    · simpa using h'

/-- Unescaping the quotes leaves every backslash doubled. -/
theorem replacePair_escape (t : Text) :
    replacePair 92 34 [34] (escape t) = replaceChar 92 [92, 92] t := by
  induction t with
  | nil => simp [replacePair, replaceChar]
  | cons c t ih =>
    have hcons : replaceChar 92 [92, 92] (c :: t) =
        (if c = 92 then [92, 92] else [c]) ++ replaceChar 92 [92, 92] t := rfl
    rw [escape_cons, hcons, ← ih]
    split_ifs with h h'
    · -- two backslashes: no quote follows the second one
      simp only [List.cons_append, List.nil_append]
      rw [replacePair_cons _ (by simp), replacePair_cons _ fun _ => head?_escape_ne t]
    · simp only [List.cons_append, List.nil_append]
      rw [replacePair_pair, h']
      rfl
    · simp only [List.cons_append, List.nil_append]
      exact replacePair_cons _ fun hc => absurd hc h

theorem replacePair_double (t : Text) :
    replacePair 92 92 [92] (replaceChar 92 [92, 92] t) = t := by
  induction t with
  | nil => simp [replacePair, replaceChar]
  | cons c t ih =>
    have hcons : replaceChar 92 [92, 92] (c :: t) =
        (if c = 92 then [92, 92] else [c]) ++ replaceChar 92 [92, 92] t := rfl
    rw [hcons]
    split_ifs with h
    · simp only [List.cons_append, List.nil_append]
      rw [replacePair_pair, ih, h]
      rfl
    · simp only [List.cons_append, List.nil_append]
      rw [replacePair_cons _ fun hc => absurd hc h, ih]

/-- **Escaping is undone exactly.** -/
theorem unescape_escape (t : Text) : unescape (escape t) = t := by
  have hb : '\\'.toNat = 92 := rfl
  have hq : '"'.toNat = 34 := rfl
  have hlb : lit "\\" = [92] := by decide
  have hlq : lit "\"" = [34] := by decide
  rw [unescape, hb, hq, hlb, hlq, replacePair_escape, replacePair_double]

/-- Replacing a pair adds nothing that is not in the replacement. -/
theorem mem_replacePair {a b c : ℕ} {new t : Text} (h : c ∈ replacePair a b new t) :
    c ∈ new ∨ c ∈ t := by
  induction t using replacePair.induct a b with
  | case1 x y t hxy ih =>
    rw [replacePair, if_pos hxy, List.mem_append] at h
    rcases h with h | h
    · exact .inl h
    · exact (ih h).imp_right fun h => List.mem_cons_of_mem _ (List.mem_cons_of_mem _ h)
  | case2 x y t hxy ih =>
    rw [replacePair, if_neg hxy, List.mem_cons] at h
    rcases h with rfl | h
    · exact .inr List.mem_cons_self
    · exact (ih h).imp_right (List.mem_cons_of_mem _)
  | case3 t hne =>
    refine .inr ?_
    rcases t with _ | ⟨x, _ | ⟨y, t⟩⟩
    · simp [replacePair] at h
    · simpa [replacePair] using h
    · exact absurd rfl (hne x y t)

theorem mem_unescape {t : Text} {c : ℕ} (h : c ∈ unescape t) : c = 34 ∨ c = 92 ∨ c ∈ t := by
  have hlb : lit "\\" = [92] := by decide
  have hlq : lit "\"" = [34] := by decide
  rw [unescape, hlb, hlq] at h
  rcases mem_replacePair h with h | h
  · exact .inr (.inl (List.mem_singleton.mp h))
  · exact (mem_replacePair h).imp List.mem_singleton.mp .inr

theorem mem_escape {t : Text} {c : ℕ} (h : c ∈ escape t) : c = 34 ∨ c = 92 ∨ c ∈ t := by
  induction t with
  | nil => simp at h
  | cons d t ih =>
    rw [escape_cons, List.mem_append] at h
    rcases h with h | h
    · split_ifs at h <;> simp at h <;> simp [h]
      tauto
    · rcases ih h with h | h | h
      · exact .inl h
      · exact .inr (.inl h)
      · exact .inr (.inr (List.mem_cons_of_mem _ h))

end Py

end OtamanBridge
