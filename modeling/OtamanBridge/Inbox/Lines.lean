import OtamanBridge.Inbox.Store

/-!
# A message file line by line

`_read_message` cuts the header at the first line that starts like the closing fence, and takes
the lines of it apart at every line separator there is. `_atomic_set_read_at` looks at the
whole text, and at newlines alone: it replaces the first line that starts with `read_at:`.

So marking a message makes it read, and changes nothing else of it, exactly if this line is in
the header, says nothing else, and is the last one there to say so
(`OtamanBridge.Inbox.readMessage_markedText_iff`).
-/

namespace OtamanBridge

namespace Inbox

open Py Posix

/-! ### Lines -/

/-- The lines of a file in text mode. -/
def linesOf (raw : Text) : List Text := (universalNewlines raw).splitOn 10

/-- A line that ends the header. -/
def isFence (l : Text) : Bool := (lit "---").isPrefixOf l

/-- A line that `_atomic_set_read_at` replaces, if it is the first. -/
def isReadAt (l : Text) : Bool := (lit "read_at:").isPrefixOf l

/-- The lines of the header. -/
def headLines (raw : Text) : List Text := (linesOf raw).tail.takeWhile fun l => !isFence l

/-- The closing fence and the lines after it. -/
def restLines (raw : Text) : List Text := (linesOf raw).tail.dropWhile fun l => !isFence l

/-- The text of a file after `_atomic_set_read_at`. -/
def markedText (when raw : Text) : Text := joinLines (setReadAtLine when (linesOf raw))

/-- The fields of header lines. -/
def fieldsIn (ls : List Text) : Fields := readFields (joinLines ls)

/-- The body after the header. -/
def bodyIn (ls : List Text) : Text := lstripNewlines ((joinLines ls).drop 3)

/-- **A file that `write_message` has made**, whatever was done with it since: an opening fence,
and a line with the id. -/
def Headed (raw : Text) : Prop := ∃ l ls, linesOf raw = lit "---" :: (lit "id: " ++ l) :: ls

/-- A line of the file has a line of the header in it that gives this field. -/
def Says (key l : Text) : Prop :=
  ∃ piece ∈ splitlines l, ∃ k v, cut (lit ":") piece = some (k, v) ∧ strip k = key

instance (key l : Text) : Decidable (Says key l) :=
  decidable_of_iff (∃ piece ∈ splitlines l, (cut (lit ":") piece).any fun p => strip p.1 = key)
    (exists_congr fun piece => and_congr_right fun _ => by
      rcases cut (lit ":") piece with _ | ⟨k, v⟩ <;> simp)

/-- Fields that make the same message, but for `read_at`. -/
def SameFields (fields fields' : Fields) : Prop :=
  { messageOf [] fields' [] with readAt := none } = { messageOf [] fields [] with readAt := none }

/-- **The line is the field's own**: the first line that starts with `read_at:` is in the
header; it carries nothing else of the message; and no line of the header after it gives
`read_at`. -/
def OwnLine (raw : Text) : Prop :=
  ∃ before line after, headLines raw = before ++ line :: after ∧
    (∀ l ∈ before, isReadAt l = false) ∧ isReadAt line ∧
    (∀ l ∈ after, ¬Says (lit "read_at") l) ∧
    SameFields (fieldsIn (before ++ after)) (fieldsIn (before ++ line :: after))

/-- Lines as they are in a file. -/
def AreLines (ls : List Text) : Prop := ∀ l ∈ ls, 10 ∉ l ∧ 13 ∉ l

theorem areLines_linesOf (raw : Text) : AreLines (linesOf raw) := by
  intro l hl
  refine ⟨fun hc => (mem_of_mem_splitOn hl hc).2 rfl, fun hc => ?_⟩
  exact carriageReturn_not_mem_universalNewlines raw (mem_of_mem_splitOn hl hc).1

theorem linesOf_joinLines {ls : List Text} (h : AreLines ls) (hne : ls ≠ []) :
    linesOf (joinLines ls) = ls := by
  have hcr : 13 ∉ joinLines ls := by
    intro hc
    rcases mem_joinLines hc with hc | ⟨l, hl, hc⟩
    · exact absurd hc (by decide)
    · exact (h l hl).2 hc
  rw [linesOf, universalNewlines_eq_self hcr, splitOn_joinLines (fun l hl => (h l hl).1) hne]

theorem joinLines_linesOf (raw : Text) : joinLines (linesOf raw) = universalNewlines raw :=
  joinLines_splitOn _

/-- The lines of a file that has an opening fence. -/
theorem Headed.lines {raw : Text} (h : Headed raw) :
    linesOf raw = lit "---" :: (headLines raw ++ restLines raw) := by
  obtain ⟨l, ls, h⟩ := h
  rw [headLines, restLines, h, List.tail_cons, List.takeWhile_append_dropWhile]

theorem isFence_id (l : Text) : isFence (lit "id: " ++ l) = false := rfl

/-- The header begins with the line of the id. -/
theorem Headed.head {raw : Text} (h : Headed raw) :
    ∃ l ls, headLines raw = (lit "id: " ++ l) :: ls := by
  obtain ⟨l, ls, h⟩ := h
  refine ⟨l, ls.takeWhile fun l => !isFence l, ?_⟩
  rw [headLines, h, List.tail_cons, List.takeWhile_cons_of_pos (by rw [isFence_id]; rfl)]

theorem isFence_of_mem_headLines {raw l : Text} (h : l ∈ headLines raw) : isFence l = false := by
  have := List.mem_takeWhile_imp h
  simpa using this

/-! ### Reading line by line -/

/-- A text that begins with a line begins with what this line does. -/
theorem joinLines_append_cons (s l : Text) (ls : List Text) :
    ∃ t, joinLines ((s ++ l) :: ls) = s ++ t := by
  rcases eq_or_ne ls [] with rfl | hls
  · exact ⟨l, by simp [joinLines, List.intercalate]⟩
  · exact ⟨l ++ 10 :: joinLines ls, by rw [joinLines_cons hls, List.append_assoc]⟩

/-- A file with an opening fence and the line of an id is read as it is cut after this. -/
theorem readMessage_of_cut {raw t : Text} (path : Text)
    (htext : universalNewlines raw = lit "---" ++ 10 :: (lit "id: " ++ t)) :
    readMessage path (.text raw) = (cut (lit "\n---") (lit "id: " ++ t)).elim
      (.error (.value (lit "unclosed frontmatter in " ++ path)))
      fun p => storedMessage path (readFields p.1) (lstripNewlines p.2) := by
  have hpre : (lit "---").isPrefixOf (universalNewlines raw) := by
    rw [htext, List.isPrefixOf_iff_prefix]
    exact List.prefix_append _ _
  have hdrop : (universalNewlines raw).drop 3 = 10 :: (lit "id: " ++ t) := by
    rw [htext]
    rfl
  have hstrip : lstripNewlines (10 :: (lit "id: " ++ t)) = lit "id: " ++ t := by
    have hid : lit "id: " = 105 :: lit "d: " := rfl
    simp [lstripNewlines, hid]
  simp only [readMessage]
  rw [if_neg (by simp [hpre]), hdrop, hstrip]
  split
  next hcut =>
    rw [hcut]
    rfl
  next head rest hcut =>
    rw [hcut]
    rfl

/-- **What a file is read as.** -/
theorem readMessage_of_lines {raw f l : Text} {hs bs : List Text} (path : Text)
    (hlines : linesOf raw = lit "---" :: ((lit "id: " ++ l) :: hs ++ (lit "---" ++ f) :: bs))
    (hfence : ∀ x ∈ hs, isFence x = false) :
    readMessage path (.text raw) = storedMessage path (fieldsIn ((lit "id: " ++ l) :: hs))
      (bodyIn ((lit "---" ++ f) :: bs)) := by
  have hfree : ∀ x ∈ (lit "id: " ++ l) :: hs, 10 ∉ x := by
    intro x hx
    refine (areLines_linesOf raw x ?_).1
    rw [hlines]
    exact List.mem_cons_of_mem _ (List.mem_append_left _ hx)
  have hprefix : ∀ x ∈ hs, ¬lit "---" <+: x := by
    intro x hx hp
    have := hfence x hx
    rw [isFence, List.isPrefixOf_iff_prefix.mpr hp] at this
    exact absurd this (by simp)
  obtain ⟨t, ht⟩ := joinLines_append_cons (lit "---") f bs
  obtain ⟨u, hu⟩ := joinLines_append_cons (lit "id: ") l hs
  have htext : universalNewlines raw =
      lit "---" ++ 10 :: (lit "id: " ++ (u ++ 10 :: (lit "---" ++ t))) := by
    rw [← joinLines_linesOf, hlines, joinLines_cons (by simp),
      joinLines_append (List.cons_ne_nil _ _) (List.cons_ne_nil _ _), ht, hu, List.append_assoc]
  have hcut := cut_joinLines_of_not_prefix (by decide : 10 ∉ lit "---") hfree hprefix t
  have hbody : t = (joinLines ((lit "---" ++ f) :: bs)).drop 3 := by
    rw [ht]
    rfl
  rw [hu, List.append_assoc] at hcut
  rw [readMessage_of_cut path htext, show lit "\n---" = 10 :: lit "---" from rfl, hcut,
    Option.elim_some, fieldsIn, bodyIn, ← hbody, hu]

theorem Headed.ne_nil {raw : Text} (h : Headed raw) : raw ≠ [] := by
  rintro rfl
  obtain ⟨l, ls, h⟩ := h
  exact absurd (congrArg List.length h) (by simp [linesOf, universalNewlines])

/-- A file that is read has a closing fence. -/
theorem Headed.fence {raw path : Text} {m : StoredMessage} (h : Headed raw)
    (hread : readMessage path (.text raw) = .ok m) :
    ∃ f bs, restLines raw = (lit "---" ++ f) :: bs := by
  obtain ⟨l, hs, hhead⟩ := h.head
  rcases hrest : restLines raw with _ | ⟨f, bs⟩
  · have hlines := h.lines
    rw [hrest, List.append_nil, hhead] at hlines
    have hfree : ∀ x ∈ (lit "id: " ++ l) :: hs, 10 ∉ x := by
      intro x hx
      refine (areLines_linesOf raw x ?_).1
      rw [hlines]
      exact List.mem_cons_of_mem _ hx
    obtain ⟨u, hu⟩ := joinLines_append_cons (lit "id: ") l hs
    have htext : universalNewlines raw = lit "---" ++ 10 :: (lit "id: " ++ u) := by
      rw [← joinLines_linesOf, hlines, joinLines_cons (by simp), hu]
    rw [readMessage_of_cut path htext] at hread
    rcases hcut : cut (lit "\n---") (lit "id: " ++ u) with _ | ⟨a, b⟩
    · rw [hcut] at hread
      exact absurd hread (by simp)
    · -- the place where it is cut is the beginning of a line
      rw [← hu, show lit "\n---" = 10 :: lit "---" from rfl] at hcut
      obtain ⟨x, hx, hp⟩ := exists_prefix_of_cut hfree hcut (by decide)
      have hin : x ∈ headLines raw := by
        rw [hhead]
        exact List.mem_cons_of_mem _ hx
      have hfence := isFence_of_mem_headLines hin
      rw [isFence, List.isPrefixOf_iff_prefix.mpr hp] at hfence
      exact absurd hfence (by simp)
  · have hf : isFence f := by
      have := List.head?_dropWhile_not (fun l => !isFence l) (linesOf raw).tail
      rw [show (linesOf raw).tail.dropWhile (fun l => !isFence l) = f :: bs from hrest] at this
      simpa using this
    obtain ⟨f', rfl⟩ := List.isPrefixOf_iff_prefix.mp hf
    exact ⟨f', bs, rfl⟩

/-! ### The fields, line by line -/

/-- The fields after more lines of a file, each taken apart at every separator in it. -/
def fieldsFrom (fields : Fields) (ls : List Text) : Fields :=
  (ls.flatMap splitlines).foldl readLine fields

theorem fieldsFrom_append (fields : Fields) (ls ls' : List Text) :
    fieldsFrom fields (ls ++ ls') = fieldsFrom (fieldsFrom fields ls) ls' := by
  rw [fieldsFrom, List.flatMap_append, List.foldl_append]
  rfl

theorem fieldsFrom_cons (fields : Fields) (l : Text) (ls : List Text) :
    fieldsFrom fields (l :: ls) = fieldsFrom (fieldsFrom fields [l]) ls :=
  fieldsFrom_append fields [l] ls

theorem readLine_nil (fields : Fields) : readLine fields [] = fields := rfl

/-- **The fields of header lines** are read line by line: an empty line says nothing. -/
theorem fieldsIn_eq {ls : List Text} (h : AreLines ls) :
    fieldsIn ls = fieldsFrom (fun _ => none) ls := by
  rw [fieldsIn, readFields, fieldsFrom]
  generalize (fun _ => none : Fields) = fields
  induction ls generalizing fields with
  | nil => rfl
  | cons l ls ih =>
    have ih' := fun fields => ih (fun x hx => h x (List.mem_cons_of_mem l hx)) fields
    rcases eq_or_ne ls [] with rfl | hls
    · simp [joinLines, List.intercalate]
    · obtain ⟨e, he, heq⟩ := splitlines_append_cons (h l List.mem_cons_self).2 (joinLines ls)
      rw [joinLines_cons hls, heq, List.foldl_append, List.foldl_append, ih', List.flatMap_cons,
        List.foldl_append]
      rcases he with rfl | rfl
      · rfl
      · rw [List.foldl_cons, readLine_nil, List.foldl_nil]

variable {fields fields' : Fields} {key : Text} {ls : List Text}

/-- A piece of a line that does not give a field leaves it as it is. -/
theorem readLine_of_not {piece : Text}
    (h : ¬∃ k v, cut (lit ":") piece = some (k, v) ∧ strip k = key) :
    readLine fields piece key = fields key := by
  rcases hcut : cut (lit ":") piece with _ | ⟨k, v⟩
  · simp only [readLine, hcut]
  · have hne : key ≠ strip k := fun heq => h ⟨k, v, hcut, heq.symm⟩
    simp only [readLine, hcut]
    exact Function.update_of_ne hne _ _

/-- What a piece makes of a field depends on this field alone. -/
theorem readLine_congr {piece : Text} (h : fields key = fields' key) :
    readLine fields piece key = readLine fields' piece key := by
  rcases hcut : cut (lit ":") piece with _ | ⟨k, v⟩
  · simp only [readLine, hcut]
    exact h
  · simp only [readLine, hcut]
    rcases eq_or_ne key (strip k) with rfl | hne
    · rw [Function.update_self, Function.update_self]
    · rw [Function.update_of_ne hne, Function.update_of_ne hne, h]

/-- A piece that gives a field does so whatever it was. -/
theorem readLine_of_said {piece k v : Text} (hcut : cut (lit ":") piece = some (k, v)) :
    readLine fields piece (strip k) = readLine fields' piece (strip k) := by
  simp only [readLine, hcut, Function.update_self]

theorem foldl_readLine_congr {pieces : List Text} (h : fields key = fields' key) :
    pieces.foldl readLine fields key = pieces.foldl readLine fields' key := by
  induction pieces generalizing fields fields' with
  | nil => exact h
  | cons piece pieces ih => exact ih (readLine_congr h)

/-- Lines that do not give a field leave it as it is. -/
theorem fieldsFrom_of_unsaid (h : ∀ l ∈ ls, ¬Says key l) :
    fieldsFrom fields ls key = fields key := by
  rw [fieldsFrom]
  have hpieces : ∀ piece ∈ ls.flatMap splitlines,
      ¬∃ k v, cut (lit ":") piece = some (k, v) ∧ strip k = key := by
    intro piece hpiece hsays
    obtain ⟨l, hl, hp⟩ := List.mem_flatMap.mp hpiece
    exact h l hl ⟨piece, hp, hsays⟩
  generalize ls.flatMap splitlines = pieces at hpieces ⊢
  induction pieces generalizing fields with
  | nil => rfl
  | cons piece pieces ih =>
    rw [List.foldl_cons, ih fun x hx => hpieces x (List.mem_cons_of_mem piece hx),
      readLine_of_not (hpieces piece List.mem_cons_self)]

theorem fieldsFrom_congr (h : fields key = fields' key) :
    fieldsFrom fields ls key = fieldsFrom fields' ls key :=
  foldl_readLine_congr h

/-- Lines that give a field do so whatever it was. -/
theorem fieldsFrom_of_said (h : ∃ l ∈ ls, Says key l) :
    fieldsFrom fields ls key = fieldsFrom fields' ls key := by
  obtain ⟨l, hl, piece, hpiece, k, v, hcut, rfl⟩ := h
  obtain ⟨before, after, hsplit⟩ :=
    List.append_of_mem (List.mem_flatMap.mpr ⟨l, hl, hpiece⟩)
  rw [fieldsFrom, fieldsFrom, hsplit, List.foldl_append, List.foldl_append, List.foldl_cons,
    List.foldl_cons]
  exact foldl_readLine_congr (readLine_of_said hcut)

/-! ### Marking line by line -/

/-- A time that is read back as it is written. -/
structure Stamp (when : Text) : Prop where
  oneLine : OneLine when
  value : readValue (strip (32 :: when)) = some when

/-- The line that `_atomic_set_read_at` writes. -/
theorem fieldsFrom_readAt {when : Text} (h : Stamp when) (fields : Fields) :
    fieldsFrom fields [lit "read_at: " ++ when] =
      Function.update fields (lit "read_at") (some when) := by
  have hkey : KeyOk (lit "read_at") := by
    unfold KeyOk
    decide
  have hline : lit "read_at: " ++ when = headerLine (lit "read_at", when) := by
    rw [headerLine, show lit "read_at: " = lit "read_at" ++ lit ": " from rfl]
  have hone : OneLine (lit "read_at: " ++ when) :=
    oneLine_append.mpr ⟨by decide, h.oneLine⟩
  rw [fieldsFrom, List.flatMap_cons, List.flatMap_nil, List.append_nil,
    splitlines_of_oneLine hone (by simp [lit]), List.foldl_cons, List.foldl_nil, hline,
    readLine_headerLine fields hkey, h.value]

theorem setReadAtLine_append {when : Text} {before : List Text}
    (h : ∀ l ∈ before, isReadAt l = false) (ls : List Text) :
    setReadAtLine when (before ++ ls) = before ++ setReadAtLine when ls := by
  induction before with
  | nil => rfl
  | cons l before ih =>
    have hl : (lit "read_at:").isPrefixOf l = false := h l List.mem_cons_self
    rw [List.cons_append, setReadAtLine, if_neg (by simp [hl]),
      ih fun x hx => h x (List.mem_cons_of_mem l hx), List.cons_append]

theorem setReadAtLine_cons {when l : Text} (h : isReadAt l) (ls : List Text) :
    setReadAtLine when (l :: ls) = (lit "read_at: " ++ when) :: ls :=
  if_pos h

theorem areLines_setReadAtLine {when : Text} (hwhen : OneLine when) (h : AreLines ls) :
    AreLines (setReadAtLine when ls) := by
  have hbreak : ∀ c, isLineBreak c → c ∉ lit "read_at: " ++ when := by
    intro c hc hin
    have hone : OneLine (lit "read_at: " ++ when) := oneLine_append.mpr ⟨by decide, hwhen⟩
    rw [hone c hin] at hc
    exact absurd hc (by simp)
  induction ls with
  | nil => exact fun _ hl => absurd hl List.not_mem_nil
  | cons l ls ih =>
    have ih' := ih fun x hx => h x (List.mem_cons_of_mem l hx)
    intro x hx
    rw [setReadAtLine] at hx
    split_ifs at hx with hl
    · rcases List.mem_cons.mp hx with rfl | hx
      · exact ⟨hbreak 10 (by decide), hbreak 13 (by decide)⟩
      · exact h x (List.mem_cons_of_mem l hx)
    · rcases List.mem_cons.mp hx with rfl | hx
      · exact h x List.mem_cons_self
      · exact ih' x hx

theorem setReadAtLine_ne_nil {when : Text} (h : ls ≠ []) : setReadAtLine when ls ≠ [] := by
  obtain ⟨l, ls, rfl⟩ := List.exists_cons_of_ne_nil h
  rw [setReadAtLine]
  split_ifs <;> exact List.cons_ne_nil _ _

/-- **The lines of a marked file.** -/
theorem linesOf_markedText {when raw : Text} (hwhen : OneLine when) :
    linesOf (markedText when raw) = setReadAtLine when (linesOf raw) :=
  linesOf_joinLines (areLines_setReadAtLine hwhen (areLines_linesOf raw))
    (setReadAtLine_ne_nil (List.splitOn_ne_nil 10 _))

theorem setReadAtLine_setReadAtLine (when when' : Text) (ls : List Text) :
    setReadAtLine when' (setReadAtLine when ls) = setReadAtLine when' ls := by
  induction ls with
  | nil => rfl
  | cons l ls ih =>
    rw [setReadAtLine]
    split_ifs with hl
    · have hnew : isReadAt (lit "read_at: " ++ when) := rfl
      rw [setReadAtLine_cons hnew, setReadAtLine_cons hl]
    · rw [setReadAtLine, if_neg hl, ih, setReadAtLine, if_neg hl]

/-- **Marking again** writes over the same line. -/
theorem markedText_markedText {when raw : Text} (hwhen : OneLine when) (when' : Text) :
    markedText when' (markedText when raw) = markedText when' raw := by
  rw [markedText, linesOf_markedText hwhen, setReadAtLine_setReadAtLine, markedText]

/-- Times of one length make texts of one length. -/
theorem length_markedText {when when' : Text} (h : when.length = when'.length) (raw : Text) :
    (markedText when raw).length = (markedText when' raw).length := by
  have hlines : ∀ ls : List Text, ((setReadAtLine when ls).map fun l => l.length + 1) =
      (setReadAtLine when' ls).map fun l => l.length + 1 := by
    intro ls
    induction ls with
    | nil => rfl
    | cons l ls ih =>
      rw [setReadAtLine, setReadAtLine]
      split_ifs
      · rw [List.map_cons, List.map_cons, List.length_append, List.length_append, h]
      · rw [List.map_cons, List.map_cons, ih]
  have hne : ∀ w, setReadAtLine w (linesOf raw) ≠ [] :=
    fun w => setReadAtLine_ne_nil (List.splitOn_ne_nil 10 _)
  have hlen := length_joinLines (hne when)
  have hlen' := length_joinLines (hne when')
  rw [hlines] at hlen
  rw [markedText, markedText]
  omega

/-- A marked text is one in text mode. -/
theorem universalNewlines_markedText {when raw : Text} (hwhen : OneLine when) :
    universalNewlines (markedText when raw) = markedText when raw := by
  rw [← joinLines_linesOf, linesOf_markedText hwhen, markedText]

/-- What is read of a file is its text in text mode. -/
theorem readMessage_congr {raw raw' : Text} (h : universalNewlines raw = universalNewlines raw')
    (path : Text) : readMessage path (.text raw) = readMessage path (.text raw') := by
  simp only [readMessage, h]

/-- A file stays what `write_message` has made. -/
theorem Headed.marked {raw when : Text} (h : Headed raw) (hwhen : OneLine when) :
    Headed (markedText when raw) := by
  obtain ⟨l, ls, hlines⟩ := h
  refine ⟨l, setReadAtLine when ls, ?_⟩
  rw [linesOf_markedText hwhen, hlines]
  rfl

/-! ### What becomes of the message -/

theorem SameFields.symm (h : SameFields fields fields') : SameFields fields' fields := Eq.symm h

theorem SameFields.trans {fields'' : Fields} (h : SameFields fields fields')
    (h' : SameFields fields' fields'') : SameFields fields fields'' :=
  Eq.trans h' h

/-- Fields that differ in `read_at` alone. -/
theorem sameFields_of_ne (h : ∀ k ≠ lit "read_at", fields k = fields' k) :
    SameFields fields fields' := by
  have hother : ∀ w : String, lit w ≠ lit "read_at" → fields (lit w) = fields' (lit w) :=
    fun w hw => h _ hw
  simp only [SameFields, messageOf, Fields.getOr, hother "id" (by decide),
    hother "from_user" (by decide), hother "from_email" (by decide), hother "to_user" (by decide),
    hother "subject" (by decide), hother "sent_at" (by decide), hother "in_reply_to" (by decide),
    hother "priority" (by decide), hother "type" (by decide)]

theorem has_iff (fields : Fields) (key : Text) :
    fields.has key ↔ (fields key).getD [] ≠ [] := by
  rw [Fields.has]
  rcases fields key with _ | v
  · simp
  · simp

/-- **Fields that are alike make the same message**, but for `read_at`. -/
theorem storedMessage_of_sameFields {path body : Text} {m : StoredMessage}
    (h : SameFields fields fields') (hstored : storedMessage path fields' body = .ok m) :
    storedMessage path fields body = .ok { m with readAt := fields (lit "read_at") } := by
  obtain ⟨hhas, rfl⟩ := storedMessage_eq_ok.mp hstored
  simp only [SameFields, messageOf, StoredMessage.mk.injEq, and_true, true_and] at h
  obtain ⟨hid, hfrom, hemail, hto, hsubject, hsent, hreply, hpriority, htype⟩ := h
  refine storedMessage_eq_ok.mpr ⟨fun r hr => ?_, ?_⟩
  · have hr' := hhas r hr
    rw [has_iff] at hr' ⊢
    simp only [required, List.map_cons, List.map_nil, List.mem_cons, List.not_mem_nil,
      or_false] at hr
    rcases hr with rfl | rfl | rfl | rfl | rfl
    · rwa [← hid]
    · rwa [← hfrom]
    · rwa [← hto]
    · rwa [← hsubject]
    · rwa [← hsent]
  · simp only [messageOf, hid, hfrom, hemail, hto, hsubject, hsent, hreply, hpriority, htype]

/-- Messages that differ in `read_at` alone have fields that are alike. -/
theorem sameFields_of_storedMessage {path body : Text} {m m' : StoredMessage}
    (hstored : storedMessage path fields body = .ok m)
    (hstored' : storedMessage path fields' body = .ok m')
    (h : { m with readAt := none } = { m' with readAt := none }) : SameFields fields fields' := by
  obtain ⟨-, rfl⟩ := storedMessage_eq_ok.mp hstored
  obtain ⟨-, rfl⟩ := storedMessage_eq_ok.mp hstored'
  simp only [SameFields, messageOf, StoredMessage.mk.injEq, and_true, true_and] at h ⊢
  obtain ⟨hid, hfrom, hemail, hto, hsubject, hsent, hreply, hpriority, htype⟩ := h
  exact ⟨hid.symm, hfrom.symm, hemail.symm, hto.symm, hsubject.symm, hsent.symm, hreply.symm,
    hpriority.symm, htype.symm⟩

variable {raw when path : Text} {m : StoredMessage}

/-- **A marked file**, whose first line that starts with `read_at:` is in the header. -/
theorem readMessage_markedText (hraw : Headed raw) (hread : readMessage path (.text raw) = .ok m)
    (hwhen : Stamp when) {before after : List Text} {line : Text}
    (hsplit : headLines raw = before ++ line :: after)
    (hbefore : ∀ l ∈ before, isReadAt l = false) (hline : isReadAt line) :
    ∃ body, storedMessage path (fieldsIn (before ++ line :: after)) body = .ok m ∧
      readMessage path (.text (markedText when raw)) = storedMessage path (fieldsFrom
        (Function.update (fieldsIn before) (lit "read_at") (some when)) after) body := by
  obtain ⟨f, bs, hrest⟩ := hraw.fence hread
  obtain ⟨l, hs, hhead⟩ := hraw.head
  have hlines := hraw.lines
  rw [hrest] at hlines
  -- the line of the id is not the one that is replaced
  obtain ⟨before, rfl⟩ : ∃ tail, before = (lit "id: " ++ l) :: tail := by
    rw [hhead] at hsplit
    rcases before with _ | ⟨x, before⟩
    · rw [← (List.cons.inj hsplit).1] at hline
      exact absurd hline (by simp [isReadAt, lit])
    · exact ⟨before, by rw [(List.cons.inj hsplit).1]⟩
  have hfence : ∀ x ∈ headLines raw, isFence x = false := fun x => isFence_of_mem_headLines
  rw [hsplit] at hlines hfence
  have hare := areLines_linesOf raw
  have hmarked : linesOf (markedText when raw) = lit "---" :: ((lit "id: " ++ l) ::
      (before ++ (lit "read_at: " ++ when) :: after) ++ (lit "---" ++ f) :: bs) := by
    have hfirst : ∀ x ∈ lit "---" :: (lit "id: " ++ l) :: before, isReadAt x = false := by
      rintro x hx
      rcases List.mem_cons.mp hx with rfl | hx
      · rfl
      · exact hbefore x hx
    have hall : linesOf raw = (lit "---" :: (lit "id: " ++ l) :: before) ++
        line :: (after ++ (lit "---" ++ f) :: bs) := by
      rw [hlines]
      simp
    rw [linesOf_markedText hwhen.oneLine, hall, setReadAtLine_append hfirst,
      setReadAtLine_cons hline]
    simp
  have hsub : AreLines ((lit "id: " ++ l) :: before ++ line :: after) := by
    intro x hx
    refine hare x ?_
    rw [hlines]
    exact List.mem_cons_of_mem _ (List.mem_append_left _ hx)
  refine ⟨bodyIn ((lit "---" ++ f) :: bs), ?_, ?_⟩
  · rw [← hread]
    exact (readMessage_of_lines path hlines fun x hx =>
      hfence x (List.mem_cons_of_mem _ hx)).symm
  · rw [readMessage_of_lines path hmarked fun x hx => ?_]
    · congr 1
      have hnew :
          AreLines ((lit "id: " ++ l) :: (before ++ (lit "read_at: " ++ when) :: after)) := by
        intro x hx
        refine areLines_linesOf (markedText when raw) x ?_
        rw [hmarked]
        exact List.mem_cons_of_mem _ (List.mem_append_left _ hx)
      have hpre : AreLines ((lit "id: " ++ l) :: before) :=
        fun x hx => hsub x (List.mem_append_left _ hx)
      rw [fieldsIn_eq hnew, ← List.cons_append, fieldsFrom_append, fieldsFrom_cons,
        fieldsFrom_readAt hwhen, fieldsIn_eq hpre]
    · rcases List.mem_append.mp hx with hx | hx
      · exact hfence x (List.mem_cons_of_mem _ (List.mem_append_left _ hx))
      · rcases List.mem_cons.mp hx with rfl | hx
        · rfl
        · exact hfence x (List.mem_cons_of_mem _
            (List.mem_append_right _ (List.mem_cons_of_mem _ hx)))

/-- A file without such a line in the header stays unread. -/
theorem readMessage_markedText_of_not (hraw : Headed raw)
    (hread : readMessage path (.text raw) = .ok m) (hwhen : Stamp when)
    (hno : ∀ l ∈ headLines raw, isReadAt l = false) :
    ∀ m', readMessage path (.text (markedText when raw)) = .ok m' → m'.readAt = m.readAt := by
  obtain ⟨f, bs, hrest⟩ := hraw.fence hread
  obtain ⟨l, hs, hhead⟩ := hraw.head
  have hlines := hraw.lines
  have hfence : ∀ x ∈ headLines raw, isFence x = false := fun x => isFence_of_mem_headLines
  rw [hhead, hrest] at hlines
  rw [hhead] at hfence hno
  have hfirst : ∀ x ∈ lit "---" :: ((lit "id: " ++ l) :: hs), isReadAt x = false := by
    rintro x hx
    rcases List.mem_cons.mp hx with rfl | hx
    · rfl
    · exact hno x hx
  have hmarked : linesOf (markedText when raw) = lit "---" :: ((lit "id: " ++ l) :: hs ++
      (lit "---" ++ f) :: setReadAtLine when bs) := by
    have hf : (lit "read_at:").isPrefixOf (lit "---" ++ f) = false := rfl
    rw [linesOf_markedText hwhen.oneLine, hlines, ← List.cons_append, setReadAtLine_append hfirst,
      setReadAtLine, if_neg (by simp [hf])]
    simp
  intro m' hread'
  have hhs : ∀ x ∈ hs, isFence x = false := fun x hx => hfence x (List.mem_cons_of_mem _ hx)
  rw [readMessage_of_lines path hmarked hhs] at hread'
  rw [readMessage_of_lines path hlines hhs] at hread
  obtain ⟨-, rfl⟩ := storedMessage_eq_ok.mp hread
  obtain ⟨-, rfl⟩ := storedMessage_eq_ok.mp hread'
  rfl

/-- **When marking a message makes it read**, and changes nothing else: exactly if the line that
is replaced is the field's own. -/
theorem readMessage_markedText_iff (hraw : Headed raw)
    (hread : readMessage path (.text raw) = .ok m) (hnone : m.readAt = none)
    (hwhen : Stamp when) :
    readMessage path (.text (markedText when raw)) = .ok { m with readAt := some when } ↔
      OwnLine raw := by
  -- what is read after the line is what would be read without it, but for `read_at`
  have hwithout : ∀ before after : List Text, AreLines (before ++ after) →
      SameFields (fieldsFrom (Function.update (fieldsIn before) (lit "read_at") (some when)) after)
        (fieldsIn (before ++ after)) := by
    intro before after hare
    refine sameFields_of_ne fun k hk => ?_
    rw [fieldsIn_eq hare, fieldsFrom_append]
    refine fieldsFrom_congr ?_
    rw [Function.update_of_ne hk, fieldsIn_eq fun x hx => hare x (List.mem_append_left _ hx)]
  have hsub : ∀ before line after, headLines raw = before ++ line :: after →
      AreLines (before ++ line :: after) ∧ AreLines (before ++ after) := by
    intro before line after hsplit
    have hall : AreLines (before ++ line :: after) := by
      intro x hx
      refine areLines_linesOf raw x ?_
      rw [hraw.lines, hsplit]
      exact List.mem_cons_of_mem _ (List.mem_append_left _ hx)
    refine ⟨hall, fun x hx => hall x ?_⟩
    rcases List.mem_append.mp hx with hx | hx
    · exact List.mem_append_left _ hx
    · exact List.mem_append_right _ (List.mem_cons_of_mem line hx)
  constructor
  · intro hmarked
    by_cases hex : ∀ l ∈ headLines raw, isReadAt l = false
    · have := readMessage_markedText_of_not hraw hread hwhen hex _ hmarked
      rw [hnone] at this
      exact absurd this (by simp)
    · obtain ⟨x, hx, hxat⟩ : ∃ x ∈ headLines raw, isReadAt x := by
        by_contra hno
        exact hex fun l hl => Bool.eq_false_of_not_eq_true fun hat => hno ⟨l, hl, hat⟩
      obtain ⟨line, hfind⟩ := Option.isSome_iff_exists.mp
        (List.find?_isSome.mpr ⟨x, hx, hxat⟩)
      obtain ⟨hline, before, after, hsplit, hbefore⟩ := List.find?_eq_some_iff_append.mp hfind
      have hbefore' : ∀ l ∈ before, isReadAt l = false := fun l hl => by simpa using hbefore l hl
      obtain ⟨body, hstored, heq⟩ :=
        readMessage_markedText hraw hread hwhen hsplit hbefore' hline
      obtain ⟨hall, hrest⟩ := hsub before line after hsplit
      rw [heq] at hmarked
      refine ⟨before, line, after, hsplit, hbefore', hline, fun l hl hsays => ?_, ?_⟩
      · -- such a line would say the same as before
        obtain ⟨-, hm⟩ := storedMessage_eq_ok.mp hmarked
        obtain ⟨-, hm₀⟩ := storedMessage_eq_ok.mp hstored
        have hold : fieldsIn (before ++ line :: after) (lit "read_at") = none := by
          rw [← hnone, hm₀]
          rfl
        have hsaid : ∀ fields, fieldsFrom fields after (lit "read_at") =
            fieldsFrom (Function.update (fieldsIn before) (lit "read_at") (some when)) after
              (lit "read_at") :=
          fun _ => fieldsFrom_of_said ⟨l, hl, hsays⟩
        rw [fieldsIn_eq hall, fieldsFrom_append, fieldsFrom_cons, hsaid] at hold
        have hnew := congrArg StoredMessage.readAt hm
        exact absurd (hnew.trans hold) (by simp)
      · exact (hwithout before after hrest).symm.trans
          (sameFields_of_storedMessage hmarked hstored rfl)
  · rintro ⟨before, line, after, hsplit, hbefore, hline, hlast, hsame⟩
    obtain ⟨body, hstored, heq⟩ := readMessage_markedText hraw hread hwhen hsplit hbefore hline
    obtain ⟨-, hrest⟩ := hsub before line after hsplit
    have hset : fieldsFrom (Function.update (fieldsIn before) (lit "read_at") (some when)) after
        (lit "read_at") = some when := by
      rw [fieldsFrom_of_unsaid hlast, Function.update_self]
    rw [heq, storedMessage_of_sameFields ((hwithout before after hrest).trans hsame) hstored, hset]

end Inbox

end OtamanBridge
