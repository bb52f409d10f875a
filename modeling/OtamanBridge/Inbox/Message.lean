import Mathlib.Logic.Function.Basic
import OtamanBridge.Lib.PyLines

/-!
# A message file

`inbox.py` keeps a message in a file of its own: a header of `key: value` lines between
two `---` lines, and the body after it. Both halves of this format are written by hand.
`_render_message` quotes a value in which it sees a character that is special in YAML;
`_read_message` cuts the header at the first line that starts like the closing fence,
and the header into lines at every line separator there is.

What a value comes back as is decided by two things, whether it is one line
(`OtamanBridge.Py.OneLine`) and whether it is quoted or has nothing at its ends that
stripping takes away (`OtamanBridge.Inbox.Plain`).
-/

namespace OtamanBridge

namespace Inbox

open Py

/-! ### Data -/

/-- The bytes of a file: UTF-8, or not, with what the decoder says about them. -/
inductive Content
  | text (t : Text)
  | undecodable (error : Text)
  deriving DecidableEq

/-- The exceptions of the inbox. -/
inductive Failure
  /-- A `ValueError` with this message. -/
  | value (message : Text)
  /-- The `UnicodeEncodeError`, a `ValueError`, for this text. -/
  | encode (t : Text)
  /-- The `UnicodeDecodeError`, a `ValueError`, with this message. -/
  | decode (message : Text)
  /-- A `RuntimeError` with this message. -/
  | runtime (message : Text)
  /-- An `OSError` about this path. -/
  | os (path : Text)
  /-- A `TypeError` or an `AttributeError`: a value that is no string, where the code
  takes one for granted. -/
  | type (message : Text)
  deriving DecidableEq

/-- `StoredMessage`. -/
structure StoredMessage where
  id : Text
  fromUser : Text
  fromEmail : Option Text
  toUser : Text
  subject : Text
  sentAt : Text
  readAt : Option Text
  inReplyTo : Option Text
  priority : Text
  type : Option Text
  body : Text
  path : Text
  deriving DecidableEq

/-! ### Writing -/

/-- Whether `yaml_value` quotes a text. -/
def yamlSpecial (t : Text) : Bool :=
  t.any (· ∈ lit "\":\n#&*![]\x7b\x7d|>%@`") ||
    lower t ∈ ["true", "false", "null", "yes", "no", "~"].map lit

/-- `yaml_value`. -/
def yamlValue (v : Option Text) : Text :=
  match v with
  | none => lit "null"
  | some t => if yamlSpecial t then lit "\"" ++ escape t ++ lit "\"" else t

/-- The keys and values of the header of a message. -/
def header (m : StoredMessage) : List (Text × Text) :=
  [(lit "id", yamlValue (some m.id)),
    (lit "from_user", yamlValue (some m.fromUser)),
    (lit "from_email", yamlValue m.fromEmail),
    (lit "to_user", yamlValue (some m.toUser)),
    (lit "subject", yamlValue (some m.subject)),
    (lit "sent_at", yamlValue (some m.sentAt)),
    (lit "read_at", lit "null"),
    (lit "in_reply_to", yamlValue m.inReplyTo),
    (lit "priority", yamlValue (some m.priority)),
    (lit "type", yamlValue m.type)]

/-- A line of the header. -/
def headerLine (kv : Text × Text) : Text := kv.1 ++ lit ": " ++ kv.2

/-- `_render_message`, called with the fields of the message that `write_message`
returns. -/
def renderMessage (m : StoredMessage) : Text :=
  joinLines ([lit "---"] ++ (header m).map headerLine ++
    [lit "---", [], rstrip m.body ++ lit "\n"])

/-! ### Reading -/

/-- `t.lstrip("\n")`. -/
def lstripNewlines (t : Text) : Text := t.dropWhile (· == 10)

/-- The value of a field, from the text after the colon. -/
def readValue (v : Text) : Option Text :=
  if v = lit "null" ∨ v = [] then none
  else if v.head? = some '"'.toNat ∧ v.getLast? = some '"'.toNat then
    some (unescape (v.drop 1).dropLast)
  else some v

/-- `fields`: a key that is not there reads as `None`. -/
abbrev Fields := Text → Option Text

/-- One turn of the loop over the lines of the header. -/
def readLine (fields : Fields) (line : Text) : Fields :=
  match cut (lit ":") line with
  | none => fields
  | some (k, v) => Function.update fields (strip k) (readValue (strip v))

/-- The fields of a header. -/
def readFields (header : Text) : Fields :=
  (splitlines header).foldl readLine fun _ => none

/-- Whether a field reads as something true. -/
def Fields.has (fields : Fields) (key : Text) : Bool := (fields key).any (· ≠ [])

/-- `fields.get(key) or default`. -/
def Fields.getOr (fields : Fields) (key default : Text) : Text :=
  match fields key with
  | none => default
  | some v => if v = [] then default else v

/-- The fields a message cannot do without. -/
def required : List Text := ["id", "from_user", "to_user", "subject", "sent_at"].map lit

/-- The message with these fields. -/
def messageOf (path : Text) (fields : Fields) (body : Text) : StoredMessage where
  id := (fields (lit "id")).getD []
  fromUser := (fields (lit "from_user")).getD []
  fromEmail := fields (lit "from_email")
  toUser := (fields (lit "to_user")).getD []
  subject := (fields (lit "subject")).getD []
  sentAt := (fields (lit "sent_at")).getD []
  readAt := fields (lit "read_at")
  inReplyTo := fields (lit "in_reply_to")
  priority := fields.getOr (lit "priority") (lit "normal")
  type := some (fields.getOr (lit "type") (lit "chat"))
  body := body
  path := path

/-- The message with these fields, if the required ones are there. -/
def storedMessage (path : Text) (fields : Fields) (body : Text) :
    Except Failure StoredMessage :=
  match required.find? fun r => !fields.has r with
  | some r => .error (.value (lit "missing required field '" ++ r ++ lit "' in " ++ path))
  | none => .ok (messageOf path fields body)

/-- `_read_message`. -/
def readMessage (path : Text) (content : Content) : Except Failure StoredMessage :=
  match content with
  | .undecodable error => .error (.decode error)
  | .text raw =>
    let text := universalNewlines raw
    if !(lit "---").isPrefixOf text then
      .error (.value (lit "missing frontmatter delimiter in " ++ path))
    else
      match cut (lit "\n---") (lstripNewlines (text.drop 3)) with
      | none => .error (.value (lit "unclosed frontmatter in " ++ path))
      | some (head, rest) => storedMessage path (readFields head) (lstripNewlines rest)

/-! ### One value -/

/-- A value that is quoted, or that stripping does not touch. -/
def Plain (t : Text) : Prop := yamlSpecial t ∨ (t ≠ [] ∧ strip t = t)

instance (t : Text) : Decidable (Plain t) := inferInstanceAs (Decidable (_ ∨ _))

theorem quote_special {t : Text} (h : '"'.toNat ∈ t) : yamlSpecial t := by
  have : '"'.toNat ∈ lit "\":\n#&*![]\x7b\x7d|>%@`" := by decide
  simp only [yamlSpecial, Bool.or_eq_true, List.any_eq_true]
  exact .inl ⟨_, h, by simpa using this⟩

/-- A quoted value comes back. -/
theorem readValue_quoted (t : Text) :
    readValue (strip (32 :: (lit "\"" ++ escape t ++ lit "\""))) = some t := by
  have hq : lit "\"" = [34] := by decide
  have hstrip : strip (34 :: (escape t ++ [34])) = 34 :: (escape t ++ [34]) := by
    apply strip_eq_self
    · simp [isSpace]
    · rw [← List.cons_append, List.getLast?_append]
      simp [isSpace]
  have hnull : (34 :: (escape t ++ [34]) : Text) ≠ lit "null" := by
    have : lit "null" = 110 :: lit "ull" := by decide
    rw [this]
    simp
  rw [hq, List.append_assoc, List.singleton_append, strip_space_cons (by decide), hstrip,
    readValue, if_neg (by simp [hnull]), if_pos]
  · rw [List.drop_one, List.tail_cons, List.dropLast_concat, unescape_escape]
  · constructor
    · rfl
    · rw [← List.cons_append, List.getLast?_append]
      rfl

/-- **What a value comes back as**: itself, exactly when it is `Plain`. -/
theorem readValue_yamlValue_iff (t : Text) :
    readValue (strip (32 :: yamlValue (some t))) = some t ↔ Plain t := by
  by_cases hs : yamlSpecial t
  · rw [yamlValue, if_pos hs]
    exact iff_of_true (readValue_quoted t) (.inl hs)
  · rw [yamlValue, if_neg hs, strip_space_cons (by decide)]
    have hnq : '"'.toNat ∉ strip t := fun h => hs (quote_special (mem_of_mem_strip h))
    have hhead : (strip t).head? ≠ some '"'.toNat := fun h => hnq (List.mem_of_mem_head? h)
    simp only [Plain, hs, false_or, readValue, hhead, false_and, if_false, Bool.false_eq_true]
    constructor
    · intro h
      split_ifs at h with hn
      obtain rfl | heq := eq_or_ne t []
      · simp [strip, lstrip, rstrip] at hn
      · exact ⟨heq, Option.some.inj h⟩
    · rintro ⟨hne, hst⟩
      rw [hst, if_neg]
      rintro (rfl | h)
      · exact hs (by decide)
      · exact hne h

theorem readValue_none : readValue (strip (32 :: yamlValue none)) = none := by
  decide

/-- A value is written in one line if it is one. -/
theorem oneLine_yamlValue {v : Option Text} (h : ∀ t ∈ v, OneLine t) :
    OneLine (yamlValue v) := by
  cases v with
  | none => exact (by decide : OneLine (lit "null"))
  | some t =>
    have ht : OneLine t := h t rfl
    simp only [yamlValue]
    split_ifs
    · have hq : OneLine (lit "\"") := by decide
      rw [oneLine_append, oneLine_append]
      refine ⟨⟨hq, fun c hc => ?_⟩, hq⟩
      rcases mem_escape hc with rfl | rfl | hc
      · decide
      · decide
      · exact ht c hc
    · exact ht

/-! ### The header -/

theorem oneLine_readValue {t v : Text} (ht : OneLine t) (h : readValue t = some v) :
    OneLine v := by
  unfold readValue at h
  split_ifs at h
  · obtain rfl := Option.some.inj h
    intro c hc
    rcases mem_unescape hc with rfl | rfl | hc
    · decide
    · decide
    · exact ht c (List.mem_of_mem_drop ((List.dropLast_prefix _).subset hc))
  · obtain rfl := Option.some.inj h
    exact ht

theorem oneLine_readLine {fields : Fields} {line : Text} (hl : OneLine line)
    (hf : ∀ k v, fields k = some v → OneLine v) :
    ∀ k v, readLine fields line k = some v → OneLine v := by
  intro k v h
  rcases hcut : cut (lit ":") line with _ | ⟨k', v'⟩
  · simp only [readLine, hcut] at h
    exact hf k v h
  · simp only [readLine, hcut] at h
    rcases eq_or_ne k (strip k') with rfl | hne
    · rw [Function.update_self] at h
      refine oneLine_readValue (hl.mono fun c hc => ?_) h
      rw [eq_of_cut hcut]
      exact List.mem_append_right _ (mem_of_mem_strip hc)
    · rw [Function.update_of_ne hne] at h
      exact hf k v h

/-- **What is read of a header is in one line**, whatever the header. -/
theorem oneLine_readFields {head key v : Text} (h : readFields head key = some v) :
    OneLine v := by
  have hfold : ∀ (ls : List Text) (fields : Fields), (∀ l ∈ ls, OneLine l) →
      (∀ k w, fields k = some w → OneLine w) →
      ∀ k w, ls.foldl readLine fields k = some w → OneLine w := by
    intro ls
    induction ls with
    | nil => exact fun _ _ hf => hf
    | cons l ls ih =>
      intro fields hls hf
      exact ih _ (fun l hl => hls l (List.mem_cons_of_mem _ hl))
        (oneLine_readLine (hls l List.mem_cons_self) hf)
  exact hfold _ _ (fun l hl => oneLine_of_mem_splitlines hl) (by simp) key v h

/-- The keys of a header have no colon and nothing to strip, and start with a letter. -/
def KeyOk (k : Text) : Prop :=
  58 ∉ k ∧ strip k = k ∧ k ≠ [] ∧ k.head? ≠ some 45 ∧ OneLine k

theorem keyOk_of_mem_header {m : StoredMessage} {kv : Text × Text} (h : kv ∈ header m) :
    KeyOk kv.1 := by
  have hkeys : ∀ k ∈ ["id", "from_user", "from_email", "to_user", "subject", "sent_at",
      "read_at", "in_reply_to", "priority", "type"].map lit, KeyOk k := by
    unfold KeyOk
    decide
  exact hkeys _ (List.mem_map_of_mem (f := Prod.fst) h)

/-- A line of a header is cut after its key. -/
theorem cut_headerLine {k : Text} (hk : KeyOk k) (v : Text) :
    cut (lit ":") (headerLine (k, v)) = some (k, 32 :: v) := by
  have hc : lit ":" = [58] := by decide
  have hcs : lit ": " = [58, 32] := by decide
  rw [headerLine, hc, hcs, List.append_assoc, cut_append hk.1]
  simp [cut, List.isPrefixOf]

theorem readLine_headerLine (fields : Fields) {k : Text} (hk : KeyOk k) (v : Text) :
    readLine fields (headerLine (k, v)) =
      Function.update fields k (readValue (strip (32 :: v))) := by
  rw [readLine, cut_headerLine hk]
  simp only [hk.2.1]

/-- The field of a key that occurs once is the value of its line. -/
theorem foldl_readLine {kvs : List (Text × Text)} (hok : ∀ kv ∈ kvs, KeyOk kv.1)
    (hnd : (kvs.map Prod.fst).Nodup) (fields : Fields) {k v : Text} (hm : (k, v) ∈ kvs) :
    (kvs.map headerLine).foldl readLine fields k = readValue (strip (32 :: v)) := by
  have hother : ∀ (kvs : List (Text × Text)) (fields : Fields), (∀ kv ∈ kvs, KeyOk kv.1) →
      k ∉ kvs.map Prod.fst → (kvs.map headerLine).foldl readLine fields k = fields k := by
    intro kvs
    induction kvs with
    | nil => exact fun _ _ _ => rfl
    | cons kv kvs ih =>
      intro fields hok hk
      rw [List.map_cons, List.mem_cons, not_or] at hk
      rw [List.map_cons, List.foldl_cons, ih _ (fun kv h => hok kv (List.mem_cons_of_mem _ h)) hk.2,
        readLine_headerLine fields (hok kv List.mem_cons_self), Function.update_of_ne hk.1]
  induction kvs generalizing fields with
  | nil => simp at hm
  | cons kv kvs ih =>
    have hok' : ∀ kv ∈ kvs, KeyOk kv.1 := fun kv h => hok kv (List.mem_cons_of_mem _ h)
    rw [List.map_cons, List.nodup_cons] at hnd
    rw [List.map_cons, List.foldl_cons]
    rcases List.mem_cons.mp hm with rfl | hm
    · rw [hother _ _ hok' hnd.1, readLine_headerLine fields (hok _ List.mem_cons_self),
        Function.update_self]
    · exact ih hok' hnd.2 _ hm

theorem nodup_header (m : StoredMessage) : ((header m).map Prod.fst).Nodup := by
  have : (["id", "from_user", "from_email", "to_user", "subject", "sent_at", "read_at",
      "in_reply_to", "priority", "type"].map lit).Nodup := by decide
  exact this

/-- The header of a message, as it stands in the file. -/
def headerText (m : StoredMessage) : Text := joinLines ((header m).map headerLine)

theorem headerLine_ok {m : StoredMessage} (h : ∀ kv ∈ header m, OneLine kv.2) {l : Text}
    (hl : l ∈ (header m).map headerLine) :
    OneLine l ∧ l ≠ [] ∧ l.head? ≠ some 45 := by
  obtain ⟨⟨k, v⟩, hkv, rfl⟩ := List.mem_map.mp hl
  obtain ⟨-, -, hne, hhead, hone⟩ := keyOk_of_mem_header hkv
  have hsep : OneLine (lit ": ") := by decide
  obtain ⟨c, k, rfl⟩ := List.exists_cons_of_ne_nil hne
  refine ⟨?_, by simp [headerLine], by simpa [headerLine] using hhead⟩
  rw [headerLine, oneLine_append, oneLine_append]
  exact ⟨⟨hone, hsep⟩, h _ hkv⟩

/-- **The fields of a header of one-line values** are the values of its lines. -/
theorem readFields_headerText {m : StoredMessage} (h : ∀ kv ∈ header m, OneLine kv.2)
    {k v : Text} (hm : (k, v) ∈ header m) :
    readFields (headerText m) k = readValue (strip (32 :: v)) := by
  have hlines : splitlines (headerText m) = (header m).map headerLine :=
    splitlines_joinLines fun l hl => ⟨(headerLine_ok h hl).1, (headerLine_ok h hl).2.1⟩
  rw [readFields, hlines]
  exact foldl_readLine (fun _ => keyOk_of_mem_header) (nodup_header m) _ hm

/-! ### The whole file -/

theorem storedMessage_eq_ok {path body : Text} {fields : Fields} {m : StoredMessage} :
    storedMessage path fields body = .ok m ↔
      (∀ r ∈ required, fields.has r) ∧ m = messageOf path fields body := by
  unfold storedMessage
  split
  next r hr =>
    have hmem := List.mem_of_find?_eq_some hr
    have hnot := List.find?_some hr
    constructor
    · intro h
      exact absurd h (by simp)
    · rintro ⟨hall, -⟩
      simp [hall r hmem] at hnot
  next hnone =>
    have hall : ∀ r ∈ required, fields.has r := by
      simpa [List.find?_eq_none] using hnone
    rw [Except.ok.injEq]
    exact ⟨fun h => ⟨hall, h.symm⟩, fun h => h.2.symm⟩

/-- What any file is read as: fields in one line, and a body without carriage returns. -/
theorem readMessage_eq_ok {path raw : Text} {m : StoredMessage}
    (h : readMessage path (.text raw) = .ok m) :
    ∃ fields : Fields, (∀ k v, fields k = some v → OneLine v) ∧ 13 ∉ m.body ∧
      m = messageOf path fields m.body := by
  simp only [readMessage] at h
  split_ifs at h
  split at h
  · exact absurd h (by simp)
  next head rest hcut =>
    obtain ⟨-, rfl⟩ := storedMessage_eq_ok.mp h
    refine ⟨readFields head, fun _ _ => oneLine_readFields, fun hc => ?_, rfl⟩
    refine carriageReturn_not_mem_universalNewlines raw ?_
    have hrest : 13 ∈ lstripNewlines ((universalNewlines raw).drop 3) := by
      rw [eq_of_cut hcut]
      exact List.mem_append_right _ ((List.dropWhile_suffix _).subset hc)
    exact List.mem_of_mem_drop ((List.dropWhile_suffix _).subset hrest)

/-- **What a file of one-line values is read as.** -/
theorem readMessage_renderMessage {m : StoredMessage} (h : ∀ kv ∈ header m, OneLine kv.2)
    (path : Text) :
    readMessage path (.text (renderMessage m)) = storedMessage path (readFields (headerText m))
      (lstripNewlines (universalNewlines (rstrip m.body ++ [10]))) := by
  have hfence : lit "---" = [45, 45, 45] := by decide
  have hnl : lit "\n" = [10] := by decide
  have hnlf : lit "\n---" = 10 :: 45 :: [45, 45] := by decide
  have hlines : (header m).map headerLine ≠ [] := by simp [header]
  have hbreak : ∀ {l}, OneLine l → ∀ c, isLineBreak c → c ∉ l :=
    fun hl c hc hm => by simp [hl c hm] at hc
  -- the text of the file
  have htext : renderMessage m = [45, 45, 45, 10] ++ headerText m ++ [10, 45, 45, 45, 10, 10] ++
      (rstrip m.body ++ [10]) := by
    rw [renderMessage, hfence, hnl, List.append_assoc, joinLines_append (by simp) (by simp),
      joinLines_append hlines (by simp)]
    simp [joinLines, headerText, List.intercalate]
  have hcr : 13 ∉ [45, 45, 45, 10] ++ headerText m ++ [10, 45, 45, 45, 10, 10] := by
    have : 13 ∉ headerText m := by
      intro hm
      rcases mem_joinLines hm with hm | ⟨l, hl, hm⟩
      · exact absurd hm (by decide)
      · exact hbreak (headerLine_ok h hl).1 13 (by decide) hm
    simpa using this
  -- the newline after the first fence is stripped, and no other
  have hhead : lstripNewlines (10 :: (headerText m ++ [10, 45, 45, 45, 10, 10] ++
      universalNewlines (rstrip m.body ++ [10]))) = headerText m ++
      (10 :: 45 :: [45, 45] ++ ([10, 10] ++ universalNewlines (rstrip m.body ++ [10]))) := by
    have hi : ∃ t, headerText m = 105 :: t := ⟨_, rfl⟩
    obtain ⟨t, ht⟩ := hi
    simp [lstripNewlines, ht]
  have hcut : cut (10 :: 45 :: [45, 45]) (headerText m ++ (10 :: 45 :: [45, 45] ++
      ([10, 10] ++ universalNewlines (rstrip m.body ++ [10])))) = some (headerText m,
      [10, 10] ++ universalNewlines (rstrip m.body ++ [10])) := by
    refine cut_joinLines hlines (fun l hl => ?_) _
    obtain ⟨hone, hne, hh⟩ := headerLine_ok h hl
    exact ⟨hbreak hone 10 (by decide), hne, hh⟩
  have hread : universalNewlines (renderMessage m) = 45 :: 45 :: 45 :: 10 ::
      (headerText m ++ [10, 45, 45, 45, 10, 10] ++
        universalNewlines (rstrip m.body ++ [10])) := by
    rw [htext, universalNewlines_append hcr]
    simp
  simp only [readMessage, hread, hfence, hnlf]
  rw [if_neg (by simp [List.isPrefixOf]), List.drop_succ_cons, List.drop_succ_cons,
    List.drop_succ_cons, List.drop_zero, hhead, hcut]
  simp [lstripNewlines]

end Inbox

end OtamanBridge
