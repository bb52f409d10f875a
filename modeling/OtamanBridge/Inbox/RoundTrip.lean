import OtamanBridge.Inbox.Store

/-!
# What a recipient reads of a message

A message that `write_message` returned is compared with what `_read_message` makes of
the file it wrote. The two agree exactly when every value in the header is kept, that is
in one line and plain, and the body holds no carriage return before its trailing white
space (`OtamanBridge.Inbox.readsBack_iff`). A value that is not in one line is never read
back: a field that is read is a piece of one line of the file. What is read in its place
may be chosen by the sender, and so may the sender's name.
-/

namespace OtamanBridge

namespace Inbox

open Py Posix

/-! ### One message -/

/-- A value that comes back from a header. -/
def Kept (t : Text) : Prop := OneLine t ∧ Plain t

/-- A body, up to leading newlines and trailing white space. -/
def normalBody (t : Text) : Text := rstrip (lstripNewlines t)

/-- What is read is what was written: the header as it was, not read by anybody yet, and
the body up to its ends. -/
structure SameMessage (m m' : StoredMessage) : Prop where
  id : m'.id = m.id
  fromUser : m'.fromUser = m.fromUser
  fromEmail : m'.fromEmail = m.fromEmail
  toUser : m'.toUser = m.toUser
  subject : m'.subject = m.subject
  sentAt : m'.sentAt = m.sentAt
  readAt : m'.readAt = none
  inReplyTo : m'.inReplyTo = m.inReplyTo
  priority : m'.priority = m.priority
  type : m'.type = m.type
  body : normalBody m'.body = normalBody m.body

/-- A message whose file says what it says. -/
structure Readable (m : StoredMessage) : Prop where
  id : Kept m.id
  fromUser : Kept m.fromUser
  fromEmail : ∀ t ∈ m.fromEmail, Kept t
  toUser : Kept m.toUser
  subject : Kept m.subject
  sentAt : Kept m.sentAt
  inReplyTo : ∀ t ∈ m.inReplyTo, Kept t
  priority : Kept m.priority
  type : ∃ t ∈ m.type, Kept t
  body : 13 ∉ rstrip m.body

theorem Plain.ne_nil {t : Text} (h : Plain t) : t ≠ [] := by
  rintro rfl
  rcases h with h | ⟨h, -⟩
  · exact absurd h (by decide)
  · exact h rfl

theorem eq_or_of_getOr {fields : Fields} {key default t : Text}
    (h : fields.getOr key default = t) : t = default ∨ fields key = some t := by
  unfold Fields.getOr at h
  rcases hf : fields key with _ | v
  · simp only [hf] at h
    exact .inl h.symm
  · simp only [hf] at h
    split_ifs at h
    · exact .inl h.symm
    · exact .inr (by rw [h])

/-- A field with a default is its value, exactly when the value is plain. -/
theorem getOr_eq_iff {fields : Fields} {key default t : Text}
    (h : fields key = readValue (strip (32 :: yamlValue (some t)))) (hd : Plain default) :
    fields.getOr key default = t ↔ Plain t := by
  constructor
  · intro hget
    rcases eq_or_of_getOr hget with rfl | hf
    · exact hd
    · rwa [← readValue_yamlValue_iff, ← h]
  · intro hp
    rw [(readValue_yamlValue_iff t).mpr hp] at h
    simp [Fields.getOr, h, hp.ne_nil]

/-! ### The body -/

/-- White space at the end of a body does not count. -/
theorem normalBody_append {t s : Text} (hs : ∀ c ∈ s, isSpace c) :
    normalBody (t ++ s) = normalBody t := by
  have hblank : ∀ {u : Text}, (∀ c ∈ u, isSpace c) → rstrip u = [] := by
    intro u hu
    exact rstrip_append_of_space (t := []) hu
  unfold normalBody lstripNewlines
  rw [List.dropWhile_append]
  split_ifs with hnil
  · rw [List.isEmpty_iff.mp hnil, hblank fun c hc => hs c ((List.dropWhile_suffix _).subset hc)]
    rfl
  · exact rstrip_append_of_space hs

theorem normalBody_rstrip (t : Text) : normalBody (rstrip t) = normalBody t := by
  obtain ⟨s, hts, hs⟩ := exists_rstrip_append t
  conv_rhs => rw [hts]
  exact (normalBody_append hs).symm

theorem normalBody_lstripNewlines (t : Text) : normalBody (lstripNewlines t) = normalBody t := by
  rw [normalBody, normalBody, lstripNewlines, lstripNewlines, List.dropWhile_idempotent]

/-- A carriage return inside a body counts. -/
theorem carriageReturn_mem_normalBody {t : Text} (h : 13 ∈ rstrip t) : 13 ∈ normalBody t := by
  rw [← normalBody_rstrip]
  have hdrop : 13 ∈ lstripNewlines (rstrip t) := by
    have hsplit := List.takeWhile_append_dropWhile (p := (· == 10)) (l := rstrip t)
    rw [← hsplit] at h
    rcases List.mem_append.mp h with htake | hdrop
    · exact absurd (List.mem_takeWhile_imp htake) (by decide)
    · exact hdrop
  -- what is left ends like the body, with a visible character
  have hend : rstrip (lstripNewlines (rstrip t)) = lstripNewlines (rstrip t) := by
    rw [rstrip, List.rdropWhile_eq_self_iff]
    intro hne
    have hsuf : lstripNewlines (rstrip t) <:+ rstrip t := List.dropWhile_suffix _
    have hne' : rstrip t ≠ [] := hsuf.ne_nil hne
    have hlast := List.rdropWhile_eq_self_iff.mp (rstrip_rstrip t) hne'
    rwa [hsuf.getLast hne]
  rw [normalBody, hend]
  exact hdrop

/-- A message all of whose header is in lines. -/
structure InLines (m : StoredMessage) : Prop where
  id : OneLine m.id
  fromUser : OneLine m.fromUser
  fromEmail : ∀ t ∈ m.fromEmail, OneLine t
  toUser : OneLine m.toUser
  subject : OneLine m.subject
  sentAt : OneLine m.sentAt
  inReplyTo : ∀ t ∈ m.inReplyTo, OneLine t
  priority : OneLine m.priority
  type : ∀ t ∈ m.type, OneLine t

theorem InLines.header {m : StoredMessage} (h : InLines m) : ∀ kv ∈ header m, OneLine kv.2 := by
  have some' : ∀ {t : Text}, OneLine t → OneLine (yamlValue (some t)) := by
    intro t ht
    refine oneLine_yamlValue fun u hu => ?_
    rwa [← Option.some.inj hu]
  have hnull : OneLine (lit "null") := by decide
  intro kv hkv
  simp only [Inbox.header, List.mem_cons, List.not_mem_nil, or_false] at hkv
  rcases hkv with rfl | rfl | rfl | rfl | rfl | rfl | rfl | rfl | rfl | rfl
  · exact some' h.id
  · exact some' h.fromUser
  · exact oneLine_yamlValue h.fromEmail
  · exact some' h.toUser
  · exact some' h.subject
  · exact some' h.sentAt
  · exact hnull
  · exact oneLine_yamlValue h.inReplyTo
  · exact some' h.priority
  · exact oneLine_yamlValue h.type

/-- What is read is in lines, whatever was written. -/
theorem SameMessage.inLines {m : StoredMessage} {fields : Fields} {path body : Text}
    (hone : ∀ k v, fields k = some v → OneLine v)
    (h : SameMessage m (messageOf path fields body)) : InLines m := by
  have getD : ∀ k, OneLine ((fields k).getD []) := by
    intro k
    rcases hf : fields k with _ | v
    · simp [OneLine]
    · exact hone k v hf
  have getOr : ∀ {k default}, OneLine default → OneLine (fields.getOr k default) := by
    intro k default hd
    rcases eq_or_of_getOr (rfl : fields.getOr k default = _) with heq | hf
    · rwa [heq]
    · exact hone k _ hf
  have opt : ∀ {v : Option Text} {k}, fields k = v → ∀ t ∈ v, OneLine t := by
    rintro v k rfl t ht
    exact hone k t ht
  constructor
  · exact h.id ▸ getD _
  · exact h.fromUser ▸ getD _
  · exact opt h.fromEmail
  · exact h.toUser ▸ getD _
  · exact h.subject ▸ getD _
  · exact h.sentAt ▸ getD _
  · exact opt h.inReplyTo
  · exact h.priority ▸ getOr (by decide)
  · intro t ht
    rw [← h.type] at ht
    rw [← Option.some.inj ht]
    exact getOr (by decide)

theorem Readable.inLines {m : StoredMessage} (h : Readable m) : InLines m where
  id := h.id.1
  fromUser := h.fromUser.1
  fromEmail t ht := (h.fromEmail t ht).1
  toUser := h.toUser.1
  subject := h.subject.1
  sentAt := h.sentAt.1
  inReplyTo t ht := (h.inReplyTo t ht).1
  priority := h.priority.1
  type t ht := by
    obtain ⟨u, hu, hk⟩ := h.type
    rw [Option.mem_unique ht hu]
    exact hk.1

/-- The fields of a header in one line, one by one. -/
theorem fields_headerText {m : StoredMessage} (h : ∀ kv ∈ header m, OneLine kv.2) :
    let read := fun v => readValue (strip (32 :: yamlValue v))
    let fields := readFields (headerText m)
    fields (lit "id") = read (some m.id) ∧ fields (lit "from_user") = read (some m.fromUser) ∧
      fields (lit "from_email") = read m.fromEmail ∧
      fields (lit "to_user") = read (some m.toUser) ∧
      fields (lit "subject") = read (some m.subject) ∧
      fields (lit "sent_at") = read (some m.sentAt) ∧ fields (lit "read_at") = none ∧
      fields (lit "in_reply_to") = read m.inReplyTo ∧
      fields (lit "priority") = read (some m.priority) ∧ fields (lit "type") = read m.type := by
  have hnull : readValue (strip (32 :: lit "null")) = none := by decide
  have field := fun {k v} => readFields_headerText h (k := k) (v := v)
  refine ⟨field ?_, field ?_, field ?_, field ?_, field ?_, field ?_,
    (field (v := lit "null") ?_).trans hnull, field ?_, field ?_, field ?_⟩ <;> simp [header]

/-- A field that may be missing comes back, exactly when a value in it is plain. -/
theorem readValue_option_iff (v : Option Text) :
    readValue (strip (32 :: yamlValue v)) = v ↔ ∀ t ∈ v, Plain t := by
  cases v with
  | none => simp [readValue_none]
  | some t => simp [readValue_yamlValue_iff]

/-- A field that may not be missing comes back, exactly when its value is plain. -/
theorem has_and_getD_iff {fields : Fields} {key t : Text}
    (h : fields key = readValue (strip (32 :: yamlValue (some t)))) :
    (fields.has key ∧ (fields key).getD [] = t) ↔ Plain t := by
  rw [← readValue_yamlValue_iff, ← h]
  constructor
  · rintro ⟨hhas, hget⟩
    rcases hf : fields key with _ | v
    · simp [Fields.has, hf] at hhas
    · rw [hf] at hget
      exact congrArg some hget
  · intro hf
    have hp : Plain t := by
      rw [← readValue_yamlValue_iff, ← h]
      exact hf
    simp [Fields.has, hf, hp.ne_nil]

/-- **Reading back one message.** -/
theorem readMessage_renderMessage_iff (m : StoredMessage) (path : Text) :
    (∃ m', readMessage path (.text (renderMessage m)) = .ok m' ∧ SameMessage m m') ↔
      Readable m := by
  constructor
  · rintro ⟨m', hread, hsame⟩
    obtain ⟨fields, hone, hcr, hm'⟩ := readMessage_eq_ok hread
    have hin : InLines m := (hm' ▸ hsame).inLines hone
    -- now the fields are known
    rw [readMessage_renderMessage hin.header] at hread
    obtain ⟨hhas, rfl⟩ := storedMessage_eq_ok.mp hread
    obtain ⟨hid, hfrom, hemail, hto, hsubject, hsent, -, hreply, hpriority, htype⟩ :=
      fields_headerText hin.header
    have must : ∀ {key t}, readFields (headerText m) key =
        readValue (strip (32 :: yamlValue (some t))) → key ∈ required →
        (readFields (headerText m) key).getD [] = t → Plain t :=
      fun hf hkey hget => (has_and_getD_iff hf).mp ⟨hhas _ hkey, hget⟩
    have may := fun {v : Option Text} => (readValue_option_iff v).mp
    constructor
    · exact ⟨hin.id, must hid (by decide) hsame.id⟩
    · exact ⟨hin.fromUser, must hfrom (by decide) hsame.fromUser⟩
    · exact fun t ht => ⟨hin.fromEmail t ht, may (hemail.symm.trans hsame.fromEmail) t ht⟩
    · exact ⟨hin.toUser, must hto (by decide) hsame.toUser⟩
    · exact ⟨hin.subject, must hsubject (by decide) hsame.subject⟩
    · exact ⟨hin.sentAt, must hsent (by decide) hsame.sentAt⟩
    · exact fun t ht => ⟨hin.inReplyTo t ht, may (hreply.symm.trans hsame.inReplyTo) t ht⟩
    · exact ⟨hin.priority, (getOr_eq_iff hpriority (by decide)).mp hsame.priority⟩
    · rcases htypem : m.type with _ | t
      · exact absurd (hsame.type.trans htypem) (by simp [messageOf])
      · refine ⟨t, rfl, hin.type t htypem, ?_⟩
        rw [htypem] at htype
        exact (getOr_eq_iff htype (by decide)).mp (Option.some.inj (hsame.type.trans htypem))
    · intro hbody
      refine hcr ?_
      have := carriageReturn_mem_normalBody hbody
      rw [← hsame.body] at this
      exact (List.dropWhile_suffix _).subset (mem_of_mem_rstrip this)
  · intro hr
    have hin := hr.inLines
    obtain ⟨hid, hfrom, hemail, hto, hsubject, hsent, hread, hreply, hpriority, htype⟩ :=
      fields_headerText hin.header
    have must := fun {key t} (hf : readFields (headerText m) key =
      readValue (strip (32 :: yamlValue (some t)))) => (has_and_getD_iff hf).mpr
    rw [readMessage_renderMessage hin.header]
    refine ⟨_, storedMessage_eq_ok.mpr ⟨?_, rfl⟩, ?_⟩
    · intro r hmem
      simp only [required, List.map_cons, List.map_nil, List.mem_cons, List.not_mem_nil,
        or_false] at hmem
      rcases hmem with rfl | rfl | rfl | rfl | rfl
      · exact (must hid hr.id.2).1
      · exact (must hfrom hr.fromUser.2).1
      · exact (must hto hr.toUser.2).1
      · exact (must hsubject hr.subject.2).1
      · exact (must hsent hr.sentAt.2).1
    · constructor
      · exact (must hid hr.id.2).2
      · exact (must hfrom hr.fromUser.2).2
      · exact hemail.trans ((readValue_option_iff _).mpr fun t ht => (hr.fromEmail t ht).2)
      · exact (must hto hr.toUser.2).2
      · exact (must hsubject hr.subject.2).2
      · exact (must hsent hr.sentAt.2).2
      · exact hread
      · exact hreply.trans ((readValue_option_iff _).mpr fun t ht => (hr.inReplyTo t ht).2)
      · exact (getOr_eq_iff hpriority (by decide)).mpr hr.priority.2
      · obtain ⟨t, ht, hk⟩ := hr.type
        have ht' : m.type = some t := ht
        rw [ht'] at htype ⊢
        exact congrArg some ((getOr_eq_iff htype (by decide)).mpr hk.2)
      · have hcr : 13 ∉ rstrip m.body ++ [10] := by simpa using hr.body
        have hsp : ∀ c ∈ [10], isSpace c := by decide
        rw [messageOf, universalNewlines_eq_self hcr, normalBody_lstripNewlines,
          normalBody_append hsp, normalBody_rstrip]

/-! ### What a message is made of -/

/-- A text between two visible ends is left alone by stripping. -/
theorem strip_append {a b c : Text} (ha : ∀ x ∈ a, isSpace x = false) (hne : a ≠ [])
    (hc : ∀ x ∈ c, isSpace x = false) (hne' : c ≠ []) : strip (a ++ b ++ c) = a ++ b ++ c := by
  apply strip_eq_self
  · intro x hx
    obtain ⟨y, a, rfl⟩ := List.exists_cons_of_ne_nil hne
    obtain rfl : y = x := by simpa using hx
    exact ha y List.mem_cons_self
  · intro x hx
    rw [List.getLast?_append, List.getLast?_eq_some_getLast hne'] at hx
    obtain rfl : c.getLast hne' = x := by simpa using hx
    exact hc _ (List.getLast_mem hne')

/-- What `strip` leaves, cut and stripped at its end, has nothing more to strip. -/
theorem strip_rstrip_take {t : Text} (h : strip t ≠ []) (n : ℕ) :
    rstrip ((strip t).take (n + 1)) ≠ [] ∧
      strip (rstrip ((strip t).take (n + 1))) = rstrip ((strip t).take (n + 1)) := by
  -- the first character is visible
  obtain ⟨c, s, hs⟩ := List.exists_cons_of_ne_nil h
  have hc : isSpace c = false := by
    have hl : ∃ u, lstrip t = c :: u := by
      obtain ⟨v, hv, -⟩ := exists_rstrip_append (lstrip t)
      exact ⟨s ++ v, by rw [hv, ← List.cons_append, ← hs]; rfl⟩
    obtain ⟨u, hu⟩ := hl
    have := List.head?_dropWhile_not isSpace t
    rw [show t.dropWhile isSpace = c :: u from hu] at this
    simpa using this
  have hne : ∃ v, rstrip ((strip t).take (n + 1)) = c :: v := by
    rw [hs, List.take_succ_cons]
    obtain ⟨v, hv, hsp⟩ := exists_rstrip_append (c :: s.take n)
    rcases hr : rstrip (c :: s.take n) with _ | ⟨d, w⟩
    · rw [hr, List.nil_append] at hv
      have := hsp c (hv ▸ List.mem_cons_self)
      simp [hc] at this
    · rw [hr] at hv
      exact ⟨w, by rw [(List.cons.inj hv).1]⟩
  obtain ⟨v, hv⟩ := hne
  refine ⟨by simp [hv], ?_⟩
  have hl : lstrip (c :: v) = c :: v := by simp [lstrip, hc]
  rw [strip, hv, hl, ← hv, rstrip_rstrip]

theorem oneLine_deriveSubject (body : Text) : OneLine (deriveSubject body) := by
  unfold deriveSubject
  split
  · simp [OneLine]
  next line hline =>
    obtain ⟨l, hl, rfl⟩ := List.mem_map.mp (List.mem_of_find?_eq_some hline)
    have hone : OneLine (strip l) := (oneLine_of_mem_splitlines hl).mono fun _ => mem_of_mem_strip
    refine hone.mono fun c hc => ?_
    have hc' := List.mem_of_mem_take hc
    split_ifs at hc' with hnil
    · exact hc'
    · exact List.mem_of_mem_drop ((List.dropWhile_suffix _).subset hc')

/-- The subject is the sender's, or a line of the body. -/
theorem givenSubject_cases (d : Draft) : d.subject = some d.givenSubject ∨
    (OneLine d.givenSubject ∧ ∀ t ∈ d.subject, strip t = []) := by
  unfold Draft.givenSubject
  rcases d.subject with _ | t
  · exact .inr ⟨oneLine_deriveSubject _, by simp⟩
  · rcases eq_or_ne t [] with rfl | ht
    · refine .inr ⟨?_, ?_⟩
      · simpa using oneLine_deriveSubject _
      · intro u hu
        rw [← Option.some.inj hu]
        rfl
    · exact .inl (by simp [ht])

/-- The effective subject is a text stripped, cut and stripped again. -/
theorem effSubject_eq (d : Draft) : ∃ t, strip t ≠ [] ∧
    d.effSubject = rstrip ((strip t).take maxSubjectLen) ∧
    (t = d.givenSubject ∨ (OneLine t ∧ strip d.givenSubject = [])) := by
  have hcut : ∀ {s : Text}, rstrip s = s → (if maxSubjectLen < s.length then
      rstrip (s.take maxSubjectLen) else s) = rstrip (s.take maxSubjectLen) := by
    intro s hs
    split_ifs with hlen
    · rfl
    · rw [List.take_of_length_le (not_lt.mp hlen), hs]
  by_cases hblank : strip d.givenSubject = []
  · have hno : strip (lit "(no subject)") = lit "(no subject)" := by decide +kernel
    refine ⟨lit "(no subject)", by rw [hno]; decide, ?_, .inr ⟨by decide, hblank⟩⟩
    simp only [Draft.effSubject, if_pos hblank, hno]
    exact hcut (by decide +kernel)
  · refine ⟨d.givenSubject, hblank, ?_, .inl rfl⟩
    simp only [Draft.effSubject, if_neg hblank]
    exact hcut (rstrip_rstrip _)

/-- Nothing is lost of a subject but by a line separator in what is kept of it. -/
theorem kept_effSubject_iff (d : Draft) : Kept d.effSubject ↔
    ∀ t ∈ d.subject, OneLine (rstrip ((strip t).take maxSubjectLen)) := by
  obtain ⟨t, hne, heq, hor⟩ := effSubject_eq d
  obtain ⟨hne', hstrip⟩ := strip_rstrip_take hne 79
  have hplain : Plain d.effSubject := by
    rw [heq]
    exact .inr ⟨hne', hstrip⟩
  have hone : OneLine t → OneLine (rstrip ((strip t).take maxSubjectLen)) :=
    fun h => h.mono fun _ hc => mem_of_mem_strip (List.mem_of_mem_take (mem_of_mem_rstrip hc))
  have hnil : ∀ {u : Text}, strip u = [] → OneLine (rstrip ((strip u).take maxSubjectLen)) := by
    intro u hu
    rw [hu]
    exact (by decide : OneLine [])
  rw [Kept, and_iff_left hplain, heq]
  rcases hor with rfl | ⟨ht, hblank⟩
  · rcases givenSubject_cases d with hsub | ⟨hone', hblank⟩
    · rw [hsub]
      simp
    · exact iff_of_true (hone hone') fun u hu => hnil (hblank u hu)
  · refine iff_of_true (hone ht) fun u hu => hnil ?_
    rcases givenSubject_cases d with hsub | ⟨-, hblank'⟩
    · rw [← Option.some.inj (hsub.symm.trans hu)]
      exact hblank
    · exact hblank' u hu

theorem kept_iso (now : DateTime) : Kept now.iso := by
  have hchars : ∀ c ∈ now.iso, isLineBreak c = false := by
    intro c hc
    rcases DateTime.mem_iso hc with h | h
    · simp only [isLineBreak, Bool.or_eq_false_iff, Bool.and_eq_false_iff, decide_eq_false_iff_not]
      omega
    · have : ∀ c ∈ lit "-T:Z", isLineBreak c = false := by decide
      exact this c h
  have hcolon : ':'.toNat ∈ now.iso := by
    have : ':'.toNat ∈ lit ":" := by decide
    simp only [DateTime.iso, List.mem_append]
    tauto
  refine ⟨hchars, .inl ?_⟩
  have : ':'.toNat ∈ lit "\":\n#&*![]\x7b\x7d|>%@`" := by decide
  simp only [yamlSpecial, Bool.or_eq_true, List.any_eq_true]
  exact .inl ⟨_, hcolon, by simpa using this⟩

theorem kept_of_mem_priorities {t : Text} (h : t ∈ priorities) : Kept t := by
  have : ∀ t ∈ priorities, OneLine t ∧ Plain t := by decide +kernel
  exact this t h

/-- The id of a message is kept, if the sender's is in one line. -/
theorem kept_candidateId {d : Draft} (now : DateTime) (attempt : ℕ) (h : OneLine d.fromUser) :
    Kept (candidateId (d.baseId now.iso) attempt) := by
  obtain ⟨e, hne, he, heq⟩ := candidateId_eq d now.iso attempt
  have hspace : ∀ {t : Text}, (∀ c ∈ t, slugChar c) → ∀ c ∈ t, isSpace c = false :=
    fun ht c hc => (nameChar_of_slugChar (ht c hc)).1
  have hone : ∀ {t : Text}, (∀ c ∈ t, slugChar c) → OneLine t := by
    intro t ht c hc
    by_contra hb
    have := isSpace_of_isLineBreak (Bool.eq_true_of_not_eq_false hb)
    rw [hspace ht c hc] at this
    exact absurd this (by decide)
  have hstamp : ∀ c ∈ timeStamp now.iso, slugChar c := fun _ => slugChar_of_mem_timeStamp
  have hshort : OneLine (shortUserId d.fromUser) := by
    unfold shortUserId
    split_ifs
    · decide
    · exact h.mono fun _ => List.mem_of_mem_take
  have hdash : OneLine (lit "-") := by decide
  rw [heq]
  refine ⟨?_, .inr ⟨by simp [hne], ?_⟩⟩
  · simp only [oneLine_append]
    exact ⟨⟨hone hstamp, ⟨hdash, hshort⟩, hdash⟩, hone he⟩
  · exact strip_append (hspace hstamp) (timeStamp_ne_nil now) (hspace he) hne

/-! ### Every message that is written -/

/-- What the sender may set is kept: no value for the header has a line separator in it,
those that are not quoted have nothing to strip, and the body has no carriage return
before its trailing white space. -/
structure Faithful (d : Draft) : Prop where
  fromUser : Kept d.fromUser
  fromEmail : ∀ t ∈ d.fromEmail, Kept t
  toUser : Kept d.toUser
  subject : ∀ t ∈ d.subject, OneLine (rstrip ((strip t).take maxSubjectLen))
  inReplyTo : ∀ t ∈ d.inReplyTo, Kept t
  msgType : ∃ t ∈ d.msgType, Kept t
  body : 13 ∉ rstrip d.body

/-- The new file on the disk is read as the message. -/
def ReadsBack (disk disk' : Disk) (m : StoredMessage) : Prop :=
  ∃ p content m', disk.node p = none ∧ disk'.read p = some content ∧
    readMessage m.path content = .ok m' ∧ SameMessage m m'

variable {h : Host} {now : ℕ} {disk disk' : Disk} {d : Draft} {m : StoredMessage}

theorem readable_message_iff {sentAt : DateTime} {attempt : ℕ} {path : Text}
    (hp : d.priority ∈ priorities) :
    Readable (d.message sentAt.iso (candidateId (d.baseId sentAt.iso) attempt) path) ↔
      Faithful d := by
  constructor
  · intro hr
    exact {
      fromUser := hr.fromUser
      fromEmail := hr.fromEmail
      toUser := hr.toUser
      subject := (kept_effSubject_iff d).mp hr.subject
      inReplyTo := hr.inReplyTo
      msgType := hr.type
      body := hr.body }
  · intro hf
    exact {
      id := kept_candidateId sentAt attempt hf.fromUser.1
      fromUser := hf.fromUser
      fromEmail := hf.fromEmail
      toUser := hf.toUser
      subject := (kept_effSubject_iff d).mpr hf.subject
      sentAt := kept_iso sentAt
      inReplyTo := hf.inReplyTo
      priority := kept_of_mem_priorities hp
      type := hf.msgType
      body := hf.body }

/-- The new file is the one the message was rendered into. -/
theorem readsBack_iff_readable (hw : writeMessage h now disk d = (disk', .ok m)) :
    ReadsBack disk disk' m ↔ Readable m := by
  obtain ⟨disk₁, p, hr, -, rfl⟩ := writeMessage_eq_ok hw
  obtain ⟨hne, -, hnone⟩ := node_of_reserve hr
  have hread : ∀ q, disk.node q = none → ∀ content,
      (disk₁.put p (.file (.text (renderMessage m)))).read q = some content →
      content = .text (renderMessage m) := by
    intro q hq content hc
    rcases eq_or_ne q p with rfl | hqp
    · rw [Fs.read_put_file hne] at hc
      exact (Option.some.inj hc).symm
    · rw [Fs.read_congr (Fs.node_put_of_ne hqp), read_of_reserve hr, Fs.read, hq] at hc
      exact absurd hc (by simp)
  rw [← readMessage_renderMessage_iff m m.path]
  constructor
  · rintro ⟨q, content, m', hq, hc, hm', hsame⟩
    rw [hread q hq content hc] at hm'
    exact ⟨m', hm', hsame⟩
  · rintro ⟨m', hm', hsame⟩
    exact ⟨p, _, m', hnone, Fs.read_put_file hne, hm', hsame⟩

/-- **When a recipient reads what was sent.** For every call of `write_message` that
succeeds, on any disk and whatever its arguments: the new file is read as the message the
call returns, its sender included, exactly when what the sender may set is kept. -/
theorem readsBack_iff (hw : writeMessage h now disk d = (disk', .ok m)) :
    ReadsBack disk disk' m ↔ Faithful d := by
  obtain ⟨_, _, hr, -, -⟩ := writeMessage_eq_ok hw
  obtain ⟨_, _, -, -, hp, -, hm⟩ := reserve_eq_ok hr
  rw [readsBack_iff_readable hw, hm]
  exact readable_message_iff hp

/-! ### A message that comes back, and one that does not -/

/-- A message from one user to another. -/
def note (subject : Text) : Draft where
  fromUser := lit "user-A"
  fromEmail := some (lit "a@example")
  toUser := lit "user-B"
  body := lit "hi"
  subject := some subject

/-- A subject with a colon in it comes back. -/
theorem readsBack_iff_colon : ∃ disk' m,
    writeMessage someHost 1779105600 ⟨∅⟩ (note (lit "about: this")) = (disk', .ok m) ∧
      ReadsBack ⟨∅⟩ disk' m := by
  have hok : (writeMessage someHost 1779105600 ⟨∅⟩ (note (lit "about: this"))).2.isOk := by
    decide +kernel
  rcases hw : writeMessage someHost 1779105600 ⟨∅⟩ (note (lit "about: this")) with
    ⟨disk', e | m⟩
  · simp [hw, Except.isOk, Except.toBool] at hok
  · refine ⟨disk', m, rfl, (readsBack_iff hw).mpr ?_⟩
    have hkept : ∀ t ∈ [lit "user-A", lit "a@example", lit "user-B", lit "chat"],
        OneLine t ∧ Plain t := by decide +kernel
    constructor
    · exact hkept _ (by decide)
    · rintro t ⟨⟩
      exact hkept _ (by decide)
    · exact hkept _ (by decide)
    · rintro t ⟨⟩
      decide +kernel
    · simp [note]
    · exact ⟨_, rfl, hkept _ (by decide)⟩
    · decide +kernel

/-- A subject with line breaks in it chooses the sender the recipient sees. -/
theorem not_readsBack_forged : ∃ disk' m,
    writeMessage someHost 1779105600 ⟨∅⟩ (note (lit "x\nfrom_user: admin\ny")) =
      (disk', .ok m) ∧ ¬ReadsBack ⟨∅⟩ disk' m ∧ m.fromUser = lit "user-A" ∧
    ∃ p content m', disk'.read p = some content ∧ readMessage m.path content = .ok m' ∧
      m'.fromUser = lit "admin" := by
  have hok : (writeMessage someHost 1779105600 ⟨∅⟩
      (note (lit "x\nfrom_user: admin\ny"))).2.toOption.any fun m =>
        m.fromUser = lit "user-A" ∧ ¬OneLine m.subject ∧
        (readMessage m.path (.text (renderMessage m))).toOption.any fun m' =>
          m'.fromUser = lit "admin" := by
    decide +kernel
  rcases hw : writeMessage someHost 1779105600 ⟨∅⟩ (note (lit "x\nfrom_user: admin\ny")) with
    ⟨disk', e | m⟩
  · simp [hw, Except.toOption] at hok
  · obtain ⟨hfrom, hsubject, hread⟩ : m.fromUser = lit "user-A" ∧ ¬OneLine m.subject ∧
        ((readMessage m.path (.text (renderMessage m))).toOption.any fun m' =>
          m'.fromUser = lit "admin") := by
      rw [hw] at hok
      exact of_decide_eq_true hok
    obtain ⟨disk₁, p, hr, -, hdisk⟩ := writeMessage_eq_ok hw
    rcases hm' : readMessage m.path (.text (renderMessage m)) with e | m'
    · simp [hm', Except.toOption] at hread
    · refine ⟨disk', m, rfl, ?_, hfrom, p, .text (renderMessage m), m', ?_, hm', ?_⟩
      · rw [readsBack_iff_readable hw]
        exact fun hr => hsubject hr.subject.1
      · rw [hdisk]
        exact Fs.read_put_file (node_of_reserve hr).1
      · simpa [hm', Except.toOption] using hread

end Inbox

end OtamanBridge
