import OtamanBridge.Bus.Envelope

/-!
# What the reader gets of what a writer was given

The writers of decisions, replies and lifecycle events interpolate their arguments into the
front matter as they are, where the inbox quotes what YAML would take for something else. So
an argument comes back when it is a whole node of YAML that resolves to itself
(`OtamanBridge.Bus.Faithful`), and the rest of the envelope, made of fixed words, of time
stamps and of slugs, always does (`OtamanBridge.Bus.written_roundTrips_iff`). A line break in
an argument is a line of the envelope.
-/

namespace OtamanBridge

namespace Bus

open Py

open Yaml (IsKey IsString Plain)

open Inbox (Encodable encodable_append encodable_lit encodable_of_ascii encodable_joinLines)

/-! ### An envelope that comes back -/

section Fields

variable {py : Python} {scalar : Text → Except LoadError Value} {node : Text → Prop}
  {fields : List (Text × Text)} {items : List (Value × Value)} {kv : Text × Text} {stem : Text}

/-- The keys whose values are read as text. -/
def textKeys : List Text := ["from", "to", "type"].map lit

/-- The keys whose values are taken as they are. -/
def valueKeys : List Text := ["in_reply_to", "change"].map lit

/-- **A field that is read back**: its value, on a line of its own, resolves to something
that the reader takes for what was written. -/
def Faithful (py : Python) (scalar : Text → Except LoadError Value) (kv : Text × Text) : Prop :=
  ∃ v, scalar kv.2 = .ok v ∧ (kv.1 ∈ textKeys → py.text v = kv.2) ∧
    (kv.1 = lit "priority" → py.lower (py.text v) = kv.2) ∧ (kv.1 ∈ valueKeys → v = .str kv.2)

/-- The message says what the field says. -/
structure Yields (py : Python) (m : BusMessage) (kv : Text × Text) : Prop where
  from_ : kv.1 = lit "from" → m.from_ py = kv.2
  to_ : kv.1 = lit "to" → m.to_ py = kv.2
  type : kv.1 = lit "type" → m.type py = kv.2
  priority : kv.1 = lit "priority" → m.priority py = kv.2
  inReplyTo : kv.1 = lit "in_reply_to" → m.get "in_reply_to" = some (.str kv.2)
  change : kv.1 = lit "change" → m.get "change" = some (.str kv.2)

/-- **A file is recovered from a text**: it is read, with the keys it was written with and no
others, and the message says what the fields say. -/
def Recovers (py : Python) (stem : Text) (f : MessageFile) (text : Text) : Prop :=
  ∃ m, parseBusFile py stem (some (.text text)) = .ok (some m) ∧
    m.frontmatter.map Prod.fst = f.fields.map (fun kv => .str kv.1) ∧
    ∀ kv ∈ f.fields, Yields py m kv

/-- **A file round-trips**: it is recovered from what the writer leaves on the disk. -/
def RoundTrips (py : Python) (stem : Text) (f : MessageFile) : Prop :=
  Recovers py stem f f.written

theorem readFields_eq_ok (h : ∀ kv ∈ fields, ∃ v, scalar kv.2 = .ok v) :
    ∃ items, readFields scalar fields = .ok items := by
  induction fields with
  | nil => exact ⟨[], rfl⟩
  | cons kv fields ih =>
    obtain ⟨v, hv⟩ := h kv List.mem_cons_self
    obtain ⟨items, hitems⟩ := ih fun kv hkv => h kv (List.mem_cons_of_mem _ hkv)
    exact ⟨(.str kv.1, v) :: items, by rw [readFields_cons, hv, hitems]; rfl⟩

/-- What is read of a field is what was written, if the field is faithful. -/
theorem yields_iff_faithful (h : readFields scalar fields = .ok items)
    (hnd : (fields.map Prod.fst).Nodup) (hkv : kv ∈ fields) (body : Text) :
    Yields py ⟨stem, items, body⟩ kv ↔ Faithful py scalar kv := by
  obtain ⟨v, hv, hget⟩ := get_of_readFields h hnd hkv
  have hfield : ∀ key default : String, kv.1 = lit key →
      BusMessage.field py ⟨stem, items, body⟩ key default = py.text v := fun key default hkey => by
    rw [BusMessage.field, BusMessage.get, hget key hkey, Option.getD_some]
  constructor
  · rintro ⟨hfrom, hto, htype, hpriority, hreply, hchange⟩
    refine ⟨v, hv, fun hk => ?_, fun hk => ?_, fun hk => ?_⟩
    · simp only [textKeys, List.map_cons, List.map_nil, List.mem_cons, List.not_mem_nil,
        or_false] at hk
      rcases hk with hk | hk | hk
      · exact (hfield _ _ hk).symm.trans (hfrom hk)
      · exact (hfield _ _ hk).symm.trans (hto hk)
      · exact (hfield _ _ hk).symm.trans (htype hk)
    · rw [← hpriority hk, BusMessage.priority, hfield _ _ hk]
    · simp only [valueKeys, List.map_cons, List.map_nil, List.mem_cons, List.not_mem_nil,
        or_false] at hk
      rcases hk with hk | hk
      · exact Option.some.inj ((hget _ hk).symm.trans (hreply hk))
      · exact Option.some.inj ((hget _ hk).symm.trans (hchange hk))
  · rintro ⟨x, hx, htext, hpriority, hvalue⟩
    obtain rfl := Except.ok.inj (hv.symm.trans hx)
    refine ⟨fun hk => ?_, fun hk => ?_, fun hk => ?_, fun hk => ?_, fun hk => ?_, fun hk => ?_⟩
    · exact (hfield _ _ hk).trans (htext (by simp [hk, textKeys]))
    · exact (hfield _ _ hk).trans (htext (by simp [hk, textKeys]))
    · exact (hfield _ _ hk).trans (htext (by simp [hk, textKeys]))
    · rw [BusMessage.priority, hfield _ _ hk, hpriority hk]
    · rw [BusMessage.get, hget _ hk, hvalue (by simp [hk, valueKeys])]
    · rw [BusMessage.get, hget _ hk, hvalue (by simp [hk, valueKeys])]

/-- **An envelope of whole nodes is recovered from its text** when its fields are faithful, and
only then. -/
theorem recovers_iff (hload : Yaml.Loader py.safeLoad scalar node) {f : MessageFile}
    (hne : f.fields ≠ []) (hnd : (f.fields.map Prod.fst).Nodup)
    (hkeys : ∀ kv ∈ f.fields, IsKey kv.1) (hnode : ∀ kv ∈ f.fields, node kv.2) :
    Recovers py stem f f.text ↔ ∀ kv ∈ f.fields, Faithful py scalar kv := by
  have hparse := parseBusFile_envelope hload hne hnd hkeys hnode stem f.body
  constructor
  · rintro ⟨m, hm, -, hyields⟩ kv hkv
    rw [MessageFile.text, hparse] at hm
    rcases hr : readFields scalar f.fields with (_ | _) | items
    · exact absurd hm (by simp [hr])
    · exact absurd hm (by simp [hr])
    · rw [hr] at hm
      obtain rfl := Option.some.inj (Except.ok.inj hm)
      exact (yields_iff_faithful hr hnd hkv _).mp (hyields kv hkv)
  · intro hfaithful
    obtain ⟨items, hr⟩ : ∃ items, readFields scalar f.fields = .ok items :=
      readFields_eq_ok fun kv hkv => (hfaithful kv hkv).imp fun v hv => hv.1
    rw [hr] at hparse
    exact ⟨_, hparse, keys_of_readFields hr,
      fun kv hkv => (yields_iff_faithful hr hnd hkv _).mpr (hfaithful kv hkv)⟩

/-- An empty file is no message. -/
theorem not_recovers_nil {f : MessageFile} : ¬Recovers py stem f [] := by
  rintro ⟨m, hm, -⟩
  have hnone : frontmatterMatch (universalNewlines []) = none := by decide
  simp [parseBusFile, hnone] at hm

/-- **What comes back** is what can be encoded, and is recovered from its text. -/
theorem roundTrips_iff {f : MessageFile} :
    RoundTrips py stem f ↔ Encodable f.text ∧ Recovers py stem f f.text := by
  unfold RoundTrips MessageFile.written
  split_ifs with henc
  · rw [and_iff_right henc]
  · exact iff_of_false not_recovers_nil fun h => henc h.1

end Fields

/-! ### What can be encoded -/

theorem encodable_decimal (n : ℕ) : Encodable (decimal n) :=
  encodable_of_ascii fun c hc => by
    have := mem_decimal hc
    omega

theorem encodable_padded (width n : ℕ) : Encodable (padded width n) :=
  encodable_of_ascii fun c hc => by
    have := mem_padded hc
    omega

theorem encodable_stamp (i : Instant) : Encodable i.stamp :=
  encodable_of_ascii fun c hc => by
    have := mem_stamp hc
    omega

theorem encodable_isoformat (i : Instant) : Encodable i.isoformat := by
  have hmicro : Encodable (if i.micro = 0 then [] else lit "." ++ padded 6 i.micro) := by
    split_ifs
    · decide
    · exact encodable_append.mpr ⟨by decide, encodable_padded 6 i.micro⟩
  simp only [Instant.isoformat, encodable_append, encodable_padded, hmicro, true_and, and_true]
  decide

theorem encodable_orText {t default : Text} (hdefault : Encodable default) :
    Encodable (orText t default) ↔ Encodable t := by
  unfold orText
  split_ifs with ht
  · exact iff_of_true hdefault (by simp [ht, Inbox.Encodable])
  · rfl

theorem encodable_responderLine {responder : Text} {label : String} :
    Encodable (responderLine responder label) ↔ Encodable responder := by
  unfold responderLine
  split_ifs with h
  · exact iff_of_true (encodable_lit "") (by simp [h, Inbox.Encodable])
  · rw [encodable_append, and_iff_right (encodable_lit _)]

theorem encodable_replaceAll {t : Text} {old new : Char} :
    Encodable (replaceAll old new t) ↔ Encodable t := by
  have hchar : ∀ c : Char, ¬(0xd800 ≤ c.toNat ∧ c.toNat ≤ 0xdfff) := fun c hc =>
    encodable_lit (String.singleton c) c.toNat (by simp [lit]) hc
  unfold replaceAll Inbox.Encodable
  rw [List.forall_mem_map]
  refine forall₂_congr fun c _ => ?_
  split_ifs with hc
  · exact iff_of_true (hchar new) (hc ▸ hchar old)
  · rfl

/-! ### What is always plain -/

/-- A slug is made of small letters, digits and hyphens. -/
theorem mem_slug {py : Python} {t : Text} {c : ℕ} (h : c ∈ slug py t) :
    c = 45 ∨ (97 ≤ c ∧ c ≤ 122) ∨ (48 ≤ c ∧ c ≤ 57) := by
  have hdefault : ∀ c ∈ lit "decision", 97 ≤ c ∧ c ≤ 122 := by decide
  unfold slug orText at h
  split_ifs at h
  · exact .inr (.inl (hdefault c h))
  · have h := (List.rdropWhile_prefix _ _).subset (List.mem_of_mem_take h)
    rcases Inbox.mem_squeeze ((List.dropWhile_suffix _).subset h) with rfl | ⟨-, h⟩
    · exact .inl rfl
    · simp only [Bool.not_eq_false', Bool.or_eq_true, Bool.and_eq_true, decide_eq_true_eq] at h
      exact .inr h

theorem encodable_slug (py : Python) (t : Text) : Encodable (slug py t) :=
  encodable_of_ascii fun c hc => by
    have := mem_slug hc
    omega

theorem slug_ne_nil (py : Python) (t : Text) : slug py t ≠ [] := by
  unfold slug orText
  split_ifs with h
  · decide
  · exact h

/-- A number begins with a digit. -/
theorem exists_head_padded (width n : ℕ) (t : Text) :
    ∃ c ∈ (padded width n ++ t).head?, 48 ≤ c ∧ c ≤ 57 := by
  have hne : padded width n ≠ [] := by simp [padded, Inbox.decimal_ne_nil]
  obtain ⟨c, s, hcs⟩ := List.exists_cons_of_ne_nil hne
  have hmem : c ∈ padded width n := by
    rw [hcs]
    exact List.mem_cons_self
  exact ⟨c, by rw [hcs]; rfl, mem_padded hmem⟩

/-- What begins with a digit begins with no indicator. -/
theorem not_indicator_of_digit {t : Text} (h : ∃ c ∈ t.head?, 48 ≤ c ∧ c ≤ 57) :
    ∃ c ∈ t.head?, c ∉ Yaml.indicators ∧ c ∉ Yaml.mappingIndicators := by
  have hind : ∀ c ∈ Yaml.indicators, c < 48 ∨ 57 < c := by decide
  have hmap : ∀ c ∈ Yaml.mappingIndicators, c < 48 ∨ 57 < c := by decide
  obtain ⟨c, hc, hrange⟩ := h
  refine ⟨c, hc, fun h => ?_, fun h => ?_⟩
  · have := hind c h
    omega
  · have := hmap c h
    omega

/-- A time is written in digits, and a few characters between them. -/
theorem mem_isoformat {i : Instant} {c : ℕ} (h : c ∈ i.isoformat) :
    (48 ≤ c ∧ c ≤ 57) ∨ c ∈ lit "-T:.+" := by
  have hsep : ∀ s ∈ ["-", "T", ":", "."], ∀ c ∈ lit s, c ∈ lit "-T:.+" := by decide
  have hzone : ∀ c ∈ lit "+00:00", (48 ≤ c ∧ c ≤ 57) ∨ c ∈ lit "-T:.+" := by decide
  simp only [Instant.isoformat, List.mem_append] at h
  rcases h with (((((((((((h | h) | h) | h) | h) | h) | h) | h) | h) | h) | h) | h) | h
  all_goals first
    | exact .inl (mem_padded h)
    | exact .inr (hsep _ (by decide) c h)
    | exact hzone c h
    | skip
  split_ifs at h
  · exact absurd h List.not_mem_nil
  · rcases List.mem_append.mp h with h | h
    · exact .inr (hsep "." (by decide) c h)
    · exact .inl (mem_padded h)

/-- A time is written on one line, and YAML reads the whole of it. -/
theorem plain_isoformat (i : Instant) : Plain i.isoformat := by
  have hvisible : ∀ c ∈ lit "-T:.+", 33 ≤ c ∧ c ≤ 126 := by decide
  refine Yaml.plain_of_visible (fun c hc => ?_) (not_indicator_of_digit ?_) ?_
  · rcases mem_isoformat hc with hc | hc
    · omega
    · exact hvisible c hc
  · simp only [Instant.isoformat, List.append_assoc]
    exact exists_head_padded ..
  · rw [Instant.isoformat, List.getLast?_append_of_ne_nil _ (by decide)]
    decide

/-- The id of a decision or a reply is plain, and no number. -/
theorem plain_id (py : Python) (i : Instant) (mid : String) (t : Text)
    (hmid : ∀ c ∈ lit mid, 33 ≤ c ∧ c ≤ 126) (hword : ∃ c ∈ lit mid, Yaml.isNumeral c = false)
    (hlen : 6 ≤ (lit mid).length) :
    Plain (i.stamp ++ lit mid ++ slug py t) ∧ IsString (i.stamp ++ lit mid ++ slug py t) := by
  have hslug : ∀ c ∈ slug py t, 33 ≤ c ∧ c ≤ 126 ∧ c ≠ 58 := fun c hc => by
    have := mem_slug hc
    omega
  refine ⟨Yaml.plain_of_visible (fun c hc => ?_) (not_indicator_of_digit ?_) fun h => ?_, ?_, ?_⟩
  · rcases List.mem_append.mp hc with hc | hc
    · rcases List.mem_append.mp hc with hc | hc
      · have := mem_stamp hc
        omega
      · exact hmid c hc
    · exact ⟨(hslug c hc).1, (hslug c hc).2.1⟩
  · simp only [Instant.stamp, List.append_assoc]
    exact exists_head_padded ..
  · rw [List.getLast?_append_of_ne_nil _ (slug_ne_nil py t)] at h
    exact (hslug _ (List.mem_of_getLast? h)).2.2 rfl
  · obtain ⟨c, hc, hnum⟩ := hword
    exact ⟨c, List.mem_append_left _ (List.mem_append_right _ hc), hnum⟩
  · have hshort : ∀ w ∈ Yaml.reserved, w.length < 6 := by decide
    intro h
    have := hshort _ h
    simp only [List.length_append] at this
    omega

/-! ### The three writers -/

/-- A message written by one of the three writers. -/
inductive Writing
  | decision (m : BusMessage) (i : Instant) (responder comment : Text) (v : Verdict)
  | reply (m : BusMessage) (i : Instant) (responder text : Text)
  | lifecycle (ts prefixed : Instant) (e : LifecycleEvent)

namespace Writing

/-- The file. -/
def file (py : Python) : Writing → MessageFile
  | decision m i responder comment v => broadcastDecision py m i responder comment v
  | reply m i responder text => replyMessage py m i responder text
  | lifecycle ts prefixed e => lifecycleMessage ts prefixed e

/-- The fields with a value of the message or the event in them. -/
def given (py : Python) : Writing → List (Text × Text)
  | decision _ _ _ _ .approved => []
  | decision m _ _ _ .rejected => [(lit "to", proposer py m)]
  | reply m _ _ _ => [(lit "to", proposer py m), (lit "in_reply_to", m.stem)]
  | lifecycle ts prefixed e =>
    (lifecycleMessage ts prefixed e).fields.filter fun kv =>
      kv.1 ∉ ["timestamp", "status"].map lit

/-- The texts of the message, of the event and of the human that are put into the file. -/
def texts (py : Python) : Writing → List Text
  | decision m _ responder comment _ =>
    [decisionSubject py m, proposer py m, m.stem, responder, comment]
  | reply m _ responder text =>
    [proposer py m, m.stem, orText (m.subject py) (m.type py), text, responder]
  | lifecycle _ _ e =>
    [e.fromAgent, e.recipient, e.priority, e.msgType, e.changeId, e.subject, e.body]

/-- **A file can be encoded** just when all that is put into it can be. -/
theorem encodable_file_iff (py : Python) (w : Writing) :
    Encodable (w.file py).text ↔ ∀ t ∈ w.texts py, Encodable t := by
  have hempty : Encodable ([] : Text) := encodable_lit ""
  rcases w with ⟨m, i, responder, comment, v | v⟩ | ⟨m, i, responder, text⟩ | ⟨ts, prefixed, e⟩
  -- an approval has its section of comments only if there is one
  · have hcomment : Encodable (if comment = [] then [] else
        lit "\n### Human comments\n" ++ comment ++ lit "\n") ↔ Encodable comment := by
      split_ifs with h
      · exact iff_of_true hempty (h ▸ hempty)
      · simp only [encodable_append, encodable_lit, true_and, and_true]
    simp only [Writing.file, broadcastDecision, approvedMessage, MessageFile.text, envelope,
      List.map_cons, List.map_nil, List.forall_mem_cons, envelopeLine, encodable_append,
      encodable_joinLines, encodable_lit, encodable_stamp, encodable_isoformat, encodable_slug,
      encodable_responderLine, hcomment, texts, true_and, and_true]
    simp only [List.not_mem_nil, false_imp_iff, implies_true, and_true]
    tauto
  · simp only [Writing.file, broadcastDecision, rejectedMessage, MessageFile.text, envelope,
      List.map_cons, List.map_nil, List.forall_mem_cons, envelopeLine, encodable_append,
      encodable_joinLines, encodable_lit, encodable_stamp, encodable_isoformat, encodable_slug,
      encodable_responderLine, encodable_orText (encodable_lit _), texts, true_and, and_true]
    simp only [List.not_mem_nil, false_imp_iff, implies_true, and_true]
    tauto
  · simp only [Writing.file, replyMessage, MessageFile.text, envelope,
      List.map_cons, List.map_nil, List.forall_mem_cons, envelopeLine, encodable_append,
      encodable_joinLines, encodable_lit, encodable_stamp, encodable_isoformat, encodable_slug,
      encodable_responderLine, texts, true_and, and_true]
    simp only [List.not_mem_nil, false_imp_iff, implies_true, and_true]
    tauto
  · simp only [Writing.file, lifecycleMessage, MessageFile.text, envelope,
      List.map_cons, List.map_nil, List.forall_mem_cons, envelopeLine, encodable_append,
      encodable_joinLines, encodable_lit, encodable_stamp, encodable_isoformat,
      encodable_replaceAll, texts, true_and, and_true]
    simp only [List.not_mem_nil, false_imp_iff, implies_true, and_true]
    tauto

end Writing

/-- **Python and PyYAML as the writers rely on them**: a loader of lines, for which a time is
something, and a `lower` that leaves small letters alone. -/
structure Conforms (py : Python) (scalar : Text → Except LoadError Value) (node : Text → Prop) :
    Prop where
  load : Yaml.Loader py.safeLoad scalar node
  time : ∀ i : Instant, ∃ v, scalar i.isoformat = .ok v
  lower : ∀ t : Text, (∀ c ∈ t, 97 ≤ c ∧ c ≤ 122) → py.lower t = t

section Writers

variable {py : Python} {scalar : Text → Except LoadError Value} {node : Text → Prop} {stem : Text}

/-- A field that comes back whatever the writer was given. -/
structure Safe (py : Python) (scalar : Text → Except LoadError Value) (kv : Text × Text) :
    Prop where
  plain : Plain kv.2
  faithful : Faithful py scalar kv

theorem Conforms.safe_of_string (h : Conforms py scalar node) {k t : Text} (hp : Plain t)
    (hs : IsString t) (hk : k ≠ lit "priority") : Safe py scalar (k, t) :=
  ⟨hp, .str t, h.load.string t hp hs, fun _ => rfl, fun hk' => absurd hk' hk, fun _ => rfl⟩

/-- A fixed word. -/
theorem Conforms.safe_of_word (h : Conforms py scalar node) (k : Text) {w : String}
    (hp : Plain (lit w)) (hs : IsString (lit w))
    (hw : k = lit "priority" → ∀ c ∈ lit w, 97 ≤ c ∧ c ≤ 122) : Safe py scalar (k, lit w) :=
  ⟨hp, .str (lit w), h.load.string _ hp hs, fun _ => rfl, fun hk => h.lower _ (hw hk), fun _ => rfl⟩

theorem Conforms.safe_timestamp (h : Conforms py scalar node) (i : Instant) :
    Safe py scalar (lit "timestamp", i.isoformat) := by
  obtain ⟨v, hv⟩ := h.time i
  refine ⟨plain_isoformat i, v, hv, fun hk => ?_, fun hk => ?_, fun hk => ?_⟩
  · exact absurd hk (show lit "timestamp" ∉ textKeys by decide)
  · exact absurd hk (show lit "timestamp" ≠ lit "priority" by decide)
  · exact absurd hk (show lit "timestamp" ∉ valueKeys by decide)

theorem Conforms.safe_id (h : Conforms py scalar node) (i : Instant) (mid : String) (t : Text)
    (hmid : ∀ c ∈ lit mid, 33 ≤ c ∧ c ≤ 126) (hword : ∃ c ∈ lit mid, Yaml.isNumeral c = false)
    (hlen : 6 ≤ (lit mid).length) : Safe py scalar (lit "id", i.stamp ++ lit mid ++ slug py t) := by
  obtain ⟨hp, hs⟩ := plain_id py i mid t hmid hword hlen
  exact h.safe_of_string hp hs (by decide)

/-- **What is not given is safe.** -/
theorem Conforms.given_or_safe (h : Conforms py scalar node) (w : Writing) :
    ∀ kv ∈ (w.file py).fields, kv ∈ w.given py ∨ Safe py scalar kv := by
  have hstatus : Safe py scalar (lit "status", lit "pending") :=
    h.safe_of_word _ (by decide) (by decide) (by decide)
  have hfrom : Safe py scalar (lit "from", lit "human") :=
    h.safe_of_word _ (by decide) (by decide) (by decide)
  have hnormal : Safe py scalar (lit "priority", lit "normal") :=
    h.safe_of_word _ (by decide) (by decide) fun _ => by decide
  have hid := fun i mid t h1 h2 h3 => h.safe_id i mid t h1 h2 h3
  rcases w with ⟨m, i, responder, comment, v | v⟩ | ⟨m, i, responder, text⟩ | ⟨ts, prefixed, e⟩
  · have hto : Safe py scalar (lit "to", lit "all") :=
      h.safe_of_word _ (by decide) (by decide) (by decide)
    have hhigh : Safe py scalar (lit "priority", lit "high") :=
      h.safe_of_word _ (by decide) (by decide) fun _ => by decide
    have htype : Safe py scalar (lit "type", lit "spec-change-approved") :=
      h.safe_of_word _ (by decide) (by decide) (by decide)
    simp only [Writing.file, broadcastDecision, approvedMessage, List.forall_mem_cons]
    exact ⟨.inr (hid _ _ _ (by decide) (by decide) (by decide)), .inr hfrom, .inr hto, .inr hhigh,
      .inr htype, .inr (h.safe_timestamp i), .inr hstatus, List.forall_mem_nil _⟩
  · have htype : Safe py scalar (lit "type", lit "spec-change-rejected") :=
      h.safe_of_word _ (by decide) (by decide) (by decide)
    simp only [Writing.file, broadcastDecision, rejectedMessage, List.forall_mem_cons]
    exact ⟨.inr (hid _ _ _ (by decide) (by decide) (by decide)), .inr hfrom,
      .inl List.mem_cons_self, .inr hnormal, .inr htype, .inr (h.safe_timestamp i), .inr hstatus,
      List.forall_mem_nil _⟩
  · have htype : Safe py scalar (lit "type", lit "info") :=
      h.safe_of_word _ (by decide) (by decide) (by decide)
    simp only [Writing.file, replyMessage, List.forall_mem_cons]
    exact ⟨.inr (hid _ _ _ (by decide) (by decide) (by decide)), .inr hfrom,
      .inl List.mem_cons_self, .inr hnormal, .inr htype, .inr (h.safe_timestamp i), .inr hstatus,
      .inl (List.mem_cons_of_mem _ List.mem_cons_self), List.forall_mem_nil _⟩
  · intro kv hkv
    by_cases hk : kv.1 ∈ ["timestamp", "status"].map lit
    · right
      simp only [Writing.file, lifecycleMessage, List.mem_cons, List.not_mem_nil, or_false] at hkv
      rcases hkv with rfl | rfl | rfl | rfl | rfl | rfl | rfl | rfl
      case inr.inr.inr.inr.inr.inl => exact h.safe_timestamp ts
      case inr.inr.inr.inr.inr.inr.inl => exact hstatus
      all_goals exact absurd hk (by simp [lit])
    · exact .inl (List.mem_filter.mpr ⟨hkv, by simpa using hk⟩)

theorem given_subset (w : Writing) : ∀ kv ∈ w.given py, kv ∈ (w.file py).fields := by
  rcases w with ⟨m, i, responder, comment, v | v⟩ | ⟨m, i, responder, text⟩ | ⟨ts, prefixed, e⟩
  · simp [Writing.given]
  · simp [Writing.given, Writing.file, broadcastDecision, rejectedMessage]
  · simp [Writing.given, Writing.file, replyMessage]
  · exact fun kv hkv => (List.mem_filter.mp hkv).1

/-- The keys of an envelope: those all of them have, and some more. -/
def envelopeKeys (more : List String) : List Text :=
  (["id", "from", "to", "priority", "type", "timestamp", "status"] ++ more).map lit

theorem envelopeKeys_ok : ∀ more ∈ [[], ["in_reply_to"], ["change"]],
    (envelopeKeys more).Nodup ∧ ∀ k ∈ envelopeKeys more, IsKey k := by
  decide

/-- Which keys a file has. -/
theorem keys_of_file (py : Python) (w : Writing) : ∃ more ∈ [[], ["in_reply_to"], ["change"]],
    (w.file py).fields.map Prod.fst = envelopeKeys more := by
  rcases w with ⟨m, i, responder, comment, v | v⟩ | ⟨m, i, responder, text⟩ | ⟨ts, prefixed, e⟩
  · exact ⟨[], by simp, rfl⟩
  · exact ⟨[], by simp, rfl⟩
  · exact ⟨["in_reply_to"], by simp, rfl⟩
  · exact ⟨["change"], by simp, rfl⟩

/-- **Which messages are recovered from their texts**: those of which every given value
resolves to itself, among all whose values are whole nodes of YAML. -/
theorem written_recovers_iff (h : Conforms py scalar node) (w : Writing)
    (hnode : ∀ kv ∈ w.given py, node kv.2) :
    Recovers py stem (w.file py) (w.file py).text ↔ ∀ kv ∈ w.given py, Faithful py scalar kv := by
  obtain ⟨more, hmore, hkeys⟩ := keys_of_file py w
  obtain ⟨hnd, hok⟩ := envelopeKeys_ok more hmore
  have hne : (w.file py).fields ≠ [] := fun hnil => by
    rw [hnil] at hkeys
    exact absurd hkeys (by simp [envelopeKeys])
  have hall : ∀ kv ∈ (w.file py).fields, node kv.2 := fun kv hkv =>
    (h.given_or_safe w kv hkv).elim (hnode kv) fun hs => h.load.plain _ hs.plain
  rw [recovers_iff h.load hne (hkeys ▸ hnd)
    (fun kv hkv => hok _ (hkeys ▸ List.mem_map_of_mem hkv)) hall]
  constructor
  · exact fun hf kv hkv => hf kv (given_subset w kv hkv)
  · exact fun hf kv hkv => (h.given_or_safe w kv hkv).elim (hf kv) Safe.faithful

/-- **Which messages come back**: those whose texts can all be encoded and of which every
given value resolves to itself, among all whose values are whole nodes of YAML. -/
theorem written_roundTrips_iff (h : Conforms py scalar node) (w : Writing)
    (hnode : ∀ kv ∈ w.given py, node kv.2) :
    RoundTrips py stem (w.file py) ↔
      (∀ t ∈ w.texts py, Encodable t) ∧ ∀ kv ∈ w.given py, Faithful py scalar kv := by
  rw [roundTrips_iff, w.encodable_file_iff, written_recovers_iff h w hnode]

end Writers

/-! ### A value that is no node -/

/-- What PyYAML makes of a scalar in double quotes as well, as far as line breaks are
concerned. -/
def quotedScalar (t : Text) : Except LoadError Value :=
  if t.head? = some '"'.toNat then
    .ok (.str (replacePair '\\'.toNat 'n'.toNat [10] (t.drop 1).dropLast))
  else plainScalar t

/-- A Python that reads those. -/
def quotingPython : Python where
  str := plainPython.str
  lower := Py.lower
  safeLoad := Yaml.loadLines quotedScalar .yaml

/-- `lower` leaves small letters alone. -/
theorem lower_eq_self {t : Text} (h : ∀ c ∈ t, 97 ≤ c ∧ c ≤ 122) : Py.lower t = t := by
  induction t with
  | nil => rfl
  | cons c t ih =>
    have hc := h c List.mem_cons_self
    have hchar : lowerChar c = [c] := by
      rw [lowerChar, if_neg, if_neg, if_neg]
      · omega
      · omega
      · rintro ⟨-, hle⟩
        have : c ≤ 90 := hle
        omega
    have hrest : Py.lower t = t := ih fun c hc => h c (List.mem_cons_of_mem _ hc)
    rw [Py.lower, List.flatMap_cons, hchar, ← Py.lower, hrest]
    rfl

theorem conforms_quotingPython : Conforms quotingPython quotedScalar Plain where
  load := by
    refine Yaml.loader_loadLines LoadError.yaml fun t hplain hstring => ?_
    have hquote : t.head? ≠ some '"'.toNat := by
      intro h
      obtain ⟨t, rfl⟩ := List.head?_eq_some_iff.mp h
      exact absurd hplain.starts (by simp [Yaml.startsPlain, Yaml.indicators, lit])
    rw [quotedScalar, if_neg hquote]
    exact loader_plainPython.string t hplain hstring
  time i := by
    unfold quotedScalar plainScalar
    split_ifs <;> exact ⟨_, rfl⟩
  lower _ h := lower_eq_self h

/-- A reply to the agent `infra`. -/
def plainReply : Writing :=
  .reply ⟨lit "req", [(.str (lit "from"), .str (lit "infra"))], []⟩ ⟨0, 0⟩ [] (lit "Why?")

/-- It comes back. -/
theorem written_roundTrips_reply : RoundTrips quotingPython [] (plainReply.file quotingPython) := by
  refine (written_roundTrips_iff conforms_quotingPython plainReply (by decide +kernel)).mpr
    ⟨by decide +kernel, fun kv hkv => ?_⟩
  have hvalues : ∀ kv ∈ plainReply.given quotingPython,
      kv.2.head? ≠ some '"'.toNat ∧ kv.2.all Yaml.isNumeral = false ∧ kv.1 ≠ lit "priority" := by
    decide +kernel
  obtain ⟨hquote, hnum, hkey⟩ := hvalues kv hkv
  refine ⟨.str kv.2, ?_, fun _ => rfl, fun hk => absurd hk hkey, fun _ => rfl⟩
  rw [quotedScalar, if_neg hquote, plainScalar, if_neg (by simp [hnum])]

/-- A request whose sender is a name of two lines. -/
def twoLineText : Text :=
  envelope [(lit "type", lit "spec-change-request"), (lit "from", lit "\"infra\\nchange: x\"")] []

/-- **The name of a sender adds a key**: a reply to such a request names a change. -/
theorem not_written_roundTrips : ¬∀ (py : Python) (scalar : Text → Except LoadError Value)
    (node : Text → Prop), Conforms py scalar node →
    ∀ (source stem : Text) (m : BusMessage) (i : Instant) (responder text : Text),
      parseBusFile py m.stem (some (.text source)) = .ok (some m) →
      RoundTrips py stem (replyMessage py m i responder text) := by
  intro h
  have htest : ((parseBusFile quotingPython (lit "req")
      (some (.text twoLineText))).toOption.join.any fun m => (parseBusFile quotingPython []
        (some (.text (replyMessage quotingPython m ⟨0, 0⟩ [] (lit "Why?")).text))).toOption.join.any
          fun m' => m'.frontmatter.length = 9) = true := by decide +kernel
  obtain ⟨m, hm, hread⟩ := (Option.any_eq_true ..).mp htest
  obtain ⟨m', hm', hlen⟩ := (Option.any_eq_true ..).mp hread
  have hsource := eq_ok_of_join hm
  rw [← stem_of_parseBusFile _ hsource] at hsource
  obtain ⟨m'', hm'', hkeys, -⟩ := (roundTrips_iff.mp (h quotingPython quotedScalar Plain
    conforms_quotingPython twoLineText [] m ⟨0, 0⟩ [] (lit "Why?") hsource)).2
  obtain rfl : m' = m'' := Option.some.inj (Except.ok.inj ((eq_ok_of_join hm').symm.trans hm''))
  have hcount := congrArg List.length hkeys
  rw [List.length_map, of_decide_eq_true hlen, List.length_map] at hcount
  exact absurd hcount (by simp [replyMessage])

end Bus

end OtamanBridge
