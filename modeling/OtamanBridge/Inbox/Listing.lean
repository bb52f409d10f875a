import OtamanBridge.Inbox.Marking
import OtamanBridge.Lib.PyInstant

/-!
# What `list_messages` returns

A listing takes the names of an inbox in descending order, reads the files one by one, and
stops when it has enough. In an inbox that the store has made from clean headers it returns
the first of the messages that pass its filters, the latest first: a name begins with the time
at which the message was sent, in digits of a fixed number, so that the order of names is that
of the times (`OtamanBridge.Inbox.timeStamp_lt`), and a clean message is read as it was sent,
marked or not (`OtamanBridge.Inbox.Ledger.shows`).
-/

namespace OtamanBridge

namespace Inbox

open Py Posix

/-! ### The order of names -/

/-- `ts`, field by field. -/
theorem timeStamp_iso (d : DateTime) : timeStamp d.iso =
    padded 4 d.year ++ (padded 2 d.month ++ (padded 2 d.day ++ (lit "T" ++ (padded 2 d.hour ++
      (padded 2 d.minute ++ (padded 2 d.second ++ lit "Z")))))) := by
  have hdigits : ∀ {width n c : ℕ}, c ∈ padded width n → c ≠ '-'.toNat ∧ c ≠ ':'.toNat := by
    intro width n c hc
    have hcodes : '-'.toNat = 45 ∧ ':'.toNat = 58 := by decide
    have := mem_padded hc
    omega
  have hpadded : ∀ width n, timeStamp (padded width n) = padded width n := by
    intro width n
    have hdash : (padded width n).filter (· ≠ '-'.toNat) = padded width n :=
      List.filter_eq_self.mpr fun c hc => decide_eq_true (hdigits hc).1
    have hcolon : (padded width n).filter (· ≠ ':'.toNat) = padded width n :=
      List.filter_eq_self.mpr fun c hc => decide_eq_true (hdigits hc).2
    rw [timeStamp, hdash, hcolon]
  have happend : ∀ s t, timeStamp (s ++ t) = timeStamp s ++ timeStamp t := by
    intro s t
    rw [timeStamp, List.filter_append, List.filter_append, timeStamp, timeStamp]
  have hlit : timeStamp (lit "-") = [] ∧ timeStamp (lit ":") = [] ∧
      timeStamp (lit "T") = lit "T" ∧ timeStamp (lit "Z") = lit "Z" := by decide
  simp only [DateTime.iso, happend, hpadded, hlit, List.nil_append, List.append_assoc]

/-- Time stamps of one length. -/
theorem length_timeStamp {d : DateTime} (h : d.Fits) : (timeStamp d.iso).length = 16 := by
  have hlit : (lit "T").length = 1 ∧ (lit "Z").length = 1 := by decide
  simp only [timeStamp_iso, List.length_append, length_padded (by omega : 0 < 4) h.year,
    length_padded (by omega : 0 < 2) h.month, length_padded (by omega : 0 < 2) h.day,
    length_padded (by omega : 0 < 2) h.hour, length_padded (by omega : 0 < 2) h.minute,
    length_padded (by omega : 0 < 2) h.second, hlit]

/-- **Time stamps without separators are in order, too.** -/
theorem timeStamp_lt {d e : DateTime} (hd : d.Fits) (he : e.Fits) (h : d.Before e) :
    timeStamp d.iso < timeStamp e.iso := by
  rw [timeStamp_iso, timeStamp_iso]
  refine padded_append_lt (by omega) hd.year he.year (h.imp_right fun h => ⟨h.1, ?_⟩)
  refine padded_append_lt (by omega) hd.month he.month (h.2.imp_right fun h => ⟨h.1, ?_⟩)
  refine padded_append_lt (by omega) hd.day he.day (h.2.imp_right fun h => ⟨h.1, ?_⟩)
  refine List.append_left_lt (padded_append_lt (by omega) hd.hour he.hour
    (h.2.imp_right fun h => ⟨h.1, ?_⟩))
  refine padded_append_lt (by omega) hd.minute he.minute (h.2.imp_right fun h => ⟨h.1, ?_⟩)
  exact append_lt_append (by rw [length_padded (by omega) hd.second,
    length_padded (by omega) he.second]) (padded_lt (by omega) h.2 he.second) _ _

/-- The message says that it was sent at this time. -/
def SentAt (x : StoredMessage) (t : ℕ) : Prop :=
  t < 253402300800 ∧ x.sentAt = (DateTime.ofTimestamp t).iso

/-- A name begins with the time. -/
theorem exists_fileName (d : Draft) (sentAt : Text) (attempt : ℕ) :
    ∃ rest, fileName (candidateId (d.baseId sentAt) attempt) = timeStamp sentAt ++ rest := by
  obtain ⟨e, -, -, heq⟩ := candidateId_eq d sentAt attempt
  exact ⟨_, by rw [fileName, heq, List.append_assoc, List.append_assoc]⟩

/-- A message that was sent earlier has an earlier name, whatever follows the time in it. -/
theorem fileName_lt {d d' : Draft} {a b : DateTime} {attempt attempt' : ℕ} (ha : a.Fits)
    (hb : b.Fits) (h : a.Before b) : fileName (candidateId (d.baseId a.iso) attempt) <
      fileName (candidateId (d'.baseId b.iso) attempt') := by
  obtain ⟨u, hu⟩ := exists_fileName d a.iso attempt
  obtain ⟨v, hv⟩ := exists_fileName d' b.iso attempt'
  rw [hu, hv]
  exact append_lt_append ((length_timeStamp ha).trans (length_timeStamp hb).symm)
    (timeStamp_lt ha hb h) u v

/-! ### Clean headers -/

/-- A value without line separators, and without blanks around it. -/
def Neat (t : Text) : Prop := OneLine t ∧ strip t = t

/-- A message whose header fields are neat. -/
structure Clean (m : StoredMessage) : Prop where
  fromUser : Neat m.fromUser
  fromEmail : ∀ t ∈ m.fromEmail, Neat t
  toUser : Neat m.toUser
  subject : Neat m.subject
  inReplyTo : ∀ t ∈ m.inReplyTo, Neat t
  type : ∀ t ∈ m.type, Neat t

/-- **What a listing shows of a message**: the message as it was sent, whoever has read it. -/
structure Shows (m x : StoredMessage) : Prop where
  id : x.id = m.id
  fromUser : x.fromUser = m.fromUser
  fromEmail : x.fromEmail.getD [] = m.fromEmail.getD []
  toUser : x.toUser = m.toUser
  subject : x.subject = m.subject
  sentAt : x.sentAt = m.sentAt
  inReplyTo : x.inReplyTo.getD [] = m.inReplyTo.getD []
  priority : x.priority = m.priority

variable {h : Host} {ops : List Op} {s : History} {m x : StoredMessage} {dir : Place Text}
  {userId raw path : Text}

theorem Neat.plain {t : Text} (h : Neat t) (hne : t ≠ []) : Plain t := .inr ⟨hne, h.2⟩

/-- A field that may be missing comes back, but for an empty value. -/
theorem getD_readValue {v : Option Text} (h : ∀ t ∈ v, Neat t) :
    (readValue (strip (32 :: yamlValue v))).getD [] = v.getD [] := by
  rcases v with _ | t
  · rw [readValue_none]
  · rcases eq_or_ne t [] with rfl | hne
    · decide
    · rw [(readValue_yamlValue_iff t).mpr ((h t rfl).plain hne)]

theorem Clean.inLines (hc : Clean m) (hm : WrittenBy ops m) : InLines m := by
  obtain ⟨now, d, attempt, -, hpriority, heq⟩ := hm
  have hfrom : d.fromUser = m.fromUser := by rw [heq]; rfl
  have hid : m.id = candidateId (d.baseId (DateTime.ofTimestamp now).iso) attempt := by
    rw [heq]; rfl
  have hsent : m.sentAt = (DateTime.ofTimestamp now).iso := by rw [heq]; rfl
  have hprio : m.priority = d.priority := by rw [heq]; rfl
  constructor
  · rw [hid]
    exact (kept_candidateId _ attempt (by rw [hfrom]; exact hc.fromUser.1)).1
  · exact hc.fromUser.1
  · exact fun t ht => (hc.fromEmail t ht).1
  · exact hc.toUser.1
  · exact hc.subject.1
  · rw [hsent]
    exact (kept_iso _).1
  · exact fun t ht => (hc.inReplyTo t ht).1
  · rw [hprio]
    exact (kept_of_mem_priorities hpriority).1
  · exact fun t ht => (hc.type t ht).1

/-- **A clean message is read as it was sent**, and by nobody yet. -/
theorem Clean.readMessage_renderMessage (hc : Clean m) (hm : WrittenBy ops m)
    (hfrom : m.fromUser ≠ []) (hto : m.toUser ≠ []) (path : Text) :
    ∃ x, readMessage path (.text (renderMessage m)) = .ok x ∧ x.readAt = none ∧ Shows m x := by
  have hin := hc.inLines hm
  obtain ⟨now, d, attempt, -, hpriority, heq⟩ := hm
  obtain ⟨hid, hfromUser, hemail, htoUser, hsubject, hsent, hread, hreply, hprio, -⟩ :=
    fields_headerText hin.header
  have must := fun {key t} (hf : readFields (headerText m) key =
    readValue (strip (32 :: yamlValue (some t)))) => (has_and_getD_iff hf).mpr
  have hmid : m.id = candidateId (d.baseId (DateTime.ofTimestamp now).iso) attempt := by
    rw [heq]; rfl
  have hmfrom : d.fromUser = m.fromUser := by rw [heq]; rfl
  have pid : Plain m.id := by
    rw [hmid]
    exact (kept_candidateId _ attempt (by rw [hmfrom]; exact hc.fromUser.1)).2
  have psent : Plain m.sentAt := by
    rw [show m.sentAt = (DateTime.ofTimestamp now).iso by rw [heq]; rfl]
    exact (kept_iso _).2
  have psubject : Plain m.subject := by
    refine hc.subject.plain ?_
    rw [show m.subject = d.effSubject by rw [heq]; rfl]
    obtain ⟨t, hne, hsub, -⟩ := effSubject_eq d
    rw [hsub]
    exact (strip_rstrip_take hne 79).1
  have pfrom := hc.fromUser.plain hfrom
  have pto := hc.toUser.plain hto
  rw [Inbox.readMessage_renderMessage hin.header]
  refine ⟨_, storedMessage_eq_ok.mpr ⟨?_, rfl⟩, hread, ?_⟩
  · intro r hmem
    simp only [required, List.map_cons, List.map_nil, List.mem_cons, List.not_mem_nil,
      or_false] at hmem
    rcases hmem with rfl | rfl | rfl | rfl | rfl
    · exact (must hid pid).1
    · exact (must hfromUser pfrom).1
    · exact (must htoUser pto).1
    · exact (must hsubject psubject).1
    · exact (must hsent psent).1
  · constructor
    · exact (must hid pid).2
    · exact (must hfromUser pfrom).2
    · exact (congrArg (fun v => v.getD []) hemail).trans (getD_readValue hc.fromEmail)
    · exact (must htoUser pto).2
    · exact (must hsubject psubject).2
    · exact (must hsent psent).2
    · exact (congrArg (fun v => v.getD []) hreply).trans (getD_readValue hc.inReplyTo)
    · refine (getOr_eq_iff hprio (by decide)).mpr (kept_of_mem_priorities ?_).2
      rw [show m.priority = d.priority by rw [heq]; rfl]
      exact hpriority

/-! ### Marked files -/

/-- A line of a header gives its own field. -/
theorem eq_of_says_headerLine {k v key : Text} (hk : KeyOk k) (hv : OneLine v)
    (hs : Says key (headerLine (k, v))) : key = k := by
  obtain ⟨piece, hpiece, k', v', hcut, rfl⟩ := hs
  have hline : OneLine (headerLine (k, v)) ∧ headerLine (k, v) ≠ [] := by
    obtain ⟨-, -, hne, -, hone⟩ := hk
    refine ⟨oneLine_append.mpr ⟨oneLine_append.mpr ⟨hone, by decide⟩, hv⟩, ?_⟩
    simp [headerLine, hne]
  rw [splitlines_of_oneLine hline.1 hline.2, List.mem_singleton] at hpiece
  rw [hpiece, cut_headerLine hk] at hcut
  rw [← (Prod.mk.inj (Option.some.inj hcut)).1, hk.2.1]

/-- The lines of a file with a clean header. -/
theorem linesOf_renderMessage (hin : InLines m) : ∃ rest, linesOf (renderMessage m) =
    lit "---" :: ((header m).map headerLine ++ lit "---" :: rest) := by
  have hlines : ∀ l ∈ [lit "---"] ++ (header m).map headerLine, 10 ∉ l ∧ 13 ∉ l := by
    have hbreak : ∀ {l : Text}, OneLine l → 10 ∉ l ∧ 13 ∉ l := fun hl =>
      ⟨fun hc => absurd (hl 10 hc) (by decide), fun hc => absurd (hl 13 hc) (by decide)⟩
    intro l hl
    rcases List.mem_append.mp hl with hl | hl
    · rw [List.mem_singleton.mp hl]
      decide
    · exact hbreak (headerLine_ok hin.header hl).1
  have hfirst : 13 ∉ joinLines ([lit "---"] ++ (header m).map headerLine) ++ [10] := by
    intro hc
    rcases List.mem_append.mp hc with hc | hc
    · rcases mem_joinLines hc with hc | ⟨l, hl, hc⟩
      · exact absurd hc (by decide)
      · exact (hlines l hl).2 hc
    · exact absurd hc (by decide)
  have hsecond : joinLines [lit "---", [], rstrip m.body ++ lit "\n"] =
      (lit "---" ++ [10]) ++ joinLines [[], rstrip m.body ++ lit "\n"] := by
    rw [joinLines_cons (by simp), List.append_assoc, List.singleton_append]
  have htext : universalNewlines (renderMessage m) =
      joinLines ([lit "---"] ++ (header m).map headerLine) ++ 10 ::
        (lit "---" ++ 10 :: universalNewlines (joinLines [[], rstrip m.body ++ lit "\n"])) := by
    rw [renderMessage, joinLines_append (by simp) (by simp), ← List.singleton_append (x := 10),
      ← List.append_assoc, universalNewlines_append hfirst, hsecond,
      universalNewlines_append (by decide)]
    simp
  refine ⟨(universalNewlines (joinLines [[], rstrip m.body ++ lit "\n"])).splitOn 10, ?_⟩
  rw [linesOf, htext, List.splitOn_append_cons_self,
    splitOn_joinLines (fun l hl => (hlines l hl).1) (by simp), List.splitOn_append_cons_self,
    List.splitOn_eq_singleton (by decide), List.singleton_append, List.singleton_append,
    List.cons_append]

theorem headLines_renderMessage (hin : InLines m) :
    headLines (renderMessage m) = (header m).map headerLine := by
  obtain ⟨rest, hlines⟩ := linesOf_renderMessage hin
  have hfence : ∀ l ∈ (header m).map headerLine, (!isFence l) = true := by
    intro l hl
    have hhead := (headerLine_ok hin.header hl).2.2
    rw [Bool.not_eq_true']
    by_contra hf
    obtain ⟨t, rfl⟩ := List.isPrefixOf_iff_prefix.mp (Bool.eq_true_of_not_eq_false hf)
    exact hhead rfl
  rw [headLines, hlines, List.tail_cons, List.takeWhile_append_of_pos hfence,
    List.takeWhile_cons_of_neg (by decide), List.append_nil]

/-- **The line that marking writes over is the field's own**, in a file with a clean header. -/
theorem ownLine_renderMessage (hin : InLines m) : OwnLine (renderMessage m) := by
  have hother : ∀ kv ∈ header m, kv.1 ≠ lit "read_at" → ¬Says (lit "read_at") (headerLine kv) :=
    fun kv hkv hne hs =>
      hne (eq_of_says_headerLine (keyOk_of_mem_header hkv) (hin.header kv hkv) hs).symm
  have hare : AreLines ((header m).map headerLine) := by
    intro l hl
    obtain ⟨hone, -, -⟩ := headerLine_ok hin.header hl
    exact ⟨fun hc => absurd (hone 10 hc) (by decide), fun hc => absurd (hone 13 hc) (by decide)⟩
  have hsplit : (header m).map headerLine = ((header m).take 6).map headerLine ++
      headerLine (lit "read_at", lit "null") :: ((header m).drop 7).map headerLine := rfl
  refine ⟨((header m).take 6).map headerLine, headerLine (lit "read_at", lit "null"),
    ((header m).drop 7).map headerLine, (headLines_renderMessage hin).trans hsplit, ?_, rfl, ?_, ?_⟩
  · intro l hl
    simp only [header, List.take_succ_cons, List.take_zero, List.map_cons, List.map_nil,
      List.mem_cons, List.not_mem_nil, or_false] at hl
    rcases hl with rfl | rfl | rfl | rfl | rfl | rfl <;> rfl
  · intro l hl
    obtain ⟨kv, hkv, rfl⟩ := List.mem_map.mp hl
    refine hother kv (List.mem_of_mem_drop hkv) ?_
    simp only [header, List.drop_succ_cons, List.drop_zero, List.mem_cons, List.not_mem_nil,
      or_false] at hkv
    have hkeys : ∀ k ∈ ["in_reply_to", "priority", "type"].map lit, k ≠ lit "read_at" := by decide
    rcases hkv with rfl | rfl | rfl
    · exact hkeys (lit "in_reply_to") (by decide)
    · exact hkeys (lit "priority") (by decide)
    · exact hkeys (lit "type") (by decide)
  · rw [hsplit] at hare
    refine sameFields_of_ne fun k hk => ?_
    have hrest : AreLines (((header m).take 6).map headerLine ++
        ((header m).drop 7).map headerLine) := by
      intro l hl
      refine hare l ?_
      rcases List.mem_append.mp hl with hl | hl
      · exact List.mem_append_left _ hl
      · exact List.mem_append_right _ (List.mem_cons_of_mem _ hl)
    rw [fieldsIn_eq hare, fieldsIn_eq hrest, fieldsFrom_append, fieldsFrom_append,
      fieldsFrom_cons]
    refine fieldsFrom_congr (fieldsFrom_of_unsaid ?_).symm
    intro l hl hs
    rw [List.mem_singleton.mp hl] at hs
    have hmem : (lit "read_at", lit "null") ∈ header m := by simp [header]
    exact hk (eq_of_says_headerLine (keyOk_of_mem_header hmem) (by decide) hs)

/-! ### The messages of an inbox -/

/-- The message is in the inbox of a user, as it was sent but perhaps marked. -/
def InInbox (h : Host) (s : History) (userId : Text) (x : StoredMessage) : Prop :=
  ∃ m ∈ s.sent, m.toUser = userId ∧ Shows m x ∧
    ∃ dir, activeDir h userId = .ok dir ∧ messageAt s.disk dir (fileName m.id) = some x

/-- Every message has a sender. -/
theorem Produced.fromUser_ne_nil (hp : Produced h ops s) : ∀ m ∈ s.sent, m.fromUser ≠ [] := by
  obtain ⟨disk, -, hrun⟩ := hp
  refine Lts.Run.inv_state (I := fun s => ∀ m ∈ s.sent, m.fromUser ≠ [])
    (fun m hm => absurd hm List.not_mem_nil) ?_ hrun
  rintro s op s' hs rfl m hm
  cases op with
  | mark now userId messageId markAll => exact hs m hm
  | write now d =>
    rcases List.mem_append.mp hm with hm | hm
    · rcases hw : writeMessage h now s.disk d with ⟨disk', e | m'⟩
      · simp [hw, Except.toOption] at hm
      · obtain rfl : m = m' := by simpa [hw, Except.toOption] using hm
        obtain ⟨disk₁, p, hr, -, -⟩ := writeMessage_eq_ok hw
        obtain ⟨-, attempt, -, -, -, -, heq⟩ := reserve_eq_ok hr
        rw [heq]
        show d.fromUser ≠ []
        intro hnil
        have href : d.refused h = some (.value (lit "from_user and to_user are required")) :=
          if_pos (.inl hnil)
        simp [reserve, href] at hr
    · exact hs m hm

/-- **Every clean message is there to be listed**, marked or not. -/
theorem Ledger.shows (hl : Ledger h ops s) (hm : m ∈ s.sent) (hc : Clean m)
    (hfrom : m.fromUser ≠ []) (hdir : activeDir h m.toUser = .ok dir) :
    ∃ x, messageAt s.disk dir (fileName m.id) = some x ∧ Shows m x := by
  obtain ⟨hslash, dir', raw, hdir', hraw, hversion⟩ := hl.filed m hm
  obtain rfl := Except.ok.inj (hdir'.symm.trans hdir)
  have hwritten := hl.written m hm
  have hmd := (messageName_fileName hslash).1
  obtain ⟨x, hread, hunread, hshows⟩ := hc.readMessage_renderMessage hwritten hfrom
    (activeDir_eq_ok hdir).1 (pathText dir' [.down (fileName m.id)])
  rcases hversion with rfl | ⟨when, hwhen, rfl⟩
  · exact ⟨x, messageAt_eq_some.mpr ⟨hmd, _, hraw, hread⟩, hshows⟩
  · refine ⟨{ x with readAt := some when }, messageAt_eq_some.mpr ⟨hmd, _, hraw, ?_⟩,
      ⟨hshows.id, hshows.fromUser, hshows.fromEmail, hshows.toUser, hshows.subject, hshows.sentAt,
        hshows.inReplyTo, hshows.priority⟩⟩
    exact (readMessage_markedText_iff (headed_renderMessage m) hread hunread hwhen).mpr
      (ownLine_renderMessage (hc.inLines hwritten))

/-! ### The loop -/

/-- **The loop of `list_messages`** takes the first wanted ones of the messages it can read. -/
theorem collect_eq {disk : Disk} {f : Filter} {wanted : StoredMessage → Bool} {ns : List Text}
    (hw : ∀ n ∈ ns, ∀ x, messageAt disk dir n = some x → f.wants x = .ok (wanted x)) (k : ℕ) :
    collect disk dir f ns k =
      .ok (((ns.filterMap (messageAt disk dir)).filter wanted).take k) := by
  induction ns generalizing k with
  | nil => rw [collect, List.filterMap_nil, List.filter_nil, List.take_nil]
  | cons n ns ih =>
    have ih' := ih fun n hn => hw n (List.mem_cons_of_mem _ hn)
    rcases k with _ | k
    · rw [collect, List.take_zero]
      exact List.cons_ne_nil n ns
    · rw [collect]
      rcases hm : messageAt disk dir n with _ | x
      · rw [List.filterMap_cons_none hm]
        exact ih' (k + 1)
      · have hx := hw n List.mem_cons_self x hm
        rw [List.filterMap_cons_some hm]
        simp only [hx]
        rcases hwx : wanted x with _ | _
        · rw [List.filter_cons_of_neg (by simp [hwx])]
          exact ih' (k + 1)
        · rw [List.filter_cons_of_pos hwx, List.take_succ_cons]
          simp only [ih' k]
          rfl

/-- The names that gave something, in their order. -/
theorem map_filterMap_sublist {α β : Type*} {f : α → Option β} {g : β → α} {as : List α}
    (h : ∀ a ∈ as, ∀ b, f a = some b → g b = a) : ((as.filterMap f).map g).Sublist as := by
  induction as with
  | nil => exact .slnil
  | cons a as ih =>
    have ih' := ih fun a ha => h a (List.mem_cons_of_mem _ ha)
    rcases hf : f a with _ | b
    · rw [List.filterMap_cons_none hf]
      exact ih'.cons a
    · rw [List.filterMap_cons_some hf, List.map_cons, h a List.mem_cons_self b hf]
      exact ih'.cons_cons a

/-! ### Filters -/

/-- What a caller may ask for: a time is given as messages have theirs. -/
structure Query where
  unreadOnly : Bool
  fromUser : Option Text
  since : Option DateTime

/-- The arguments of `list_messages` for it. -/
def Query.filter (q : Query) : Filter where
  unreadOnly := q.unreadOnly
  fromUser := q.fromUser.elim .none .str
  since := q.since.elim .none fun d => .str d.iso

/-- **The message satisfies all filters.** An empty sender is none. -/
structure Query.Wants (q : Query) (x : StoredMessage) : Prop where
  unread : q.unreadOnly → x.readAt = none
  sender : ∀ u ∈ q.fromUser, u ≠ [] → x.fromUser = u
  later : ∀ d ∈ q.since, ∃ t, SentAt x t ∧ d.Before (DateTime.ofTimestamp t)

/-- The filters of the loop, called with texts. -/
theorem wants_texts (unreadOnly : Bool) (fromUser since : Option Text) (x : StoredMessage) :
    ∃ b, Filter.wants ⟨unreadOnly, fromUser.elim .none .str, since.elim .none .str⟩ x = .ok b ∧
      (b = true ↔ (unreadOnly = true → x.readAt = none) ∧
        (∀ u ∈ fromUser, u ≠ [] → x.fromUser = u) ∧ ∀ t ∈ since, t ≠ [] → t < x.sentAt) := by
  refine ⟨!(unreadOnly && x.readAt.isSome) && ((fromUser.all fun u => u = [] || u = x.fromUser) &&
    since.all fun t => t = [] || t < x.sentAt), ?_, ?_⟩
  · generalize hr : (unreadOnly && x.readAt.isSome) = read
    rcases fromUser with _ | u <;> rcases since with _ | t <;>
      simp only [Filter.wants, Option.elim, Value.truthy, hr]
    · cases read <;> rfl
    · cases read <;> by_cases ht : t = [] <;> simp [ht]
    · cases read <;> by_cases hu : u = [] <;> by_cases hx : u = x.fromUser <;> simp [hu, hx]
    · cases read <;> by_cases hu : u = [] <;> by_cases hx : u = x.fromUser <;>
        by_cases ht : t = [] <;> simp [hu, hx, ht]
  · have hunread : (unreadOnly && x.readAt.isSome) = false ↔
        (unreadOnly = true → x.readAt = none) := by
      cases unreadOnly <;> simp
    have hsender : (fromUser.all fun u => u = [] || u = x.fromUser) = true ↔
        ∀ u ∈ fromUser, u ≠ [] → x.fromUser = u := by
      simp only [Option.all_eq_true, Bool.or_eq_true, decide_eq_true_eq, eq_comm (b := x.fromUser),
        or_iff_not_imp_left, ne_eq, Option.mem_def]
    have hsince : (since.all fun t => t = [] || t < x.sentAt) = true ↔
        ∀ t ∈ since, t ≠ [] → t < x.sentAt := by
      simp only [Option.all_eq_true, Bool.or_eq_true, decide_eq_true_eq, or_iff_not_imp_left,
        ne_eq, Option.mem_def]
    rw [Bool.and_eq_true, Bool.and_eq_true, Bool.not_eq_true', hunread, hsender, hsince]

/-- The filters of the loop are those that were asked for. -/
theorem Query.wants_filter (q : Query) (hq : ∀ d ∈ q.since, d.Fits) {t : ℕ} (ht : SentAt x t) :
    ∃ b, q.filter.wants x = .ok b ∧ (b = true ↔ q.Wants x) := by
  obtain ⟨unreadOnly, fromUser, since⟩ := q
  have hlater : ∀ d ∈ since, (d.iso < x.sentAt ↔
      ∃ t, SentAt x t ∧ d.Before (DateTime.ofTimestamp t)) := by
    intro d hd
    have heq : ∀ {t}, SentAt x t → (d.iso < x.sentAt ↔ d.Before (DateTime.ofTimestamp t)) := by
      intro t ht
      rw [ht.2]
      exact DateTime.iso_lt_iff (hq d hd) (DateTime.fits_ofTimestamp ht.1)
    constructor
    · exact fun hlt => ⟨t, ht, (heq ht).mp hlt⟩
    · rintro ⟨t', ht', hbefore⟩
      exact (heq ht').mpr hbefore
  have hiso : ∀ d : DateTime, d.iso ≠ [] := fun d => (kept_iso d).2.ne_nil
  obtain ⟨b, hb, hiff⟩ := wants_texts unreadOnly fromUser (since.map DateTime.iso) x
  refine ⟨b, ?_, hiff.trans ⟨?_, ?_⟩⟩
  · simp only [← hb, Query.filter, Option.elim_map, Function.comp_def]
  · rintro ⟨hunread, hsender, hsince⟩
    refine ⟨hunread, hsender, fun d hd => (hlater d hd).mp ?_⟩
    exact hsince _ (Option.mem_map_of_mem _ hd) (hiso d)
  · rintro ⟨hunread, hsender, hsince⟩
    refine ⟨hunread, hsender, fun t ht _ => ?_⟩
    obtain ⟨d, hd, rfl⟩ := Option.mem_map.mp ht
    exact (hlater d hd).mpr (hsince d hd)

/-! ### The listing -/

/-- The messages of a directory, in the order in which the loop reads them. -/
def found (disk : Disk) (dir : Place Text) : List StoredMessage :=
  ((disk.names dir).insertionSort (· ≥ ·)).filterMap (messageAt disk dir)

theorem mem_found {disk : Disk} : x ∈ found disk dir ↔ ∃ n, messageAt disk dir n = some x := by
  rw [found, List.mem_filterMap]
  constructor
  · exact fun ⟨n, _, hx⟩ => ⟨n, hx⟩
  · rintro ⟨n, hx⟩
    refine ⟨n, (List.mem_insertionSort _).mpr (Fs.mem_names.mpr ?_), hx⟩
    obtain ⟨-, content, hread, -⟩ := messageAt_eq_some.mp hx
    rcases hnode : disk.node (n :: dir) with _ | y
    · rw [Fs.read, hnode] at hread
      exact absurd hread (by simp)
    · rfl

/-- An inbox that the store has made, of messages with clean headers. -/
structure CleanInbox (h : Host) (ops : List Op) (s : History) (userId : Text) (dir : Place Text) :
    Prop where
  ledger : Ledger h ops s
  sender : ∀ m ∈ s.sent, m.fromUser ≠ []
  times : ∀ now d, Op.write now d ∈ ops → now < 253402300800
  clean : ∀ m ∈ s.sent, m.toUser = userId → Clean m
  place : activeDir h userId = .ok dir

namespace CleanInbox

variable (hi : CleanInbox h ops s userId dir)

include hi

/-- What is listed is a message of the inbox, from the file of its name. -/
theorem of_messageAt {n : Text} (hx : messageAt s.disk dir n = some x) :
    ∃ m ∈ s.sent, m.toUser = userId ∧ n = fileName m.id ∧ Shows m x := by
  obtain ⟨raw, hraw, hhead, -⟩ := hi.ledger.headed hi.place hx
  obtain ⟨-, -, hnil | ⟨m, hm, hto, rfl⟩⟩ := hi.ledger.only userId dir n _ hi.place hraw
  · exact absurd (Content.text.inj hnil) hhead.ne_nil
  · obtain ⟨x', hx', hshows⟩ := hi.ledger.shows hm (hi.clean m hm hto) (hi.sender m hm)
      (by rw [hto]; exact hi.place)
    obtain rfl := Option.some.inj (hx'.symm.trans hx)
    exact ⟨m, hm, hto, rfl, hshows⟩

theorem fileName_of_messageAt {n : Text} (hx : messageAt s.disk dir n = some x) :
    fileName x.id = n := by
  obtain ⟨m, -, -, rfl, hshows⟩ := hi.of_messageAt hx
  rw [hshows.id]

theorem inInbox_iff : InInbox h s userId x ↔ x ∈ found s.disk dir := by
  rw [mem_found]
  constructor
  · rintro ⟨m, hm, hto, -, dir', hdir', hx⟩
    obtain rfl := Except.ok.inj (hdir'.symm.trans hi.place)
    exact ⟨_, hx⟩
  · rintro ⟨n, hx⟩
    obtain ⟨m, hm, hto, rfl, hshows⟩ := hi.of_messageAt hx
    exact ⟨m, hm, hto, hshows, dir, hi.place, hx⟩

/-- The name of a message that is listed begins with the time it was sent at. -/
theorem named (hx : x ∈ found s.disk dir) : ∃ (d : Draft) (attempt t : ℕ), SentAt x t ∧
    x.id = candidateId (d.baseId (DateTime.ofTimestamp t).iso) attempt := by
  obtain ⟨n, hx⟩ := mem_found.mp hx
  obtain ⟨m, hm, -, -, hshows⟩ := hi.of_messageAt hx
  obtain ⟨t, d, attempt, hin, -, heq⟩ := hi.ledger.written m hm
  refine ⟨d, attempt, t, ⟨hi.times t d hin, ?_⟩, ?_⟩
  · rw [hshows.sentAt, heq]
    rfl
  · rw [hshows.id, heq]
    rfl

/-- The names of the messages that are listed, in the order of the loop. -/
theorem names_sublist : ((found s.disk dir).map fun x => fileName x.id).Sublist
    ((s.disk.names dir).insertionSort (· ≥ ·)) :=
  map_filterMap_sublist fun _ _ _ hx => hi.fileName_of_messageAt hx

theorem nodup_found : ((found s.disk dir).map StoredMessage.id).Nodup := by
  have hnames : ((found s.disk dir).map fun x => fileName x.id).Nodup :=
    hi.names_sublist.nodup ((List.perm_insertionSort _ _).nodup_iff.mpr (Fs.nodup_names _ _))
  refine List.Nodup.of_map fileName ?_
  rwa [List.map_map]

/-- **The latest come first.** -/
theorem found_sorted :
    (found s.disk dir).Pairwise fun x y => ∃ t t', SentAt x t ∧ SentAt y t' ∧ t' ≤ t := by
  have hnames : (found s.disk dir).Pairwise fun x y => fileName x.id ≥ fileName y.id :=
    List.pairwise_map.mp ((List.pairwise_insertionSort (· ≥ ·) _).sublist hi.names_sublist)
  refine hnames.imp_of_mem fun {x y} hx hy hge => ?_
  obtain ⟨d, attempt, t, ht, hid⟩ := hi.named hx
  obtain ⟨d', attempt', t', ht', hid'⟩ := hi.named hy
  refine ⟨t, t', ht, ht', ?_⟩
  by_contra hlt
  rw [hid, hid'] at hge
  exact absurd (fileName_lt (DateTime.fits_ofTimestamp ht.1) (DateTime.fits_ofTimestamp ht'.1)
    (DateTime.before_ofTimestamp_iff.mpr (not_le.mp hlt))) (not_lt.mpr hge)

/-- The listing is what the loop finds, filtered and cut. -/
theorem listMessages_eq {f : Filter} {wanted : StoredMessage → Bool}
    (hw : ∀ x ∈ found s.disk dir, f.wants x = .ok (wanted x)) {limit : ℤ}
    (hlimit : 1 ≤ limit ∧ limit ≤ 200) : listMessages h s.disk userId f limit =
      .ok (((found s.disk dir).filter wanted).take limit.toNat) := by
  rw [listMessages, if_neg (by omega), hi.place]
  rcases hexists : s.disk.isDir dir with _ | _
  · -- no directory, and no messages
    have hnil : found s.disk dir = [] := by
      rw [List.eq_nil_iff_forall_not_mem]
      intro x hx
      obtain ⟨n, hx⟩ := mem_found.mp hx
      obtain ⟨-, content, hread, -⟩ := messageAt_eq_some.mp hx
      rw [(hi.ledger.only userId dir n content hi.place hread).1] at hexists
      exact absurd hexists (by simp)
    rw [hnil, List.filter_nil, List.take_nil]
    exact if_pos (by rw [hexists]; rfl)
  · refine (if_neg (by rw [hexists]; simp)).trans (collect_eq (fun n _ x hx => ?_) _)
    exact hw x (mem_found.mpr ⟨n, hx⟩)

end CleanInbox

/-- **A listing is exact.** In an inbox that the store has made, with messages whose header
fields are neat: every message can be read; and `list_messages` returns the first of all those
that satisfy its filters, in an order in which none is followed by a later one. -/
theorem listMessages_exact (hp : Produced h ops s)
    (hnow : ∀ now d, Op.write now d ∈ ops → now < 253402300800)
    (hclean : ∀ m ∈ s.sent, m.toUser = userId → Clean m)
    (hdir : activeDir h userId = .ok dir) (q : Query) (hq : ∀ d ∈ q.since, d.Fits) {limit : ℤ}
    (hlimit : 1 ≤ limit ∧ limit ≤ 200) :
    (∀ m ∈ s.sent, m.toUser = userId → ∃ x, InInbox h s userId x ∧ x.id = m.id) ∧
    ∃ all : List StoredMessage,
      listMessages h s.disk userId q.filter limit = .ok (all.take limit.toNat) ∧
      (∀ x, x ∈ all ↔ InInbox h s userId x ∧ q.Wants x) ∧
      (all.map StoredMessage.id).Nodup ∧
      all.Pairwise fun x y => ∃ t t', SentAt x t ∧ SentAt y t' ∧ t' ≤ t := by
  classical
  have hi : CleanInbox h ops s userId dir :=
    ⟨hp.ledger, hp.fromUser_ne_nil, hnow, hclean, hdir⟩
  have hwants : ∀ x ∈ found s.disk dir, q.filter.wants x = .ok (decide (q.Wants x)) := by
    intro x hx
    obtain ⟨-, -, t, ht, -⟩ := hi.named hx
    obtain ⟨b, hb, hiff⟩ := q.wants_filter hq ht
    rw [hb, ← hiff, Bool.decide_eq_true]
  refine ⟨fun m hm hto => ?_, _, hi.listMessages_eq hwants hlimit, fun x => ?_, ?_, ?_⟩
  · obtain ⟨x, hx, hshows⟩ := hi.ledger.shows hm (hclean m hm hto) (hi.sender m hm)
      (by rw [hto]; exact hdir)
    exact ⟨x, hi.inInbox_iff.mpr (mem_found.mpr ⟨_, hx⟩), hshows.id⟩
  · rw [List.mem_filter, hi.inInbox_iff, decide_eq_true_iff]
  · exact (List.filter_sublist.map StoredMessage.id).nodup hi.nodup_found
  · exact hi.found_sorted.sublist List.filter_sublist

/-- Notes that are asked for, by the user who sent them and the time. -/
def askedFor : Query where
  unreadOnly := true
  fromUser := some (lit "user-A")
  since := some (DateTime.ofTimestamp 1779105599)

theorem listMessages_exact_note : ∃ all : List StoredMessage,
    listMessages someHost (oneNote (lit "s")).disk (lit "user-B") askedFor.filter 1 =
      .ok (all.take 1) ∧
    ∀ x, x ∈ all ↔ InInbox someHost (oneNote (lit "s")) (lit "user-B") x ∧ askedFor.Wants x := by
  have hnow : ∀ now d, Op.write now d ∈ [Op.write 1779105600 (note (lit "s"))] →
      now < 253402300800 := by
    intro now d hin
    have hop : Op.write now d = Op.write 1779105600 (note (lit "s")) := List.mem_singleton.mp hin
    rw [(Op.write.inj hop).1]
    decide
  have hclean : ∀ m ∈ (oneNote (lit "s")).sent, m.toUser = lit "user-B" → Clean m := by
    have hneat : ∀ m ∈ (oneNote (lit "s")).sent,
        (OneLine m.fromUser ∧ strip m.fromUser = m.fromUser) ∧
        (∀ t ∈ m.fromEmail, OneLine t ∧ strip t = t) ∧
        (OneLine m.toUser ∧ strip m.toUser = m.toUser) ∧
        (OneLine m.subject ∧ strip m.subject = m.subject) ∧
        (∀ t ∈ m.inReplyTo, OneLine t ∧ strip t = t) ∧
        ∀ t ∈ m.type, OneLine t ∧ strip t = t := by
      decide +kernel
    intro m hm _
    obtain ⟨hfrom, hemail, hto, hsubject, hreply, htype⟩ := hneat m hm
    exact ⟨hfrom, hemail, hto, hsubject, hreply, htype⟩
  have hfits : ∀ d ∈ askedFor.since, d.Fits := by
    intro d hd
    rw [← Option.some.inj hd]
    exact DateTime.fits_ofTimestamp (by decide)
  obtain ⟨-, all, hlist, hall, -, -⟩ := listMessages_exact (produced_oneNote (lit "s")) hnow hclean
    activeDir_userB askedFor hfits (by decide : (1 : ℤ) ≤ 1 ∧ (1 : ℤ) ≤ 200)
  exact ⟨all, hlist, hall⟩

end Inbox

end OtamanBridge
