import Mathlib.Data.List.Sort
import OtamanBridge.Inbox.Message
import OtamanBridge.Lib.FileSystem
import OtamanBridge.Lib.PyTime

/-!
# The inboxes of a bridge

`inbox.py` on a file system: how a message gets its name and its file, which messages a
listing finds, and how a message is marked as read. User ids and message ids become
components of paths as they are; `_active_dir` refuses a user id with a separator or two
dots in it, and nothing refuses such a message id.
-/

namespace OtamanBridge

namespace Inbox

open Py Posix

/-- The disk of a bridge. -/
abbrev Disk := Fs Text Content

/-- What an inbox store runs on: where the inboxes are, which names the file system takes,
and the texts that Python has for values and errors. -/
structure Host where
  root : Place Text
  accepts : Text → Bool
  /-- `repr(v)`. -/
  repr : Value → Text
  /-- `str(v)` of a value that is not a string. -/
  str : Value → Text
  /-- The message of the `UnicodeEncodeError` for a text. -/
  encodeError : Text → Text
  /-- The text may be a path: it has no NUL, and the encoding of the file system takes it. -/
  isPath : Text → Bool
  /-- The message of the exception about a path. -/
  osError : Text → Text

/-- A host with an inbox root. -/
def someHost : Host where
  root := [lit "inboxes"]
  accepts _ := true
  repr _ := []
  str _ := []
  encodeError _ := []
  isPath _ := true
  osError _ := []

/-- `str(exc)`. -/
def Failure.message (h : Host) : Failure → Text
  | .value message => message
  | .encode t => h.encodeError t
  | .decode message => message
  | .runtime message => message
  | .os path => h.osError path
  | .type message => message

/-- Whether an exception is a `ValueError`. -/
def Failure.isValueError : Failure → Bool
  | .value _ => true
  | .encode _ => true
  | .decode _ => true
  | _ => false

/-- The exception about a path that cannot be used: a `ValueError` if it is no path at all. -/
def pathFailure (h : Host) (path : Text) : Failure :=
  if h.isPath path then .os path else .value (h.osError path)

/-! ### Paths -/

/-- What `pathlib` makes of a component between two separators. -/
def toHop (t : Text) : Option (Hop Text) :=
  if t = [] ∨ t = lit "." then none else if t = lit ".." then some .up else some (.down t)

/-- The components of a relative path. -/
def hops (t : Text) : List (Hop Text) := (t.splitOn '/'.toNat).filterMap toHop

theorem hops_of_single {t : Text} (hslash : '/'.toNat ∉ t) : hops t = (toHop t).toList := by
  rw [hops, List.splitOn_eq_singleton hslash]
  rcases h : toHop t with _ | hop <;> simp [h]

/-- A separator takes a path apart. -/
theorem hops_append_cons (s t : Text) : hops (s ++ '/'.toNat :: t) = hops s ++ hops t := by
  rw [hops, List.splitOn_append_cons_self, List.filterMap_append, hops, hops]

/-- A text that ends with `.md` does so after its last separator. -/
theorem splitOn_md (t : Text) : ∃ pre m,
    (t ++ lit ".md").splitOn '/'.toNat = pre ++ [m ++ lit ".md"] := by
  induction t with
  | nil => exact ⟨[], [], by decide⟩
  | cons c t ih =>
    obtain ⟨pre, m, h⟩ := ih
    rw [List.cons_append, List.splitOn_cons_eq_if_modifyHead, h]
    split_ifs
    · exact ⟨[] :: pre, m, rfl⟩
    · cases pre with
      | nil => exact ⟨[], c :: m, rfl⟩
      | cons x pre => exact ⟨(c :: x) :: pre, m, rfl⟩

theorem toHop_md (m : Text) : toHop (m ++ lit ".md") = some (.down (m ++ lit ".md")) := by
  have hlong : ∀ s : Text, s.length < 3 → m ++ lit ".md" ≠ s := by
    rintro s hs rfl
    rw [List.length_append, show (lit ".md").length = 3 from rfl] at hs
    omega
  rw [toHop, if_neg (not_or.mpr ⟨hlong _ (by decide), hlong _ (by decide)⟩),
    if_neg (hlong _ (by decide))]

/-- So its path ends with a name. -/
theorem hops_md (t : Text) : ∃ init n, hops (t ++ lit ".md") = init ++ [.down n] := by
  obtain ⟨pre, m, h⟩ := splitOn_md t
  refine ⟨pre.filterMap toHop, m ++ lit ".md", ?_⟩
  rw [hops, h, List.filterMap_append, List.filterMap_cons_some (toHop_md m), List.filterMap_nil]

/-- A component of a path, written out. -/
def hopText : Hop Text → Text
  | .up => lit ".."
  | .down n => n

/-- `str(path)` of the path with these components from a place. -/
def pathText (p : Place Text) (hs : List (Hop Text)) : Text :=
  (p.reverse ++ hs.map hopText).flatMap fun n => lit "/" ++ n

/-- `_active_dir`. -/
def activeDir (h : Host) (userId : Text) : Except Failure (Place Text) :=
  if userId = [] ∨ '/'.toNat ∈ userId ∨ lit ".." <:+: userId then
    .error (.value (lit "invalid user_id: " ++ h.repr (.str userId)))
  else .ok (lit "active" :: (hops userId).foldl (fun p hop => hop.go p) h.root)

/-! ### Names of messages -/

/-- `_short_user_id`. -/
def shortUserId (userId : Text) : Text :=
  if userId = [] then lit "unknown" else userId.take 8

/-- `re.sub("[...]+", new, t)`, of the runs of a class of characters. -/
def squeeze (cls : ℕ → Bool) (new : ℕ) : Text → Text
  | [] => []
  | c :: t =>
    if cls c then if t.head?.any cls then squeeze cls new t else new :: squeeze cls new t
    else c :: squeeze cls new t

/-- `[a-zA-Z0-9_-]`. -/
def slugChar (c : ℕ) : Bool :=
  ('a'.toNat ≤ c && c ≤ 'z'.toNat) || ('A'.toNat ≤ c && c ≤ 'Z'.toNat) ||
    ('0'.toNat ≤ c && c ≤ '9'.toNat) || c = '_'.toNat || c = '-'.toNat

/-- `_slugify`. -/
def slugify (t : Text) : Text :=
  let s := squeeze (fun c => !slugChar c) '-'.toNat (lower (strip t))
  let s := squeeze (· = '-'.toNat) '-'.toNat s
  let s := (s.dropWhile (· = '-'.toNat)).rdropWhile (· = '-'.toNat)
  if s = [] then lit "msg" else s

/-- `MAX_SUBJECT_LEN`. -/
def maxSubjectLen : ℕ := 80

/-- `MAX_SLUG_LEN`. -/
def maxSlugLen : ℕ := 32

/-- `_derive_subject`: the first line that is not blank, without its Markdown leaders. -/
def deriveSubject (body : Text) : Text :=
  match ((splitlines body).map strip).find? (· ≠ []) with
  | none => []
  | some line =>
    let leaders := line.takeWhile (· ∈ lit "#>*-")
    let line := if leaders = [] then line else lstrip (line.drop leaders.length)
    line.take maxSubjectLen

/-- The arguments of `write_message`. -/
structure Draft where
  fromUser : Text
  fromEmail : Option Text
  toUser : Text
  body : Text
  subject : Option Text := none
  inReplyTo : Option Text := none
  priority : Text := lit "normal"
  msgType : Option Text := some (lit "chat")

/-- `subject or _derive_subject(body)`. -/
def Draft.givenSubject (d : Draft) : Text :=
  match d.subject with
  | none => deriveSubject d.body
  | some t => if t = [] then deriveSubject d.body else t

/-- `eff_subject`. -/
def Draft.effSubject (d : Draft) : Text :=
  let subject :=
    if strip d.givenSubject = [] then lit "(no subject)" else strip d.givenSubject
  if maxSubjectLen < subject.length then rstrip (subject.take maxSubjectLen) else subject

/-- `ts`: the time without hyphens and colons. -/
def timeStamp (sentAt : Text) : Text :=
  (sentAt.filter (· ≠ '-'.toNat)).filter (· ≠ ':'.toNat)

/-- `base_id`. -/
def Draft.baseId (d : Draft) (sentAt : Text) : Text :=
  timeStamp sentAt ++ lit "-" ++ shortUserId d.fromUser ++ lit "-" ++
    (slugify d.effSubject).take maxSlugLen

/-- `candidate_id`. -/
def candidateId (baseId : Text) (attempt : ℕ) : Text :=
  if attempt = 0 then baseId else baseId ++ lit "-" ++ decimal attempt

/-- The file name of a message. -/
def fileName (id : Text) : Text := id ++ lit ".md"

/-- Visible characters that mean nothing in a path. -/
def NameChar (c : ℕ) : Prop := isSpace c = false ∧ c ≠ '/'.toNat ∧ c ≠ '.'.toNat

theorem mem_squeeze {cls : ℕ → Bool} {new c : ℕ} {t : Text} (h : c ∈ squeeze cls new t) :
    c = new ∨ (c ∈ t ∧ cls c = false) := by
  induction t with
  | nil => simp [squeeze] at h
  | cons x t ih =>
    have ih' : c ∈ squeeze cls new t → c = new ∨ (c ∈ x :: t ∧ cls c = false) :=
      fun h => (ih h).imp_right fun h => ⟨List.mem_cons_of_mem _ h.1, h.2⟩
    unfold squeeze at h
    split_ifs at h with hx hnext
    · exact ih' h
    · rcases List.mem_cons.mp h with rfl | h
      · exact .inl rfl
      · exact ih' h
    · rcases List.mem_cons.mp h with rfl | h
      · exact .inr ⟨List.mem_cons_self, by simpa using hx⟩
      · exact ih' h

/-- A slug is made of letters, digits, underscores and hyphens. -/
theorem slugChar_of_mem_slugify {t : Text} {c : ℕ} (h : c ∈ slugify t) : slugChar c := by
  simp only [slugify] at h
  split_ifs at h with hs
  · exact (by decide : ∀ c ∈ lit "msg", slugChar c) c h
  · have h₁ := (List.rdropWhile_prefix _ _).subset h
    have h₂ := (List.dropWhile_suffix _).subset h₁
    rcases mem_squeeze h₂ with rfl | ⟨h₃, -⟩
    · decide
    · rcases mem_squeeze h₃ with rfl | ⟨-, h₄⟩
      · decide
      · simpa using h₄

theorem slugify_ne_nil (t : Text) : slugify t ≠ [] := by
  simp only [slugify]
  split_ifs with hs
  · decide
  · exact hs

theorem nameChar_of_slugChar {c : ℕ} (h : slugChar c) : NameChar c := by
  have hcodes : 'a'.toNat = 97 ∧ 'z'.toNat = 122 ∧ 'A'.toNat = 65 ∧ 'Z'.toNat = 90 ∧
      '0'.toNat = 48 ∧ '9'.toNat = 57 ∧ '_'.toNat = 95 ∧ '-'.toNat = 45 ∧ '/'.toNat = 47 ∧
      '.'.toNat = 46 := by decide
  obtain ⟨ha, hz, hA, hZ, h0, h9, hu, hm, hs, hd⟩ := hcodes
  simp only [slugChar, ha, hz, hA, hZ, h0, h9, hu, hm, Bool.or_eq_true, Bool.and_eq_true,
    decide_eq_true_eq] at h
  simp only [NameChar, hs, hd, isSpace, Bool.or_eq_false_iff, Bool.and_eq_false_iff,
    decide_eq_false_iff_not]
  omega

theorem slugChar_of_digit {c : ℕ} (h : 48 ≤ c ∧ c ≤ 57) : slugChar c := by
  have hcodes : '0'.toNat = 48 ∧ '9'.toNat = 57 := by decide
  have hd : ('0'.toNat ≤ c && c ≤ '9'.toNat) = true := by
    rw [hcodes.1, hcodes.2]
    simpa using h
  simp only [slugChar, hd, Bool.or_true, Bool.true_or]

theorem decimal_ne_nil (n : ℕ) : decimal n ≠ [] := by
  simp [decimal, Nat.toDigits_ne_nil]

/-- A time stamp is made of digits and the letters T and Z. -/
theorem mem_timeStamp {now : DateTime} {c : ℕ} (h : c ∈ timeStamp now.iso) :
    (48 ≤ c ∧ c ≤ 57) ∨ c ∈ lit "TZ" := by
  obtain ⟨h', hcolon⟩ := List.mem_filter.mp h
  obtain ⟨hiso, hdash⟩ := List.mem_filter.mp h'
  refine (DateTime.mem_iso hiso).imp_right fun hl => ?_
  have hsep : ∀ c ∈ lit "-T:Z", c ≠ ':'.toNat → c ≠ '-'.toNat → c ∈ lit "TZ" := by decide
  exact hsep c hl (by simpa using hcolon) (by simpa using hdash)

theorem slugChar_of_mem_timeStamp {now : DateTime} {c : ℕ} (h : c ∈ timeStamp now.iso) :
    slugChar c := by
  rcases mem_timeStamp h with hd | hl
  · exact slugChar_of_digit hd
  · exact (by decide : ∀ c ∈ lit "TZ", slugChar c) c hl

theorem timeStamp_ne_nil (now : DateTime) : timeStamp now.iso ≠ [] := by
  have hmem : 'T'.toNat ∈ timeStamp now.iso := by
    have hT : 'T'.toNat ∈ now.iso := by
      have : 'T'.toNat ∈ lit "T" := by decide
      simp only [DateTime.iso, List.mem_append]
      tauto
    simp only [timeStamp, List.mem_filter]
    exact ⟨⟨hT, by decide⟩, by decide⟩
  exact List.ne_nil_of_mem hmem

/-- An id is a time stamp, a piece that begins with the sender's id, and an end that
nobody chooses freely. -/
theorem candidateId_eq (d : Draft) (sentAt : Text) (attempt : ℕ) :
    ∃ e, e ≠ [] ∧ (∀ c ∈ e, slugChar c) ∧ candidateId (d.baseId sentAt) attempt =
      timeStamp sentAt ++ (lit "-" ++ shortUserId d.fromUser ++ lit "-") ++ e := by
  have hslug : ∀ c ∈ (slugify d.effSubject).take maxSlugLen, slugChar c :=
    fun c hc => slugChar_of_mem_slugify (List.mem_of_mem_take hc)
  have hne : (slugify d.effSubject).take maxSlugLen ≠ [] := by
    simp [slugify_ne_nil, maxSlugLen]
  unfold candidateId Draft.baseId
  split_ifs
  · exact ⟨_, hne, hslug, by simp⟩
  · refine ⟨(slugify d.effSubject).take maxSlugLen ++ lit "-" ++ decimal attempt, by simp [hne],
      ?_, by simp⟩
    intro c hc
    rcases List.mem_append.mp hc with hc | hc
    · rcases List.mem_append.mp hc with hc | hc
      · exact hslug c hc
      · exact (by decide : ∀ c ∈ lit "-", slugChar c) c hc
    · exact slugChar_of_digit (mem_decimal hc)

/-! ### Writing a message -/

/-- The message `write_message` returns. -/
def Draft.message (d : Draft) (sentAt id path : Text) : StoredMessage where
  id := id
  fromUser := d.fromUser
  fromEmail := d.fromEmail
  toUser := d.toUser
  subject := d.effSubject
  sentAt := sentAt
  readAt := none
  inReplyTo := d.inReplyTo
  priority := d.priority
  type := d.msgType
  body := d.body
  path := path

/-- The values `priority` may have. -/
def priorities : List Text := ["low", "normal", "high"].map lit

/-- `os.open` of a message file that must not be there. -/
def openTarget (h : Host) (disk : Disk) (dir : Place Text) (name : Text) : Fs.Opening Text :=
  match (hops name).getLast? with
  | some (.down n) => disk.openNew h.accepts dir (hops name).dropLast n
  | _ => .failed

/-- The loop of `write_message`, from these attempts on: the file it opens and the id it
opens it for. -/
def openCandidate (h : Host) (disk : Disk) (dir : Place Text) (baseId : Text) :
    List ℕ → Except Failure (Place Text × Text)
  | [] => .error (.runtime (lit "too many collisions on " ++ baseId))
  | attempt :: attempts =>
    let name := fileName (candidateId baseId attempt)
    match openTarget h disk dir name with
    | .made p => .ok (p, candidateId baseId attempt)
    | .taken => openCandidate h disk dir baseId attempts
    | .failed => .error (pathFailure h (pathText dir (hops name)))

/-- The checks `write_message` begins with. -/
def Draft.refused (h : Host) (d : Draft) : Option Failure :=
  if d.fromUser = [] ∨ d.toUser = [] then
    some (.value (lit "from_user and to_user are required"))
  else if d.priority ∉ priorities then
    some (.value (lit "priority must be low|normal|high, got " ++ h.repr (.str d.priority)))
  else if strip d.body = [] then some (.value (lit "body cannot be empty"))
  else none

/-- `write_message` up to the open file: the disk with the directory made, and the place
of the new file with the message for it. -/
def reserve (h : Host) (sentAt : Text) (disk : Disk) (d : Draft) :
    Disk × Except Failure (Place Text × StoredMessage) :=
  match d.refused h, activeDir h d.toUser with
  | some e, _ => (disk, .error e)
  | none, .error e => (disk, .error e)
  | none, .ok dir =>
    match disk.mkdirs h.accepts dir with
    | none => (disk, .error (pathFailure h (pathText dir [])))
    | some disk =>
      match openCandidate h disk dir (d.baseId sentAt) (List.range 100) with
      | .error e => (disk, .error e)
      | .ok (p, id) =>
        (disk, .ok (p, d.message sentAt id (pathText dir (hops (fileName id)))))

/-- A text `encode("utf-8")` takes: one without surrogates. -/
def Encodable (t : Text) : Prop := ∀ c ∈ t, ¬(0xd800 ≤ c ∧ c ≤ 0xdfff)

instance (t : Text) : Decidable (Encodable t) := inferInstanceAs (Decidable (∀ c ∈ t, _))

theorem encodable_append {s t : Text} : Encodable (s ++ t) ↔ Encodable s ∧ Encodable t :=
  List.forall_mem_append

/-- The characters of a string are no surrogates. -/
theorem encodable_lit (w : String) : Encodable (lit w) := by
  intro c hc
  obtain ⟨ch, -, rfl⟩ := List.mem_map.mp hc
  have hvalid := ch.valid
  simp only [UInt32.isValidChar, Nat.isValidChar] at hvalid
  change ¬(0xd800 ≤ ch.val.toNat ∧ ch.val.toNat ≤ 0xdfff)
  omega

theorem encodable_of_ascii {t : Text} (h : ∀ c ∈ t, c < 128) : Encodable t := by
  rintro c hc ⟨hle, -⟩
  have := h c hc
  omega

theorem encodable_joinLines {ls : List Text} :
    Encodable (joinLines ls) ↔ ∀ l ∈ ls, Encodable l := by
  have hnl : Encodable [10] := by decide
  induction ls with
  | nil => simp [joinLines, List.intercalate, Encodable]
  | cons l ls ih =>
    rcases eq_or_ne ls [] with rfl | hls
    · simp [joinLines, List.intercalate]
    · rw [joinLines_cons hls, ← List.singleton_append (x := 10), encodable_append,
        encodable_append, List.forall_mem_cons, and_iff_right hnl]
      exact and_congr_right fun _ => ih

/-- `write_message`. A text that cannot be encoded leaves the new file empty. -/
def writeMessage (h : Host) (now : ℕ) (disk : Disk) (d : Draft) :
    Disk × Except Failure StoredMessage :=
  match reserve h (DateTime.ofTimestamp now).iso disk d with
  | (disk, .error e) => (disk, .error e)
  | (disk, .ok (p, m)) =>
    if Encodable (renderMessage m) then
      (disk.put p (.file (.text (renderMessage m))), .ok m)
    else (disk.put p (.file (.text [])), .error (.encode (renderMessage m)))

/-! ### What writing does -/

variable {h : Host} {now : ℕ} {sentAt : Text} {disk disk₁ disk' : Disk} {d : Draft}
  {dir p : Place Text} {m : StoredMessage}

theorem openTarget_eq_made {name : Text} (ho : openTarget h disk dir name = .made p) :
    ∃ n q, (hops name).getLast? = some (.down n) ∧
      disk.walk dir (hops name).dropLast = some q ∧ disk.isDir q ∧ p = n :: q ∧
      disk.node p = none := by
  unfold openTarget at ho
  split at ho
  next n hn =>
    obtain ⟨q, hwalk, hdir, hp, hnone⟩ := Fs.openNew_eq_made ho
    exact ⟨n, q, hn, hwalk, hdir, hp, hnone⟩
  · exact absurd ho (by simp)

theorem openCandidate_eq_ok {baseId id : Text} {attempts : List ℕ}
    (ho : openCandidate h disk dir baseId attempts = .ok (p, id)) :
    ∃ attempt, id = candidateId baseId attempt ∧
      openTarget h disk dir (fileName id) = .made p := by
  induction attempts with
  | nil => exact absurd ho (by simp [openCandidate])
  | cons attempt attempts ih =>
    simp only [openCandidate] at ho
    split at ho
    next p' hmade =>
      obtain ⟨rfl, rfl⟩ := Prod.mk.inj (Except.ok.inj ho)
      exact ⟨attempt, rfl, hmade⟩
    · exact ih ho
    · exact absurd ho (by simp)

/-- A call that passes its checks and makes the directory goes on to the loop. -/
theorem reserve_eq (hr : d.refused h = none) (hd : activeDir h d.toUser = .ok dir)
    (hmk : disk.mkdirs h.accepts dir = some disk₁) : reserve h sentAt disk d =
      (disk₁, (openCandidate h disk₁ dir (d.baseId sentAt) (List.range 100)).map
        fun x => (x.1, d.message sentAt x.2 (pathText dir (hops (fileName x.2))))) := by
  unfold reserve
  generalize List.range 100 = attempts
  rw [hr, hd]
  simp only [hmk]
  cases openCandidate h disk₁ dir (d.baseId sentAt) attempts <;> rfl

/-- What is not refused has a priority that there is. -/
theorem priority_of_refused (hr : d.refused h = none) : d.priority ∈ priorities := by
  unfold Draft.refused at hr
  by_contra hp
  split_ifs at hr

/-- **What `write_message` has when it holds an open file**: the directory of the
recipient, and in it a new file for one of the ids it tries. -/
theorem reserve_eq_ok (hr : reserve h sentAt disk d = (disk₁, .ok (p, m))) :
    ∃ dir attempt, activeDir h d.toUser = .ok dir ∧ disk.mkdirs h.accepts dir = some disk₁ ∧
      d.priority ∈ priorities ∧ openTarget h disk₁ dir (fileName m.id) = .made p ∧
      m = d.message sentAt (candidateId (d.baseId sentAt) attempt) m.path := by
  unfold reserve at hr
  split at hr
  · simp at hr
  · simp at hr
  next dir hnone hdir =>
    split at hr
    · simp at hr
    next disk₂ hmk =>
      split at hr
      · simp at hr
      next p' id hopen =>
        obtain ⟨rfl, hpm⟩ := Prod.mk.inj hr
        obtain ⟨rfl, rfl⟩ := Prod.mk.inj (Except.ok.inj hpm)
        obtain ⟨attempt, rfl, hmade⟩ := openCandidate_eq_ok hopen
        exact ⟨dir, attempt, hdir, hmk, priority_of_refused hnone, hmade, rfl⟩

/-- The new file stands where nothing stood. -/
theorem node_of_reserve (hr : reserve h sentAt disk d = (disk₁, .ok (p, m))) :
    p ≠ [] ∧ disk₁.node p = none ∧ disk.node p = none := by
  obtain ⟨dir, -, -, hmk, -, hopen, -⟩ := reserve_eq_ok hr
  obtain ⟨n, q, -, -, -, rfl, hnone⟩ := openTarget_eq_made hopen
  refine ⟨List.cons_ne_nil n q, hnone, ?_⟩
  rcases Fs.node_mkdirs hmk (n :: q) with heq | ⟨-, hsome, -⟩
  · rw [← heq, hnone]
  · simp [hnone] at hsome

/-- A call that fails before it holds a file makes directories at most. -/
theorem read_of_reserve {r : Except Failure (Place Text × StoredMessage)}
    (hr : reserve h sentAt disk d = (disk₁, r)) (q : Place Text) :
    disk₁.read q = disk.read q := by
  unfold reserve at hr
  split at hr
  · rw [(Prod.mk.inj hr).1]
  · rw [(Prod.mk.inj hr).1]
  · split at hr
    · rw [(Prod.mk.inj hr).1]
    next disk₂ hmk =>
      split at hr <;> rw [← (Prod.mk.inj hr).1, Fs.read_mkdirs hmk]

/-- **What a call that succeeds writes**: its message, into a new file. -/
theorem writeMessage_eq_ok (hw : writeMessage h now disk d = (disk', .ok m)) :
    ∃ disk₁ p, reserve h (DateTime.ofTimestamp now).iso disk d = (disk₁, .ok (p, m)) ∧
      Encodable (renderMessage m) ∧ disk' = disk₁.put p (.file (.text (renderMessage m))) := by
  unfold writeMessage at hw
  split at hw
  · simp at hw
  next disk₁ p m' hr =>
    split_ifs at hw with he
    · obtain ⟨rfl, hm⟩ := Prod.mk.inj hw
      obtain rfl := Except.ok.inj hm
      exact ⟨disk₁, p, hr, he, rfl⟩
    · simp at hw

/-! ### Listing -/

/-- The filters of `list_messages`. The tool hands `from_user` and `since` over as they
came. -/
structure Filter where
  unreadOnly : Bool
  fromUser : Value
  since : Value

/-- The message in the file `n` of a directory, if it is a message file. -/
def messageAt (disk : Disk) (dir : Place Text) (n : Text) : Option StoredMessage :=
  if (lit ".md").isSuffixOf n then
    (disk.read (n :: dir)).bind fun content =>
      (readMessage (pathText dir [.down n]) content).toOption
  else none

/-- The filters of the loop of `list_messages`. -/
def Filter.wants (f : Filter) (m : StoredMessage) : Except Failure Bool :=
  let other := match f.fromUser with
    | .str t => t ≠ m.fromUser
    | _ => true
  if f.unreadOnly && m.readAt.isSome then .ok false
  else if f.fromUser.truthy && other then .ok false
  else if f.since.truthy then
    match f.since with
    | .str t => .ok (t < m.sentAt)
    | v => .error (.type (lit "'<=' not supported between instances of 'str' and '" ++
        v.typeName ++ lit "'"))
  else .ok true

/-- The loop of `list_messages`, over these names, while messages are wanted. -/
def collect (disk : Disk) (dir : Place Text) (f : Filter) :
    List Text → ℕ → Except Failure (List StoredMessage)
  | [], _ => .ok []
  | _, 0 => .ok []
  | n :: ns, k + 1 =>
    match messageAt disk dir n with
    | none => collect disk dir f ns (k + 1)
    | some m =>
      match f.wants m with
      | .error e => .error e
      | .ok false => collect disk dir f ns (k + 1)
      | .ok true => (collect disk dir f ns k).map (m :: ·)

/-- `list_messages`. -/
def listMessages (h : Host) (disk : Disk) (userId : Text) (f : Filter) (limit : ℤ) :
    Except Failure (List StoredMessage) :=
  if limit < 1 ∨ 200 < limit then .error (.value (lit "limit must be 1..200"))
  else
    match activeDir h userId with
    | .error e => .error e
    | .ok dir =>
      if !disk.isDir dir then .ok []
      else collect disk dir f ((disk.names dir).insertionSort (· ≥ ·)) limit.toNat

/-! ### Marking as read -/

/-- `re.sub(r"^read_at:.*$", f"read_at: {when}", text, count=1, flags=re.M)`, on the lines
of the text. -/
def setReadAtLine (when : Text) : List Text → List Text
  | [] => []
  | l :: ls =>
    if (lit "read_at:").isPrefixOf l then (lit "read_at: " ++ when) :: ls
    else l :: setReadAtLine when ls

/-- `_atomic_set_read_at`, of the file at a place that was opened under this path. The
new text goes to a file beside it, which takes its place. -/
def atomicSetReadAt (h : Host) (disk : Disk) (p : Place Text) (path when : Text) :
    Except Failure Disk :=
  match p, disk.read p with
  | n :: dir, some (.text raw) =>
    let text := universalNewlines raw
    let newText := joinLines (setReadAtLine when (text.splitOn 10))
    if newText = text then .ok disk
    else
      let tmp := (n ++ lit ".tmp") :: dir
      if disk.isDir tmp || !h.accepts (n ++ lit ".tmp") then
        .error (pathFailure h (path ++ lit ".tmp"))
      else .ok ((disk.erase tmp).put p (.file (.text newText)))
  | _, _ => .ok disk

/-- The loop of `mark_read` with `mark_all_before`. -/
def markAllBefore (h : Host) (dir : Place Text) (when cutoff : Text) :
    List Text → Disk → Disk × Except Failure ℕ
  | [], disk => (disk, .ok 0)
  | n :: ns, disk =>
    match messageAt disk dir n with
    | none => markAllBefore h dir when cutoff ns disk
    | some m =>
      if m.readAt.isNone ∧ m.sentAt ≤ cutoff then
        match atomicSetReadAt h disk (n :: dir) (pathText dir [.down n]) when with
        | .error e => (disk, .error e)
        | .ok disk =>
          let (disk, count) := markAllBefore h dir when cutoff ns disk
          (disk, count.map (· + 1))
      else markAllBefore h dir when cutoff ns disk

/-- `active / f"{message_id}.md"`: where the path starts, and its components. An absolute
path forgets the directory before it. -/
def markPath (dir : Place Text) (messageId : Text) : Place Text × List (Hop Text) :=
  (if messageId.head? = some '/'.toNat then [] else dir, hops (fileName messageId))

/-- The file the path leads to, if it is one, and what it holds. -/
def markTarget (disk : Disk) (dir : Place Text) (messageId : Text) :
    Option (Place Text × Content) :=
  let (base, hs) := markPath dir messageId
  (disk.walk base hs).bind fun p => (disk.read p).map fun content => (p, content)

/-- `mark_read` from the read of the target on. -/
def markFile (h : Host) (when : Text) (disk : Disk) (dir p : Place Text) (path : Text)
    (content : Content) (markAll : Bool) : Disk × Except Failure ℕ :=
  match readMessage path content with
  | .error e => (disk, .error e)
  | .ok target =>
    if markAll then markAllBefore h dir when target.sentAt (disk.names dir) disk
    else if target.readAt.isNone then
      match atomicSetReadAt h disk p path when with
      | .error e => (disk, .error e)
      | .ok disk => (disk, .ok 1)
    else (disk, .ok 0)

/-- `mark_read`. -/
def markRead (h : Host) (now : ℕ) (disk : Disk) (userId messageId : Text)
    (markAll : Bool) : Disk × Except Failure ℕ :=
  match activeDir h userId with
  | .error e => (disk, .error e)
  | .ok dir =>
    if !disk.isDir dir then (disk, .ok 0)
    else
      match markTarget disk dir messageId with
      | none => (disk, .ok 0)
      | some (p, content) =>
        markFile h (DateTime.ofTimestamp now).iso disk dir p
          (pathText (markPath dir messageId).1 (markPath dir messageId).2) content markAll

end Inbox

end OtamanBridge
