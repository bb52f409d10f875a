import OtamanBridge.Inbox.History

/-!
# Calls of `write_message` at one time

Any number of calls take their steps in any order: a call makes the directory of its
recipient, tries one name after the other until it has created a file, and then renders its
message, encodes it and writes it. A file is created only where there is none, so no call
touches the file of another. But it is created before the message is encoded and written: a
call whose message cannot be encoded, or finds no room on the disk, raises and leaves an empty
file, and one whose message finds room for a part returns all the same. In every run the calls
are atomic exactly if this does not happen (`OtamanBridge.Inbox.Writers.atomic_iff`).
-/

namespace OtamanBridge

namespace Inbox

open Py Posix

/-! ### What can be encoded -/

theorem Encodable.mono {s t : Text} (h : Encodable t) (hst : ∀ c ∈ s, c ∈ t) : Encodable s :=
  fun c hc => h c (hst c hc)

theorem encodable_of_slugChar {t : Text} (h : ∀ c ∈ t, slugChar c) : Encodable t := by
  intro c hc hsur
  have hspace := h c hc
  have hcodes : 'a'.toNat = 97 ∧ 'z'.toNat = 122 ∧ 'A'.toNat = 65 ∧ 'Z'.toNat = 90 ∧
      '0'.toNat = 48 ∧ '9'.toNat = 57 ∧ '_'.toNat = 95 ∧ '-'.toNat = 45 := by decide
  obtain ⟨ha, hz, hA, hZ, h0, h9, hu, hm⟩ := hcodes
  simp only [slugChar, ha, hz, hA, hZ, h0, h9, hu, hm, Bool.or_eq_true, Bool.and_eq_true,
    decide_eq_true_eq] at hspace
  omega

theorem mem_escape_of_mem {t : Text} {c : ℕ} (h : c ∈ t) : c ∈ escape t := by
  induction t with
  | nil => exact absurd h List.not_mem_nil
  | cons d t ih =>
    rw [escape_cons, List.mem_append]
    rcases List.mem_cons.mp h with rfl | h
    · left
      split_ifs with hb hq
      · simp [hb]
      · simp [hq]
      · simp
    · exact .inr (ih h)

/-- A value is encoded as it is, but for ASCII characters. -/
theorem encodable_yamlValue {v : Option Text} :
    Encodable (yamlValue v) ↔ ∀ t ∈ v, Encodable t := by
  rcases v with _ | t
  · exact iff_of_true (by decide) (by simp)
  · have hq : Encodable (lit "\"") := by decide
    have hescape : Encodable (escape t) ↔ Encodable t := by
      refine ⟨fun h => h.mono fun c hc => mem_escape_of_mem hc, fun h c hc => ?_⟩
      rcases mem_escape hc with rfl | rfl | hc
      · decide
      · decide
      · exact h c hc
    rw [yamlValue]
    split_ifs
    · rw [encodable_append, encodable_append, hescape]
      simp [hq]
    · simp

theorem encodable_rstrip {t : Text} : Encodable (rstrip t) ↔ Encodable t := by
  refine ⟨fun h => ?_, fun h => h.mono fun _ => mem_of_mem_rstrip⟩
  obtain ⟨s, hts, hs⟩ := exists_rstrip_append t
  rw [hts, encodable_append]
  refine ⟨h, fun c hc hsur => ?_⟩
  have := hs c hc
  simp only [isSpace, Bool.or_eq_true, Bool.and_eq_true, decide_eq_true_eq] at this
  omega

/-- What a sender gives to a message can be encoded. -/
structure Draft.Encodes (d : Draft) : Prop where
  fromUser : Encodable d.fromUser
  fromEmail : ∀ t ∈ d.fromEmail, Encodable t
  toUser : Encodable d.toUser
  subject : Encodable d.effSubject
  inReplyTo : ∀ t ∈ d.inReplyTo, Encodable t
  msgType : ∀ t ∈ d.msgType, Encodable t
  body : Encodable d.body

/-- **When a message can be encoded**: exactly if its sender's texts can. -/
theorem encodable_renderMessage {d : Draft} {now attempt : ℕ} {path : Text}
    (hpriority : d.priority ∈ priorities) :
    Encodable (renderMessage (d.message (DateTime.ofTimestamp now).iso
      (candidateId (d.baseId (DateTime.ofTimestamp now).iso) attempt) path)) ↔ d.Encodes := by
  generalize hm : d.message (DateTime.ofTimestamp now).iso
    (candidateId (d.baseId (DateTime.ofTimestamp now).iso) attempt) path = m
  have hkeys : ∀ k ∈ ["id", "from_user", "from_email", "to_user", "subject", "sent_at",
      "read_at", "in_reply_to", "priority", "type"].map lit, Encodable (k ++ lit ": ") := by
    decide +kernel
  have hlines : (∀ l ∈ (header m).map headerLine, Encodable l) ↔
      ∀ kv ∈ header m, Encodable kv.2 := by
    rw [List.forall_mem_map]
    refine forall₂_congr fun kv hkv => ?_
    have hk : Encodable (kv.1 ++ lit ": ") := hkeys _ (List.mem_map_of_mem (f := Prod.fst) hkv)
    rw [headerLine, encodable_append, and_iff_right hk]
  have hrender : Encodable (renderMessage m) ↔
      (∀ kv ∈ header m, Encodable kv.2) ∧ Encodable m.body := by
    have hfence : ∀ l ∈ [lit "---"], Encodable l := by decide
    have hrest : (∀ l ∈ [lit "---", [], rstrip m.body ++ lit "\n"], Encodable l) ↔
        Encodable m.body := by
      have h₁ : Encodable (lit "---") := by decide
      have h₂ : Encodable [] := by decide
      have h₃ : Encodable (lit "\n") := by decide
      simp only [List.forall_mem_cons, h₁, h₂, encodable_append, h₃, encodable_rstrip, true_and,
        and_true, List.not_mem_nil, false_implies, implies_true]
    rw [renderMessage, encodable_joinLines, List.forall_mem_append, List.forall_mem_append, hlines,
      hrest, and_iff_right hfence]
  have hiso : Encodable (DateTime.ofTimestamp now).iso := by
    intro c hc hsur
    rcases DateTime.mem_iso hc with hd | hl
    · omega
    · have : ∀ c ∈ lit "-T:Z", c < 0xd800 := by decide
      exact absurd hsur.1 (not_le.mpr (this c hl))
  have hid : Encodable d.fromUser →
      Encodable (candidateId (d.baseId (DateTime.ofTimestamp now).iso) attempt) := by
    intro hfrom
    obtain ⟨e, -, he, heq⟩ := candidateId_eq d (DateTime.ofTimestamp now).iso attempt
    have hdash : Encodable (lit "-") := by decide
    have hshort : Encodable (shortUserId d.fromUser) := by
      unfold shortUserId
      split_ifs
      · decide
      · exact hfrom.mono fun _ => List.mem_of_mem_take
    rw [heq, encodable_append, encodable_append, encodable_append, encodable_append]
    exact ⟨⟨encodable_of_slugChar fun _ => slugChar_of_mem_timeStamp, ⟨hdash, hshort⟩, hdash⟩,
      encodable_of_slugChar he⟩
  have hprio : Encodable d.priority := by
    have : ∀ t ∈ priorities, Encodable t := by decide
    exact this _ hpriority
  have some' : ∀ {t : Text}, Encodable (yamlValue (some t)) ↔ Encodable t := by
    intro t
    rw [encodable_yamlValue]
    simp
  have hnull : Encodable (lit "null") := by decide
  rw [hrender]
  subst hm
  simp only [header, List.forall_mem_cons, some', encodable_yamlValue, hnull, List.not_mem_nil,
    false_implies, implies_true, and_true, true_and, Draft.message]
  constructor
  · rintro ⟨⟨-, hfrom, hemail, hto, hsubject, -, hreply, -, htype⟩, hbody⟩
    exact ⟨hfrom, hemail, hto, hsubject, hreply, htype, hbody⟩
  · rintro ⟨hfrom, hemail, hto, hsubject, hreply, htype, hbody⟩
    exact ⟨⟨hid hfrom, hfrom, hemail, hto, hsubject, hiso, hreply, hprio, htype⟩, hbody⟩

/-! ### The calls -/

namespace Writers

/-- What a call is called with, and the time it finds on the clock. -/
structure Request where
  now : ℕ
  draft : Draft

/-- `sent_at`. -/
def Request.sentAt (r : Request) : Text := (DateTime.ofTimestamp r.now).iso

/-- How far a call is. -/
inductive Phase
  /-- It is about to check its arguments and to make the directory. -/
  | begun
  /-- It is about to open a file in the directory, with this number of collisions. -/
  | trying (dir : Place Text) (attempt : ℕ)
  /-- It has created this file, and is about to write its message. -/
  | holding (p : Place Text) (m : StoredMessage)
  /-- It has returned, and this is in its file. -/
  | returned (p : Place Text) (m : StoredMessage) (left : Content)
  /-- It has raised an exception, and has created this file before, if any. -/
  | raised (e : Failure) (left : Option (Place Text))
  deriving DecidableEq

/-- The file a call has created, and what is in it. -/
def Phase.file : Phase → Option (Place Text × Content)
  | .begun => none
  | .trying _ _ => none
  | .holding p _ => some (p, .text [])
  | .returned p _ left => some (p, left)
  | .raised _ left => left.map (·, .text [])

/-- A call that has raised and leaves a file, or has returned and leaves not its message. -/
def Phase.Spoilt : Phase → Prop
  | .returned _ m left => left ≠ .text (renderMessage m)
  | .raised _ left => left.isSome
  | _ => False

instance (p : Phase) : Decidable p.Spoilt :=
  match p with
  | .returned _ _ _ => inferInstanceAs (Decidable (_ ≠ _))
  | .raised _ left => inferInstanceAs (Decidable (left.isSome))
  | .begun | .trying _ _ | .holding _ _ => .isFalse id

/-- What becomes of the `os.write` of a text. -/
inductive Outcome
  | whole
  /-- There is room for the first characters only. -/
  | short (n : ℕ)
  /-- The last character that there is room for is cut; this is the error of decoding it. -/
  | cut (error : Text)
  /-- It raises an `OSError`, which names no path. -/
  | fails
  deriving DecidableEq

/-- What is in the file, if `os.write` returns. -/
def Outcome.leaves (t : Text) : Outcome → Option Content
  | .whole => some (.text t)
  | .short n => some (.text (t.take n))
  | .cut error => some (.undecodable error)
  | .fails => none

/-- There is room for all of the text. -/
def Outcome.Room (t : Text) : Outcome → Prop
  | .whole => True
  | .short n => t.length ≤ n
  | .cut _ => False
  | .fails => False

theorem Outcome.room_iff {o : Outcome} {t : Text} : o.Room t ↔ o.leaves t = some (.text t) := by
  cases o with
  | whole => simp [Room, leaves]
  | short n => simp [Room, leaves]
  | cut error => simp [Room, leaves]
  | fails => simp [Room, leaves]

/-- A call goes on. -/
structure Turn (T : Type*) where
  call : T
  write : Outcome

/-- The disk and the calls. -/
structure State (T : Type*) where
  disk : Disk
  phase : T → Phase

/-- Calls that begin. -/
def start (T : Type*) (disk : Disk) : State T := ⟨disk, fun _ => .begun⟩

section Step

variable {T : Type*} [DecidableEq T]

/-- A call goes on, and leaves this disk. -/
def State.go (s : State T) (c : T) (disk : Disk) (p : Phase) : State T :=
  ⟨disk, Function.update s.phase c p⟩

@[simp] theorem State.phase_go_self (s : State T) (c : T) (disk : Disk) (p : Phase) :
    (s.go c disk p).phase c = p :=
  Function.update_self ..

theorem State.phase_go_of_ne {s : State T} {c c' : T} {disk : Disk} {p : Phase} (hne : c' ≠ c) :
    (s.go c disk p).phase c' = s.phase c' :=
  Function.update_of_ne hne ..

@[simp] theorem State.disk_go (s : State T) (c : T) (disk : Disk) (p : Phase) :
    (s.go c disk p).disk = disk := rfl

/-- One step of a call of `write_message`. -/
def step (h : Host) (calls : T → Request) (s : State T) (l : Turn T) : Option (State T) :=
  let c := l.call
  let r := calls c
  match s.phase c with
  | .begun =>
    match r.draft.refused h, activeDir h r.draft.toUser with
    | some e, _ => some (s.go c s.disk (.raised e none))
    | none, .error e => some (s.go c s.disk (.raised e none))
    | none, .ok dir =>
      match s.disk.mkdirs h.accepts dir with
      | none => some (s.go c s.disk (.raised (pathFailure h (pathText dir [])) none))
      | some disk => some (s.go c disk (.trying dir 0))
  | .trying dir attempt =>
    let baseId := r.draft.baseId r.sentAt
    let id := candidateId baseId attempt
    match openTarget h s.disk dir (fileName id) with
    | .made p =>
      some (s.go c (s.disk.put p (.file (.text [])))
        (.holding p (r.draft.message r.sentAt id (pathText dir (hops (fileName id))))))
    | .taken =>
      if 99 < attempt + 1 then
        some (s.go c s.disk (.raised (.runtime (lit "too many collisions on " ++ baseId)) none))
      else some (s.go c s.disk (.trying dir (attempt + 1)))
    | .failed =>
      some (s.go c s.disk (.raised (pathFailure h (pathText dir (hops (fileName id)))) none))
  | .holding p m =>
    if Encodable (renderMessage m) then
      match l.write.leaves (renderMessage m) with
      | some left => some (s.go c (s.disk.put p (.file left)) (.returned p m left))
      | none => some (s.go c s.disk (.raised (.os []) (some p)))
    else some (s.go c s.disk (.raised (.encode (renderMessage m)) (some p)))
  | .returned _ _ _ => none
  | .raised _ _ => none

/-! ### What a step can do -/

variable {h : Host} {calls : T → Request} {s s' : State T} {disk₀ : Disk}

/-- The steps, by what they do. -/
inductive Step (h : Host) (calls : T → Request) (s : State T) (c : T) (o : Outcome) :
    State T → Prop
  /-- A call checks its arguments, makes a directory, finds a name taken, or raises, before it
  has created a file. -/
  | move {disk : Disk} {p : Phase} (hfile : (s.phase c).file = none)
      (hread : ∀ q, disk.read q = s.disk.read q)
      (hp : (∃ e, p = .raised e none) ∨ ∃ dir attempt, p = .trying dir attempt ∧
        ((calls c).draft.priority ∈ priorities ∨ ∃ attempt, s.phase c = .trying dir attempt)) :
      Step h calls s c o (s.go c disk p)
  | create {dir p : Place Text} {attempt : ℕ} {path : Text}
      (hphase : s.phase c = .trying dir attempt) (hne : p ≠ [])
      (hfree : s.disk.read p = none) :
      Step h calls s c o (s.go c (s.disk.put p (.file (.text []))) (.holding p
        ((calls c).draft.message (calls c).sentAt
          (candidateId ((calls c).draft.baseId (calls c).sentAt) attempt) path)))
  | write {p : Place Text} {m : StoredMessage} {left : Content}
      (hphase : s.phase c = .holding p m) (hm : Encodable (renderMessage m))
      (hleft : o.leaves (renderMessage m) = some left) :
      Step h calls s c o (s.go c (s.disk.put p (.file left)) (.returned p m left))
  | fail {p : Place Text} {m : StoredMessage} {e : Failure} (hphase : s.phase c = .holding p m)
      (hm : ¬Encodable (renderMessage m) ∨ o.leaves (renderMessage m) = none) :
      Step h calls s c o (s.go c s.disk (.raised e (some p)))

/-- **Every step is one of these.** -/
theorem Step.of_step {l : Turn T} (hs : step h calls s l = some s') :
    Step h calls s l.call l.write s' := by
  obtain ⟨c, o⟩ := l
  unfold step at hs
  simp only at hs
  split at hs
  next hphase =>
    have hfile : (s.phase c).file = none := by
      rw [hphase]
      rfl
    split at hs
    · obtain rfl := Option.some.inj hs
      exact .move hfile (fun _ => rfl) (.inl ⟨_, rfl⟩)
    · obtain rfl := Option.some.inj hs
      exact .move hfile (fun _ => rfl) (.inl ⟨_, rfl⟩)
    next hrefused _ =>
      split at hs
      · obtain rfl := Option.some.inj hs
        exact .move hfile (fun _ => rfl) (.inl ⟨_, rfl⟩)
      next disk hmk =>
        obtain rfl := Option.some.inj hs
        exact .move hfile (Fs.read_mkdirs hmk)
          (.inr ⟨_, _, rfl, .inl (priority_of_refused hrefused)⟩)
  next dir attempt hphase =>
    have hfile : (s.phase c).file = none := by
      rw [hphase]
      rfl
    split at hs
    next p hmade =>
      obtain rfl := Option.some.inj hs
      obtain ⟨n, q, -, -, -, rfl, hnone⟩ := openTarget_eq_made hmade
      refine .create hphase (List.cons_ne_nil n q) ?_
      rw [Fs.read, hnone]
      rfl
    · split_ifs at hs
      · obtain rfl := Option.some.inj hs
        exact .move hfile (fun _ => rfl) (.inl ⟨_, rfl⟩)
      · obtain rfl := Option.some.inj hs
        exact .move hfile (fun _ => rfl) (.inr ⟨_, _, rfl, .inr ⟨_, hphase⟩⟩)
    · obtain rfl := Option.some.inj hs
      exact .move hfile (fun _ => rfl) (.inl ⟨_, rfl⟩)
  next p m hphase =>
    split_ifs at hs with hm
    · split at hs
      next left hleft =>
        obtain rfl := Option.some.inj hs
        exact .write hphase hm hleft
      next hnone =>
        obtain rfl := Option.some.inj hs
        exact .fail hphase (.inr hnone)
    · obtain rfl := Option.some.inj hs
      exact .fail hphase (.inl hm)
  · exact absurd hs (by simp)
  · exact absurd hs (by simp)

/-! ### The files of the calls -/

/-- **Whose the files are**: those that were there are as they were; each of the others
belongs to one call, and holds what this call has written. -/
structure Files (disk₀ disk : Disk) (file : T → Option (Place Text × Content)) : Prop where
  kept : ∀ q content, disk₀.read q = some content → disk.read q = some content
  owned : ∀ c p t, file c = some (p, t) → disk₀.read p = none ∧ disk.read p = some t
  distinct : ∀ c c' p t t', file c = some (p, t) → file c' = some (p, t') → c = c'
  only : ∀ q content, disk.read q = some content →
    disk₀.read q = some content ∨ ∃ c t, file c = some (q, t)

section Files

variable {disk disk' : Disk} {file file' : T → Option (Place Text × Content)} {c : T}
  {p : Place Text} {t : Content}

omit [DecidableEq T] in
theorem Files.congr (hf : Files disk₀ disk file) (hread : ∀ q, disk'.read q = disk.read q)
    (hfile : file' = file) : Files disk₀ disk' file' := by
  subst hfile
  constructor
  · exact fun q content hq => (hread q).trans (hf.kept q content hq)
  · exact fun c p t hc => ⟨(hf.owned c p t hc).1, (hread p).trans (hf.owned c p t hc).2⟩
  · exact hf.distinct
  · exact fun q content hq => hf.only q content ((hread q).symm.trans hq)

/-- A call creates its file, or writes it. -/
theorem Files.put (hf : Files disk₀ disk file) (hne : p ≠ []) (hfresh : disk₀.read p = none)
    (hmine : ∀ q u, file c = some (q, u) → q = p)
    (hother : ∀ c' u, file c' = some (p, u) → c' = c) :
    Files disk₀ (disk.put p (.file t)) (Function.update file c (some (p, t))) := by
  have hself : (disk.put p (.file t)).read p = some t := Fs.read_put_file hne
  have hread : ∀ q, q ≠ p → (disk.put p (.file t)).read q = disk.read q :=
    fun q hq => Fs.read_congr (Fs.node_put_of_ne hq)
  -- the owners after the step: this call with its file, the others with theirs
  have howner : ∀ c' q u, Function.update file c (some (p, t)) c' = some (q, u) →
      c' = c ∧ q = p ∧ u = t ∨ c' ≠ c ∧ q ≠ p ∧ file c' = some (q, u) := by
    intro c' q u hc
    rcases Lts.update_eq_some hc with ⟨rfl, hpt⟩ | ⟨hne', hold⟩
    · obtain ⟨rfl, rfl⟩ := Prod.mk.inj (Option.some.inj hpt)
      exact .inl ⟨rfl, rfl, rfl⟩
    · refine .inr ⟨hne', fun heq => hne' (hother c' u ?_), hold⟩
      rw [← heq]
      exact hold
  constructor
  · intro q content hq
    rw [hread q fun heq => by rw [heq, hfresh] at hq; exact absurd hq (by simp)]
    exact hf.kept q content hq
  · intro c' q u hc
    rcases howner c' q u hc with ⟨rfl, rfl, rfl⟩ | ⟨-, hq, hc⟩
    · exact ⟨hfresh, hself⟩
    · rw [hread q hq]
      exact hf.owned c' q u hc
  · intro c₁ c₂ q u u' h₁ h₂
    rcases howner c₁ q u h₁ with ⟨rfl, rfl, -⟩ | ⟨-, hq, h₁⟩ <;>
      rcases howner c₂ q u' h₂ with ⟨rfl, hq', -⟩ | ⟨-, hq', h₂⟩
    · rfl
    · exact absurd rfl hq'
    · exact absurd hq' hq
    · exact hf.distinct c₁ c₂ q u u' h₁ h₂
  · intro q content hq
    rcases eq_or_ne q p with rfl | hqp
    · exact .inr ⟨c, t, Function.update_self ..⟩
    · rw [hread q hqp] at hq
      refine (hf.only q content hq).imp_right ?_
      rintro ⟨c', u, hc⟩
      refine ⟨c', u, ?_⟩
      rw [Function.update_of_ne ?_]
      · exact hc
      · rintro rfl
        exact hqp (hmine q u hc)

end Files

/-- **What holds in every run.** -/
structure Inv (calls : T → Request) (disk₀ : Disk) (s : State T) : Prop where
  files : Files disk₀ s.disk fun c => (s.phase c).file
  checked : ∀ c dir attempt, s.phase c = .trying dir attempt →
    (calls c).draft.priority ∈ priorities
  message : ∀ c p m, (s.phase c = .holding p m ∨ ∃ left, s.phase c = .returned p m left) →
    (calls c).draft.priority ∈ priorities ∧ ∃ attempt path, m = (calls c).draft.message
      (calls c).sentAt (candidateId ((calls c).draft.baseId (calls c).sentAt) attempt) path

theorem file_go (s : State T) (c : T) (disk : Disk) (p : Phase) :
    (fun c' => ((s.go c disk p).phase c').file) =
      Function.update (fun c' => (s.phase c').file) c p.file := by
  funext c'
  rcases eq_or_ne c' c with rfl | hne
  · rw [State.phase_go_self, Function.update_self]
  · rw [State.phase_go_of_ne hne, Function.update_of_ne hne]

omit [DecidableEq T] in
theorem inv_start (calls : T → Request) (disk : Disk) : Inv calls disk (start T disk) where
  files := ⟨fun _ _ h => h, fun _ _ _ h => absurd h (by simp [start, Phase.file]),
    fun _ _ _ _ _ h => absurd h (by simp [start, Phase.file]), fun _ _ h => .inl h⟩
  checked _ _ _ h := absurd h (by simp [start])
  message _ _ _ h := absurd h (by simp [start])

/-- What is known of a phase that only this call has changed. -/
theorem Inv.go (hi : Inv calls disk₀ s) {c : T} {disk : Disk} {p : Phase}
    (hfiles : Files disk₀ disk (Function.update (fun c' => (s.phase c').file) c p.file))
    (hchecked : ∀ dir attempt, p = .trying dir attempt → (calls c).draft.priority ∈ priorities)
    (hmessage : ∀ q m, (p = .holding q m ∨ ∃ left, p = .returned q m left) →
      (calls c).draft.priority ∈ priorities ∧ ∃ attempt path, m = (calls c).draft.message
        (calls c).sentAt (candidateId ((calls c).draft.baseId (calls c).sentAt) attempt) path) :
    Inv calls disk₀ (s.go c disk p) := by
  constructor
  · rw [file_go]
    exact hfiles
  · intro c' dir attempt hc
    rcases eq_or_ne c' c with rfl | hne
    · exact hchecked dir attempt (by rwa [State.phase_go_self] at hc)
    · exact hi.checked c' dir attempt (by rwa [State.phase_go_of_ne hne] at hc)
  · intro c' q m hc
    rcases eq_or_ne c' c with rfl | hne
    · exact hmessage q m (by rwa [State.phase_go_self] at hc)
    · exact hi.message c' q m (by rwa [State.phase_go_of_ne hne] at hc)

/-- **A step keeps it.** -/
theorem Inv.step {l : Turn T} (hi : Inv calls disk₀ s)
    (hs : Writers.step h calls s l = some s') : Inv calls disk₀ s' := by
  obtain ⟨c, o⟩ := l
  have hsame : ∀ {p : Phase}, p.file = (s.phase c).file →
      Function.update (fun c' => (s.phase c').file) c p.file = fun c' => (s.phase c').file := by
    intro p hp
    rw [hp]
    exact Function.update_eq_self c _
  cases Step.of_step hs with
  | @move disk p hfile hread hp =>
    refine hi.go (hi.files.congr hread (hsame ?_)) (fun dir attempt heq => ?_) ?_
    · rcases hp with ⟨e, rfl⟩ | ⟨dir, attempt, rfl, -⟩ <;> exact hfile.symm
    · rcases hp with ⟨e, rfl⟩ | ⟨dir', attempt', rfl, hpriority | ⟨a, hphase⟩⟩
      · exact absurd heq (by simp)
      · exact hpriority
      · exact hi.checked c dir' a hphase
    · rintro q m heq
      rcases hp with ⟨e, rfl⟩ | ⟨dir, attempt, rfl, -⟩ <;> exact absurd heq (by simp)
  -- the name was free on the disk, so no call owns it and it was not there at the start
  | @create dir p attempt path hphase hne hfree =>
    have hfresh : disk₀.read p = none := by
      rcases hr : disk₀.read p with _ | content
      · rfl
      · rw [hi.files.kept p content hr] at hfree
        exact absurd hfree (by simp)
    refine hi.go (hi.files.put hne hfresh (fun q u hc => ?_) fun c' u hc => ?_) (by simp) ?_
    · rw [hphase] at hc
      exact absurd hc (by simp [Phase.file])
    · rw [(hi.files.owned c' p u hc).2] at hfree
      exact absurd hfree (by simp)
    · rintro q m (heq | ⟨left, heq⟩)
      · obtain ⟨-, rfl⟩ := Phase.holding.inj heq
        exact ⟨hi.checked c dir attempt hphase, attempt, path, rfl⟩
      · exact absurd heq (by simp)
  -- a call writes to the file that it owns since it was created
  | @write p m left hphase hm hleft =>
    have hfile : (s.phase c).file = some (p, .text []) := by
      rw [hphase]
      rfl
    obtain ⟨hfresh, hread⟩ := hi.files.owned c p _ hfile
    refine hi.go (hi.files.put (Fs.ne_nil_of_read hread) hfresh (fun q u hc => ?_)
      fun c' u hc => ?_) (by simp) ?_
    · rw [hfile] at hc
      exact (Prod.mk.inj (Option.some.inj hc)).1.symm
    · exact hi.files.distinct c' c p u _ hc hfile
    · rintro q m' (heq | ⟨left', heq⟩)
      · exact absurd heq (by simp)
      · obtain ⟨-, rfl, -⟩ := Phase.returned.inj heq
        exact hi.message c p m (.inl hphase)
  | @fail p m e hphase hm =>
    refine hi.go (hi.files.congr (fun _ => rfl) (hsame ?_)) (by simp) (by simp)
    rw [hphase]
    rfl

/-! ### Atomicity -/

/-- **The calls are atomic**: each that has returned has a new file of its own, with its whole
message; the files that were there are as they were; and there are no others but those of the
calls that have returned or are about to write. -/
structure Atomic (calls : T → Request) (disk₀ : Disk) (s : State T) : Prop where
  whole : ∀ c p m left, s.phase c = .returned p m left → disk₀.read p = none ∧
    s.disk.read p = some (.text (renderMessage m)) ∧ ∃ attempt path,
      m = (calls c).draft.message (calls c).sentAt
        (candidateId ((calls c).draft.baseId (calls c).sentAt) attempt) path
  own : ∀ c c' p m m' left left', s.phase c = .returned p m left →
    s.phase c' = .returned p m' left' → c = c'
  kept : ∀ q content, disk₀.read q = some content → s.disk.read q = some content
  nothing : ∀ q content, s.disk.read q = some content → disk₀.read q = some content ∨
    ∃ c m, s.phase c = .holding q m ∨ ∃ left, s.phase c = .returned q m left

omit [DecidableEq T] in
/-- No call may be spoilt. -/
theorem Inv.atomic_iff_not_spoilt (hi : Inv calls disk₀ s) :
    Atomic calls disk₀ s ↔ ∀ c, ¬(s.phase c).Spoilt := by
  constructor
  · intro ha c hspoilt
    rcases hphase : s.phase c with _ | ⟨dir, attempt⟩ | ⟨p, m⟩ | ⟨p, m, left⟩ | ⟨e, _ | p⟩ <;>
      rw [hphase] at hspoilt
    · exact hspoilt
    · exact hspoilt
    · exact hspoilt
    · -- what it has returned is not in its file
      have hread := (hi.files.owned c p left (by rw [hphase]; rfl)).2
      rw [(ha.whole c p m left hphase).2.1] at hread
      exact hspoilt (Option.some.inj hread).symm
    · exact absurd hspoilt (by simp [Phase.Spoilt])
    · -- its file is no other call's
      have hfile : (s.phase c).file = some (p, .text []) := by
        rw [hphase]
        rfl
      obtain ⟨hfresh, hread⟩ := hi.files.owned c p _ hfile
      rcases ha.nothing p _ hread with h₀ | ⟨c', m, hc'⟩
      · rw [hfresh] at h₀
        exact absurd h₀ (by simp)
      · obtain ⟨t, hfile'⟩ : ∃ t, (s.phase c').file = some (p, t) := by
          rcases hc' with hc' | ⟨left, hc'⟩ <;> rw [hc']
          · exact ⟨_, rfl⟩
          · exact ⟨_, rfl⟩
        obtain rfl := hi.files.distinct c c' p _ t hfile hfile'
        rw [hphase] at hc'
        exact absurd hc' (by simp)
  · intro hno
    have hleft : ∀ {c p m left}, s.phase c = .returned p m left →
        left = .text (renderMessage m) := by
      intro c p m left hc
      by_contra hne
      exact hno c (by rw [hc]; exact hne)
    have hfile : ∀ {c p m left}, s.phase c = .returned p m left →
        (s.phase c).file = some (p, left) := by
      intro c p m left hc
      rw [hc]
      rfl
    constructor
    · intro c p m left hc
      obtain ⟨hfresh, hread⟩ := hi.files.owned c p _ (hfile hc)
      exact ⟨hfresh, by rw [hread, hleft hc], (hi.message c p m (.inr ⟨left, hc⟩)).2⟩
    · exact fun c c' p m m' left left' hc hc' =>
        hi.files.distinct c c' p _ _ (hfile hc) (hfile hc')
    · exact hi.files.kept
    · intro q content hq
      refine (hi.files.only q content hq).imp_right ?_
      rintro ⟨c, t, hc⟩
      rcases hphase : s.phase c with _ | ⟨dir, attempt⟩ | ⟨p, m⟩ | ⟨p, m, left⟩ | ⟨e, _ | p⟩ <;>
        rw [hphase] at hc
      · exact absurd hc (by simp [Phase.file])
      · exact absurd hc (by simp [Phase.file])
      · obtain rfl := (Prod.mk.inj (Option.some.inj hc)).1
        exact ⟨c, m, .inl hphase⟩
      · obtain rfl := (Prod.mk.inj (Option.some.inj hc)).1
        exact ⟨c, m, .inr ⟨left, hphase⟩⟩
      · exact absurd hc (by simp [Phase.file])
      · exact absurd (by rw [hphase]; exact rfl) (hno c)

/-- A call that is about to write can encode its message, and there is room for it. -/
def Writes (calls : T → Request) (s : State T) (l : Turn T) : Prop :=
  ∀ p m, s.phase l.call = .holding p m →
    (calls l.call).draft.Encodes ∧ l.write.Room (renderMessage m)

omit [DecidableEq T] in
theorem Inv.encodable_iff (hi : Inv calls disk₀ s) {c : T} {p : Place Text} {m : StoredMessage}
    (hc : s.phase c = .holding p m) :
    Encodable (renderMessage m) ↔ (calls c).draft.Encodes := by
  obtain ⟨hpriority, attempt, path, rfl⟩ := hi.message c p m (.inl hc)
  exact encodable_renderMessage hpriority

/-- **A call is spoilt** by a write that goes wrong, and by nothing else. -/
theorem Inv.spoilt_iff {l : Turn T} (hi : Inv calls disk₀ s)
    (hstep : Writers.step h calls s l = some s') :
    (s'.phase l.call).Spoilt ↔ ¬Writes calls s l := by
  obtain ⟨c, o⟩ := l
  cases Step.of_step hstep with
  | @move disk p hfile hread hp =>
    refine iff_of_false ?_ (not_not.mpr fun p m hphase => ?_)
    · rw [State.phase_go_self]
      rcases hp with ⟨e, rfl⟩ | ⟨dir, attempt, rfl, -⟩
      · simp [Phase.Spoilt]
      · exact id
    · rw [show s.phase c = .holding p m from hphase] at hfile
      exact absurd hfile (by simp [Phase.file])
  | @create dir p attempt path hphase hne hfree =>
    refine iff_of_false ?_ (not_not.mpr fun p m hholding => ?_)
    · rw [State.phase_go_self]
      exact id
    · exact absurd (hphase.symm.trans hholding) (by simp)
  | @write p m left hphase hm hleft =>
    have hwrites : Writes calls s ⟨c, o⟩ ↔ o.Room (renderMessage m) := by
      constructor
      · exact fun hw => (hw p m hphase).2
      · intro hroom p' m' hphase'
        obtain ⟨-, rfl⟩ := Phase.holding.inj (hphase.symm.trans hphase')
        exact ⟨(hi.encodable_iff hphase).mp hm, hroom⟩
    rw [hwrites, Outcome.room_iff, hleft, State.phase_go_self, Option.some_inj]
    exact Iff.rfl
  -- the text cannot be encoded, or the disk does not take it: both leave the file empty
  | @fail p m e hphase hm =>
    refine iff_of_true ?_ fun hw => ?_
    · rw [State.phase_go_self]
      exact rfl
    · obtain ⟨hencodes, hroom⟩ := hw p m hphase
      rcases hm with hm | hm
      · exact hm ((hi.encodable_iff hphase).mpr hencodes)
      · rw [Outcome.room_iff.mp hroom] at hm
        exact absurd hm (by simp)

/-- The other calls are as they were. -/
theorem phase_of_ne {l : Turn T} (hstep : step h calls s l = some s') {c : T} (hne : c ≠ l.call) :
    s'.phase c = s.phase c := by
  cases Step.of_step hstep <;> exact State.phase_go_of_ne hne

/-- **When `write_message` is atomic.** For any number of calls, to any recipients and with any
arguments, on any disk and in any order of their steps: each call that has returned has a new
file of its own with its whole message, no other file is changed, and a call that has raised
leaves none; exactly if every call that is about to write a message has texts that can be
encoded, and finds room for them. -/
theorem atomic_iff {ls : List (Turn T)}
    (hrun : Lts.Run (Lts.ofStep (step h calls)) (start T disk₀) ls s) :
    Atomic calls disk₀ s ↔
      Lts.Run (Lts.Under (Writes calls) (Lts.ofStep (step h calls))) (start T disk₀) ls s := by
  have hi : Inv calls disk₀ s :=
    Lts.Run.inv_state (inv_start calls disk₀) (fun _ _ _ hi hs => hi.step hs) hrun
  have hiff := Lts.Run.iff_under (C := Writes calls)
    (P := fun s => Inv calls disk₀ s ∧ ∀ c, ¬(s.phase c).Spoilt)
    (B := fun s => ∃ c, (s.phase c).Spoilt)
    ⟨inv_start calls disk₀, fun _ => id⟩ ?_ ?_ ?_ ?_ hrun
  · rw [hi.atomic_iff_not_spoilt, ← hiff]
    exact (and_iff_right hi).symm
  · rintro s l s' ⟨hi, hno⟩ hC hs
    refine ⟨hi.step hs, fun c hspoilt => ?_⟩
    rcases eq_or_ne c l.call with rfl | hne
    · exact (hi.spoilt_iff hs).mp hspoilt hC
    · exact hno c (by rwa [phase_of_ne hs hne] at hspoilt)
  · rintro s l s' ⟨hi, -⟩ hC hs
    exact ⟨l.call, (hi.spoilt_iff hs).mpr hC⟩
  · rintro s l s' ⟨c, hspoilt⟩ hs
    refine ⟨c, ?_⟩
    have hne : c ≠ l.call := by
      rintro rfl
      -- a spoilt call has come to its end
      rcases hphase : s.phase l.call with _ | _ | _ | ⟨p, m, left⟩ | ⟨e, left⟩
      all_goals rw [hphase] at hspoilt
      · exact hspoilt
      · exact hspoilt
      · exact hspoilt
      · simp only [step, hphase] at hs
        exact absurd hs (by simp)
      · simp only [step, hphase] at hs
        exact absurd hs (by simp)
    rwa [phase_of_ne hs hne]
  · rintro s ⟨c, hspoilt⟩ ⟨-, hno⟩
    exact hno c hspoilt

/-! ### A call on its own -/

/-- A call has come to the end that this result stands for. -/
structure Ends (c : T) (r : Disk × Except Failure StoredMessage) (s : State T) : Prop where
  disk : s.disk = r.1
  returned : ∀ m, r.2 = .ok m → ∃ p, s.phase c = .returned p m (.text (renderMessage m))
  raised : ∀ e, r.2 = .error e → ∃ left, s.phase c = .raised e left

/-- The attempts of a call, from one of them on. -/
theorem exec_trying {c : T} {dir : Place Text} {baseId : Text}
    (hbase : (calls c).draft.baseId (calls c).sentAt = baseId) (n : ℕ) :
    ∀ {s : State T} {attempt : ℕ}, attempt + n = 99 → s.phase c = .trying dir attempt →
      ∃ k s', Lts.exec (step h calls) s (List.replicate k ⟨c, .whole⟩) = some s' ∧
        (∀ e, openCandidate h s.disk dir baseId (List.range' attempt (n + 1)) = .error e →
          s'.disk = s.disk ∧ s'.phase c = .raised e none) ∧
        ∀ p id, openCandidate h s.disk dir baseId (List.range' attempt (n + 1)) = .ok (p, id) →
          s'.disk = s.disk.put p (.file (.text [])) ∧ s'.phase c = .holding p
            ((calls c).draft.message (calls c).sentAt id (pathText dir (hops (fileName id)))) := by
  have hone : ∀ {s s' : State T}, step h calls s ⟨c, .whole⟩ = some s' →
      Lts.exec (step h calls) s (List.replicate 1 ⟨c, .whole⟩) = some s' :=
    fun hs => Lts.exec_cons hs []
  -- on the number of candidates left after this one; 99 is the last attempt
  induction n with
  | zero =>
    intro s attempt hn hphase
    rw [List.range'_one, openCandidate]
    rcases ho : openTarget h s.disk dir (fileName (candidateId baseId attempt)) with p | _ | _
    · refine ⟨1, _, hone (by simp only [step, hphase, hbase, ho]; rfl), by simp, ?_⟩
      intro q id hq
      obtain ⟨rfl, rfl⟩ := Prod.mk.inj (Except.ok.inj hq)
      exact ⟨rfl, State.phase_go_self ..⟩
    · have hlast : step h calls s ⟨c, .whole⟩ = some (s.go c s.disk
          (.raised (.runtime (lit "too many collisions on " ++ baseId)) none)) := by
        simp only [step, hphase, hbase, ho]
        rw [if_pos (by omega)]
      refine ⟨1, _, hone hlast, ?_, by simp [openCandidate]⟩
      intro e he
      obtain rfl := Except.error.inj he
      exact ⟨rfl, State.phase_go_self ..⟩
    · refine ⟨1, _, hone (by simp only [step, hphase, hbase, ho]; rfl), ?_, by simp⟩
      intro e he
      obtain rfl := Except.error.inj he
      exact ⟨rfl, State.phase_go_self ..⟩
  | succ n ih =>
    intro s attempt hn hphase
    rw [List.range'_succ, openCandidate]
    rcases ho : openTarget h s.disk dir (fileName (candidateId baseId attempt)) with p | _ | _
    · refine ⟨1, _, hone (by simp only [step, hphase, hbase, ho]; rfl), by simp, ?_⟩
      intro q id hq
      obtain ⟨rfl, rfl⟩ := Prod.mk.inj (Except.ok.inj hq)
      exact ⟨rfl, State.phase_go_self ..⟩
    · have hnext : step h calls s ⟨c, .whole⟩ =
          some (s.go c s.disk (.trying dir (attempt + 1))) := by
        simp only [step, hphase, hbase, ho]
        rw [if_neg (by omega)]
      obtain ⟨k, s', hexec, hrest⟩ :=
        ih (s := s.go c s.disk (.trying dir (attempt + 1))) (by omega) (State.phase_go_self ..)
      exact ⟨k + 1, s', (Lts.exec_cons hnext _).trans hexec, hrest⟩
    · refine ⟨1, _, hone (by simp only [step, hphase, hbase, ho]; rfl), ?_, by simp⟩
      intro e he
      obtain rfl := Except.error.inj he
      exact ⟨rfl, State.phase_go_self ..⟩

/-- **A call that nothing comes between** is `write_message`. -/
theorem exec_alone (h : Host) (calls : T → Request) (disk : Disk) (c : T) :
    ∃ k s, Lts.exec (step h calls) (start T disk) (List.replicate k ⟨c, .whole⟩) = some s ∧
      Ends c (writeMessage h (calls c).now disk (calls c).draft) s := by
  have hbegun : (start T disk).phase c = .begun := rfl
  have stop : ∀ (e : Failure) (disk₁ : Disk),
      step h calls (start T disk) ⟨c, .whole⟩ = some ((start T disk).go c disk₁ (.raised e none)) →
      writeMessage h (calls c).now disk (calls c).draft = (disk₁, .error e) →
      ∃ k s, Lts.exec (step h calls) (start T disk) (List.replicate k ⟨c, .whole⟩) = some s ∧
        Ends c (writeMessage h (calls c).now disk (calls c).draft) s := by
    intro e disk₁ hs hw
    refine ⟨1, _, Lts.exec_cons hs [], ?_⟩
    rw [hw]
    exact ⟨rfl, by simp, fun e' he => ⟨none, by rw [← Except.error.inj he, State.phase_go_self]⟩⟩
  rcases hr : (calls c).draft.refused h with _ | e
  · rcases hd : activeDir h (calls c).draft.toUser with e | dir
    · refine stop e disk ?_ (by simp only [writeMessage, reserve, hr, hd])
      simp only [step, hbegun, hr, hd]
      rfl
    · rcases hmk : disk.mkdirs h.accepts dir with _ | disk₁
      · refine stop (pathFailure h (pathText dir [])) disk ?_
          (by simp only [writeMessage, reserve, hr, hd, hmk])
        simp only [step, hbegun, hr, hd, show (start T disk).disk = disk from rfl, hmk]
      · have hfirst : step h calls (start T disk) ⟨c, .whole⟩ =
            some ((start T disk).go c disk₁ (.trying dir 0)) := by
          simp only [step, hbegun, hr, hd, show (start T disk).disk = disk from rfl, hmk]
        have hbase : (calls c).draft.baseId (calls c).sentAt =
            (calls c).draft.baseId (calls c).sentAt := rfl
        obtain ⟨k, s, hexec, herror, hok⟩ := exec_trying (h := h) hbase 99
          (s := (start T disk).go c disk₁ (.trying dir 0)) rfl (State.phase_go_self ..)
        have hrange : List.range 100 = List.range' 0 (99 + 1) := List.range_eq_range'
        have hrun : Lts.exec (step h calls) (start T disk) (List.replicate (k + 1) ⟨c, .whole⟩) =
            some s :=
          (Lts.exec_cons hfirst _).trans hexec
        rw [State.disk_go, ← hrange] at herror hok
        rcases ho : openCandidate h disk₁ dir ((calls c).draft.baseId (calls c).sentAt)
          (List.range 100) with e | ⟨p, id⟩
        · obtain ⟨hdisk, hphase⟩ := herror e ho
          refine ⟨k + 1, s, hrun, ?_⟩
          have hw : writeMessage h (calls c).now disk (calls c).draft = (disk₁, .error e) := by
            have hreserve : reserve h (calls c).sentAt disk (calls c).draft =
                (disk₁, .error e) := by
              rw [reserve_eq hr hd hmk, ho]
              rfl
            rw [Request.sentAt] at hreserve
            rw [writeMessage, hreserve]
          rw [hw]
          exact ⟨hdisk, by simp, fun e' he => ⟨none, by rw [← Except.error.inj he, hphase]⟩⟩
        · obtain ⟨hdisk, hphase⟩ := hok p id ho
          -- the message is rendered and written
          obtain ⟨m, hm⟩ : ∃ m, m = (calls c).draft.message (calls c).sentAt id
            (pathText dir (hops (fileName id))) := ⟨_, rfl⟩
          rw [← hm] at hphase
          have hlast : ∀ {s'}, step h calls s ⟨c, .whole⟩ = some s' →
              Lts.exec (step h calls) (start T disk) (List.replicate (k + 1 + 1) ⟨c, .whole⟩) =
                some s' := by
            intro s' hs
            rw [List.replicate_succ', Lts.exec_snoc, hrun]
            exact hs
          have hreserve : reserve h (calls c).sentAt disk (calls c).draft =
              (disk₁, .ok (p, m)) := by
            rw [reserve_eq hr hd hmk, ho, hm]
            rfl
          rw [Request.sentAt] at hreserve
          by_cases hencode : Encodable (renderMessage m)
          · have hw : writeMessage h (calls c).now disk (calls c).draft =
                (disk₁.put p (.file (.text (renderMessage m))), .ok m) := by
              rw [writeMessage, hreserve]
              exact if_pos hencode
            refine ⟨k + 1 + 1, _, hlast (by simp only [step, hphase, if_pos hencode]; rfl), ?_⟩
            rw [hw]
            refine ⟨?_, fun m' hm' => ⟨p, ?_⟩, by simp⟩
            · rw [State.disk_go, hdisk, Fs.put_put]
            · rw [← Except.ok.inj hm', State.phase_go_self]
          · have hw : writeMessage h (calls c).now disk (calls c).draft =
                (disk₁.put p (.file (.text [])), .error (.encode (renderMessage m))) := by
              rw [writeMessage, hreserve]
              exact if_neg hencode
            refine ⟨k + 1 + 1, _, hlast (by simp only [step, hphase, if_neg hencode]; rfl), ?_⟩
            rw [hw]
            refine ⟨hdisk, by simp, fun e he => ⟨some p, ?_⟩⟩
            rw [← Except.error.inj he, State.phase_go_self]
  · refine stop e disk ?_ (by simp only [writeMessage, reserve, hr])
    simp only [step, hbegun, hr]
    rfl

end Step

/-! ### Two calls -/

/-- Two calls in one second, by one user to one user, with one subject. -/
def twice (_ : Bool) : Request := ⟨1779105600, note (lit "s")⟩

/-- Both begin, then both try; the one that finds the name taken tries the next one. -/
def oneByOne : List (Turn Bool) := [true, false, true, false, false, true, false].map (⟨·, .whole⟩)

theorem encodes_note : ∀ c, (twice c).draft.Encodes := by
  intro c
  have htexts : Encodable (note (lit "s")).fromUser ∧
      (∀ t ∈ (note (lit "s")).fromEmail, Encodable t) ∧ Encodable (note (lit "s")).toUser ∧
      Encodable (note (lit "s")).effSubject ∧ (∀ t ∈ (note (lit "s")).inReplyTo, Encodable t) ∧
      (∀ t ∈ (note (lit "s")).msgType, Encodable t) ∧ Encodable (note (lit "s")).body := by
    decide +kernel
  obtain ⟨hfrom, hemail, hto, hsubject, hreply, htype, hbody⟩ := htexts
  exact ⟨hfrom, hemail, hto, hsubject, hreply, htype, hbody⟩

/-- They both write their messages, each into a file of its own. -/
theorem atomic_twice : ∃ s, (∀ c, (s.phase c).file.any fun f => f.2 ≠ .text []) ∧
    Atomic twice ⟨∅⟩ s := by
  obtain ⟨s, hrun, hs⟩ := Lts.exists_under_run_of_exec (step someHost twice)
    (C := fun _ l => l.write = .whole) (fun _ l => decide (l.write = .whole))
    (fun _ _ => of_decide_eq_true) (start Bool ⟨∅⟩) oneByOne
    (fun s => decide (∀ c, (s.phase c).file.any fun f => f.2 ≠ .text [])) (by decide +kernel)
  refine ⟨s, of_decide_eq_true hs, (atomic_iff (hrun.mono fun _ _ _ h => h.2)).mpr
    (hrun.mono fun _ l _ h => ⟨fun _ _ _ => ⟨encodes_note l.call, ?_⟩, h.2⟩)⟩
  rw [h.1]
  trivial

/-- A call whose body is a lone surrogate. -/
def surrogate (_ : Bool) : Request := ⟨1779105600, { note (lit "s") with body := [0xd800] }⟩

/-- **A call that raises and leaves an empty file.** -/
theorem not_atomic_surrogate : ∃ (ls : List (Turn Bool)) (s : State Bool),
    Lts.Run (Lts.ofStep (step someHost surrogate)) (start Bool ⟨∅⟩) ls s ∧
      ¬Atomic surrogate ⟨∅⟩ s := by
  obtain ⟨s, hrun, hs⟩ := Lts.exists_run_of_exec (step someHost surrogate) (start Bool ⟨∅⟩)
    (List.replicate 3 ⟨true, .whole⟩) (fun s => (s.phase true).Spoilt) (by decide +kernel)
  have hi : Inv surrogate ⟨∅⟩ s :=
    Lts.Run.inv_state (inv_start surrogate ⟨∅⟩) (fun _ _ _ hi hs => hi.step hs) hrun
  exact ⟨_, s, hrun, fun ha => hi.atomic_iff_not_spoilt.mp ha true (of_decide_eq_true hs)⟩

end Writers

end Inbox

end OtamanBridge
