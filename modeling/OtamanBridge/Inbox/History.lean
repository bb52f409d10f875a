import OtamanBridge.Inbox.Isolation
import OtamanBridge.Inbox.RoundTrip

/-!
# Inboxes that the store has made

Any calls of `write_message` and `mark_read`, one after the other, on a disk without inboxes.
Whatever their arguments, each message that `write_message` has returned has a file of its own
in the inbox of its recipient. This is as it was written, but perhaps for the one line that
marking writes over. Beside these files there are empty ones at most, of messages that could
not be encoded (`OtamanBridge.Inbox.Produced.ledger`).
-/

namespace OtamanBridge

namespace Inbox

open Py Posix

/-! ### Calls -/

/-- The disk, and the messages that `write_message` has returned, the latest first. -/
structure History where
  disk : Disk
  sent : List StoredMessage

/-- A call that writes. -/
inductive Op
  | write (now : ℕ) (d : Draft)
  | mark (now : ℕ) (userId messageId : Text) (markAll : Bool)

/-- What a call does. -/
def History.apply (h : Host) (s : History) : Op → History
  | .write now d =>
    { disk := (writeMessage h now s.disk d).1
      sent := (writeMessage h now s.disk d).2.toOption.toList ++ s.sent }
  | .mark now userId messageId markAll =>
    { s with disk := (markRead h now s.disk userId messageId markAll).1 }

/-- The inboxes were made by these calls. -/
def Produced (h : Host) (ops : List Op) (s : History) : Prop :=
  ∃ disk, Fresh h disk ∧ Lts.Run (fun s op s' => s' = s.apply h op) ⟨disk, []⟩ ops s

variable {h : Host} {disk disk' disk₁ : Disk} {dir p : Place Text} {when raw : Text}
  {m : StoredMessage} {s : History} {ops : List Op}

/-! ### What becomes of a text -/

/-- The time that is written is read back. -/
theorem stamp_iso (d : DateTime) : Stamp d.iso := by
  have hvisible : ∀ c ∈ d.iso, isSpace c = false ∧ c ≠ '"'.toNat ∧ c ≠ 'n'.toNat := by
    have hq : '"'.toNat = 34 ∧ 'n'.toNat = 110 := by decide
    intro c hc
    rcases DateTime.mem_iso hc with hdigit | hletter
    · rw [hq.1, hq.2]
      refine ⟨(nameChar_of_slugChar (slugChar_of_digit hdigit)).1, by omega, by omega⟩
    · have : ∀ c ∈ lit "-T:Z", isSpace c = false ∧ c ≠ '"'.toNat ∧ c ≠ 'n'.toNat := by decide
      exact this c hletter
  have hstrip : strip d.iso = d.iso :=
    strip_eq_self (fun c hc => (hvisible c (List.mem_of_mem_head? hc)).1)
      fun c hc => (hvisible c (List.mem_of_mem_getLast? hc)).1
  have hne : d.iso ≠ [] := (kept_iso d).2.ne_nil
  refine ⟨(kept_iso d).1, ?_⟩
  rw [strip_space_cons (by decide), hstrip, readValue, if_neg, if_neg]
  · rintro ⟨hhead, -⟩
    exact (hvisible _ (List.mem_of_mem_head? hhead)).2.1 rfl
  · rintro (hnull | hnil)
    · have hn : 'n'.toNat ∈ d.iso := by
        rw [hnull]
        decide
      exact (hvisible _ hn).2.2 rfl
    · exact hne hnil

/-- The text of a file of the message: as it was written, or marked. -/
def Version (m : StoredMessage) (raw : Text) : Prop :=
  raw = renderMessage m ∨ ∃ when, Stamp when ∧ raw = markedText when (renderMessage m)

theorem Version.marked (h : Version m raw) (hwhen : Stamp when) :
    Version m (markedText when raw) := by
  rcases h with rfl | ⟨when', hwhen', rfl⟩
  · exact .inr ⟨when, hwhen, rfl⟩
  · exact .inr ⟨when, hwhen, markedText_markedText hwhen'.oneLine when⟩

theorem headed_renderMessage (m : StoredMessage) : Headed (renderMessage m) := by
  have hrest : ∃ t, renderMessage m = (lit "---" ++ [10] ++ lit "id: ") ++ t := by
    rw [renderMessage, List.append_assoc, List.singleton_append, joinLines_cons (by simp [header]),
      header, List.map_cons, List.cons_append]
    obtain ⟨t, ht⟩ := joinLines_append_cons (lit "id: ") (yamlValue (some m.id)) _
    exact ⟨t, by rw [headerLine, show lit "id" ++ lit ": " = lit "id: " from rfl, ht]; rfl⟩
  obtain ⟨t, ht⟩ := hrest
  obtain ⟨l, ls, hsplit⟩ :=
    exists_splitOn_append (by decide : 10 ∉ lit "id: ") (universalNewlines t)
  refine ⟨l, ls, ?_⟩
  rw [linesOf, ht, universalNewlines_append (by decide), List.append_assoc, List.append_assoc,
    List.singleton_append, List.splitOn_append_cons_self, hsplit,
    List.splitOn_eq_singleton (by decide), List.singleton_append]

theorem Version.headed (h : Version m raw) : Headed raw := by
  rcases h with rfl | ⟨when, hwhen, rfl⟩
  · exact headed_renderMessage m
  · exact (headed_renderMessage m).marked hwhen.oneLine

/-! ### What marking does to a disk -/

/-- **Marking changes no directory, and a file by one line at most**. Only files beside
message files go. -/
structure Marks (when : Text) (disk disk' : Disk) : Prop where
  dirs : ∀ q, disk'.isDir q = disk.isDir q
  reads : ∀ q, disk'.read q = disk.read q ∨
    (∃ raw, disk.read q = some (.text raw) ∧ disk'.read q = some (.text (markedText when raw))) ∨
    ((∃ n r, q = tmpName n :: r) ∧ disk'.read q = none)

theorem Marks.refl (when : Text) (disk : Disk) : Marks when disk disk :=
  ⟨fun _ => rfl, fun _ => .inl rfl⟩

theorem Marks.trans (h : Marks when disk disk₁) (h' : Marks when disk₁ disk')
    (hwhen : OneLine when) : Marks when disk disk' := by
  refine ⟨fun q => (h'.dirs q).trans (h.dirs q), fun q => ?_⟩
  rcases h'.reads q with heq | ⟨raw, hraw, heq⟩ | hgone
  · rw [heq]
    exact h.reads q
  · rw [heq]
    rcases h.reads q with hsame | ⟨raw₀, hraw₀, hmarked⟩ | ⟨-, hnone⟩
    · exact .inr (.inl ⟨raw, hsame.symm.trans hraw, rfl⟩)
    · obtain rfl := Content.text.inj (Option.some.inj (hraw.symm.trans hmarked))
      exact .inr (.inl ⟨raw₀, hraw₀, by rw [markedText_markedText hwhen]⟩)
    · exact absurd (hraw.symm.trans hnone) (by simp)
  · exact .inr (.inr hgone)

theorem marks_atomicSetReadAt {path : Text}
    (hs : atomicSetReadAt h disk p path when = .ok disk') : Marks when disk disk' := by
  rcases p with _ | ⟨n, r⟩
  · obtain rfl := Except.ok.inj hs
    exact .refl when disk
  · refine ⟨(atomicSetReadAt_frame hs).1, fun q => ?_⟩
    rcases atomicSetReadAt_eq_ok hs with rfl | ⟨raw, hread, -, rfl⟩
    · exact .inl rfl
    · rcases eq_or_ne q (n :: r) with rfl | hq
      · exact .inr (.inl ⟨raw, hread, Fs.read_put_file (List.cons_ne_nil n r)⟩)
      · rw [Fs.read_congr (Fs.node_put_of_ne hq)]
        rcases eq_or_ne q (tmpName n :: r) with rfl | hq'
        · refine .inr (.inr ⟨⟨n, r, rfl⟩, ?_⟩)
          rw [Fs.read, Fs.node_erase_self (List.cons_ne_nil _ r)]
          rfl
        · exact .inl (Fs.read_congr (Fs.node_erase_of_ne hq'))

theorem marks_markAllBefore (hwhen : OneLine when) (cutoff : Text) (ns : List Text)
    (disk : Disk) : Marks when disk (markAllBefore h dir when cutoff ns disk).1 := by
  induction ns generalizing disk with
  | nil => exact .refl when disk
  | cons n ns ih =>
    rw [markAllBefore]
    split
    · exact ih disk
    · split_ifs
      · split
        · exact .refl when disk
        next disk₁ hs => exact (marks_atomicSetReadAt hs).trans (ih disk₁) hwhen
      · exact ih disk

theorem marks_markFile (hwhen : OneLine when) (path : Text) (content : Content)
    (markAll : Bool) : Marks when disk (markFile h when disk dir p path content markAll).1 := by
  unfold markFile
  split
  · exact .refl when disk
  · split_ifs
    · exact marks_markAllBefore hwhen _ _ disk
    · split
      · exact .refl when disk
      next disk₁ hs => exact marks_atomicSetReadAt hs
    · exact .refl when disk

/-- **What `mark_read` does to a disk**, whatever it is called with. -/
theorem marks_markRead (now : ℕ) (disk : Disk) (userId messageId : Text) (markAll : Bool) :
    Marks (DateTime.ofTimestamp now).iso disk
      (markRead h now disk userId messageId markAll).1 := by
  unfold markRead
  split
  · exact .refl _ disk
  · split_ifs
    · exact .refl _ disk
    · split
      · exact .refl _ disk
      · exact marks_markFile (stamp_iso _).oneLine _ _ markAll

/-! ### Names -/

/-- A name that a message file has. -/
def MessageName (n : Text) : Prop := lit ".md" <:+ n ∧ '/'.toNat ∉ n

theorem messageName_fileName {id : Text} (h : '/'.toNat ∉ id) : MessageName (fileName id) := by
  refine ⟨List.suffix_append id _, ?_⟩
  rw [fileName, List.mem_append, not_or]
  exact ⟨h, by decide⟩

/-- The files beside message files have other names. -/
theorem not_md_tmpName (n : Text) : ¬lit ".md" <:+ tmpName n := by
  intro h
  have hsuf : lit ".md" <:+ lit ".tmp" :=
    List.suffix_of_suffix_length_le h (List.suffix_append n _) (by decide)
  exact absurd hsuf (by decide)

/-! ### What is in the inboxes -/

/-- `write_message` has written the message with one of the calls. -/
def WrittenBy (ops : List Op) (m : StoredMessage) : Prop :=
  ∃ now d attempt, Op.write now d ∈ ops ∧ d.priority ∈ priorities ∧
    m = d.message (DateTime.ofTimestamp now).iso
      (candidateId (d.baseId (DateTime.ofTimestamp now).iso) attempt) m.path

/-- **The messages of the inboxes, and their files.** -/
structure Ledger (h : Host) (ops : List Op) (s : History) : Prop where
  tidy : Tidy h s.disk
  written : ∀ m ∈ s.sent, WrittenBy ops m
  /-- Every message has a file, in its recipient's inbox. -/
  filed : ∀ m ∈ s.sent, '/'.toNat ∉ m.id ∧ ∃ dir raw, activeDir h m.toUser = .ok dir ∧
    s.disk.read (fileName m.id :: dir) = some (.text raw) ∧ Version m raw
  /-- Every file is that of a message, or an empty one. -/
  only : ∀ u dir n c, activeDir h u = .ok dir → s.disk.read (n :: dir) = some c →
    s.disk.isDir dir ∧ MessageName n ∧
      (c = .text [] ∨ ∃ m ∈ s.sent, m.toUser = u ∧ n = fileName m.id)
  /-- No two messages of an inbox have one id. -/
  distinct : s.sent.Pairwise fun m m' => m.toUser = m'.toUser → m.id ≠ m'.id

theorem WrittenBy.mono {ops' : List Op} (hm : WrittenBy ops m) (hsub : ∀ op ∈ ops, op ∈ ops') :
    WrittenBy ops' m := by
  obtain ⟨now, d, attempt, hin, hrest⟩ := hm
  exact ⟨now, d, attempt, hsub _ hin, hrest⟩

theorem Fresh.ledger (hf : Fresh h disk) : Ledger h [] ⟨disk, []⟩ where
  tidy := hf.tidy
  written _ hm := absurd hm List.not_mem_nil
  filed _ hm := absurd hm List.not_mem_nil
  only u dir n c hdir hread := by
    have hnone : disk.node (n :: dir) = none := by
      rcases (activeDir_eq_ok hdir).2 with ⟨-, rfl⟩ | rfl
      · exact hf [n, lit "active"] (by simp)
      · exact hf [n, lit "active", u] (by simp)
    rw [Fs.read, hnone] at hread
    exact absurd hread (by simp)
  distinct := .nil

/-- Marking keeps the messages. -/
theorem Ledger.mark (hl : Ledger h ops s) (now : ℕ) (userId messageId : Text) (markAll : Bool) :
    Ledger h (ops ++ [.mark now userId messageId markAll])
      (s.apply h (.mark now userId messageId markAll)) := by
  have hmarks := marks_markRead (h := h) now s.disk userId messageId markAll
  have hstamp := stamp_iso (DateTime.ofTimestamp now)
  refine ⟨hl.tidy.markRead _ _ _ _, fun m hm => ?_, fun m hm => ?_, fun u dir n c hdir hread => ?_,
    hl.distinct⟩
  · exact (hl.written m hm).mono fun op hop => List.mem_append_left _ hop
  · obtain ⟨hslash, dir, raw, hdir, hread, hversion⟩ := hl.filed m hm
    refine ⟨hslash, dir, ?_⟩
    rcases hmarks.reads (fileName m.id :: dir) with heq | ⟨raw₀, hraw, heq⟩ | ⟨⟨n, r, htmp⟩, -⟩
    · exact ⟨raw, hdir, heq.trans hread, hversion⟩
    · obtain rfl := Content.text.inj (Option.some.inj (hraw.symm.trans hread))
      exact ⟨_, hdir, heq, hversion.marked hstamp⟩
    · refine absurd (messageName_fileName hslash).1 ?_
      rw [(List.cons.inj htmp).1]
      exact not_md_tmpName n
  · rcases hmarks.reads (n :: dir) with heq | ⟨raw, hraw, heq⟩ | ⟨-, hnone⟩
    · obtain ⟨hdir', hrest⟩ := hl.only u dir n c hdir (heq.symm.trans hread)
      exact ⟨(hmarks.dirs dir).trans hdir', hrest⟩
    · obtain ⟨hdir', hname, hempty | hrest⟩ := hl.only u dir n _ hdir hraw
      · obtain rfl := Content.text.inj hempty
        obtain rfl := Option.some.inj (heq.symm.trans hread)
        exact ⟨(hmarks.dirs dir).trans hdir', hname, .inl rfl⟩
      · exact ⟨(hmarks.dirs dir).trans hdir', hname, .inr hrest⟩
    · exact absurd (hread.symm.trans hnone) (by simp)

/-- Making room for a message removes no directory. -/
theorem isDir_of_reserve {sentAt : Text} {d : Draft} {q : Place Text}
    {r : Except Failure (Place Text × StoredMessage)}
    (hr : reserve h sentAt disk d = (disk₁, r)) (hq : disk.isDir q) : disk₁.isDir q := by
  unfold reserve at hr
  split at hr
  · rwa [← (Prod.mk.inj hr).1]
  · rwa [← (Prod.mk.inj hr).1]
  · split at hr
    · rwa [← (Prod.mk.inj hr).1]
    next disk₂ hmk =>
      obtain rfl : disk₂ = disk₁ := by split at hr <;> exact (Prod.mk.inj hr).1
      rcases Fs.node_mkdirs hmk q with heq | ⟨hnone, -⟩
      · rwa [Fs.isDir_congr heq]
      · simp [Fs.isDir, hnone] at hq

/-- One more file, with a message that is new or empty. -/
theorem Ledger.put {now : ℕ} {d : Draft} {t : Text} {sent : List StoredMessage}
    (hl : Ledger h ops s)
    (hr : reserve h (DateTime.ofTimestamp now).iso s.disk d = (disk₁, .ok (p, m)))
    (ht : t = [] ∧ sent = s.sent ∨ t = renderMessage m ∧ sent = m :: s.sent)
    (htidy : Tidy h (disk₁.put p (.file (.text t)))) :
    Ledger h (ops ++ [.write now d]) ⟨disk₁.put p (.file (.text t)), sent⟩ := by
  obtain ⟨hne, hfree, hnone⟩ := node_of_reserve hr
  obtain ⟨-, attempt, -, -, hpriority, -, hm⟩ := reserve_eq_ok hr
  obtain ⟨dir₀, hdir₀, hexists, hslash, rfl⟩ := hl.tidy.place_of_reserve hr
  have hto : m.toUser = d.toUser := by
    rw [hm]
    rfl
  have hread : ∀ q, q ≠ fileName m.id :: dir₀ →
      (disk₁.put (fileName m.id :: dir₀) (.file (.text t))).read q = s.disk.read q := by
    intro q hq
    rw [Fs.read_congr (Fs.node_put_of_ne hq), read_of_reserve hr]
  have hdirs : ∀ q, disk₁.isDir q →
      (disk₁.put (fileName m.id :: dir₀) (.file (.text t))).isDir q := by
    intro q hq
    have hfile : disk₁.isDir (fileName m.id :: dir₀) = false := by simp [Fs.isDir, hfree]
    rwa [Fs.isDir_put_file hfile]
  -- the files of the earlier messages are others
  have hother : ∀ m' ∈ s.sent, ∀ dir, activeDir h m'.toUser = .ok dir →
      fileName m'.id :: dir ≠ fileName m.id :: dir₀ := by
    rintro m' hm' dir hdir heq
    obtain ⟨-, dir', raw, hdir', hraw, -⟩ := hl.filed m' hm'
    obtain rfl := Except.ok.inj (hdir'.symm.trans hdir)
    rw [heq, Fs.read, hnone] at hraw
    exact absurd hraw (by simp)
  have hsub : ∀ m' ∈ s.sent, m' ∈ sent := by
    intro m' hm'
    rcases ht with ⟨-, rfl⟩ | ⟨-, rfl⟩
    · exact hm'
    · exact List.mem_cons_of_mem m hm'
  have hcases : ∀ m' ∈ sent, m' ∈ s.sent ∨ m' = m ∧ t = renderMessage m := by
    intro m' hm'
    rcases ht with ⟨-, rfl⟩ | ⟨rfl, rfl⟩
    · exact .inl hm'
    · exact (List.mem_cons.mp hm').symm.imp_right fun heq => ⟨heq, rfl⟩
  refine ⟨htidy, fun m' hm' => ?_, fun m' hm' => ?_, fun u dir n c hdir hc => ?_, ?_⟩
  · rcases hcases m' hm' with hm' | ⟨rfl, -⟩
    · exact (hl.written m' hm').mono fun op hop => List.mem_append_left _ hop
    · exact ⟨now, d, attempt, List.mem_append_right _ List.mem_cons_self, hpriority, hm⟩
  · rcases hcases m' hm' with hm' | ⟨rfl, rfl⟩
    · obtain ⟨hslash', dir, raw, hdir, hraw, hversion⟩ := hl.filed m' hm'
      exact ⟨hslash', dir, raw, hdir, (hread _ (hother m' hm' dir hdir)).trans hraw, hversion⟩
    · rw [← hto] at hdir₀
      exact ⟨hslash, dir₀, _, hdir₀, Fs.read_put_file hne, .inl rfl⟩
  · rcases eq_or_ne (n :: dir) (fileName m.id :: dir₀) with heq | hq
    · obtain ⟨rfl, rfl⟩ := List.cons.inj heq
      refine ⟨hdirs _ hexists, messageName_fileName hslash, ?_⟩
      obtain rfl := Option.some.inj ((Fs.read_put_file hne).symm.trans hc)
      rcases ht with ⟨rfl, -⟩ | ⟨rfl, rfl⟩
      · exact .inl rfl
      · exact .inr ⟨m, List.mem_cons_self, hto.trans (activeDir_injective hdir₀ hdir), rfl⟩
    · rw [hread _ hq] at hc
      obtain ⟨hdir', hname, hrest⟩ := hl.only u dir n c hdir hc
      refine ⟨hdirs _ (isDir_of_reserve hr hdir'), hname, hrest.imp_right ?_⟩
      rintro ⟨m', hm', hrest⟩
      exact ⟨m', hsub m' hm', hrest⟩
  · rcases ht with ⟨-, rfl⟩ | ⟨-, rfl⟩
    · exact hl.distinct
    · refine List.pairwise_cons.mpr ⟨fun m' hm' hsame hid => ?_, hl.distinct⟩
      obtain ⟨-, dir, -, hdir, -⟩ := hl.filed m' hm'
      refine hother m' hm' dir hdir ?_
      rw [← hsame, hto] at hdir
      rw [hid, Except.ok.inj (hdir.symm.trans hdir₀)]

/-- Writing keeps the messages. -/
theorem Ledger.write (hl : Ledger h ops s) (now : ℕ) (d : Draft) :
    Ledger h (ops ++ [.write now d]) (s.apply h (.write now d)) := by
  have htidy := hl.tidy.writeMessage now d
  simp only [History.apply]
  unfold writeMessage at htidy ⊢
  rcases hr : reserve h (DateTime.ofTimestamp now).iso s.disk d with ⟨disk₁, e | ⟨p, m⟩⟩
  · simp only [hr] at htidy ⊢
    refine ⟨htidy, fun m hm => ?_, fun m hm => ?_, fun u dir n c hdir hc => ?_, hl.distinct⟩
    · exact (hl.written m hm).mono fun op hop => List.mem_append_left _ hop
    · obtain ⟨hslash, dir, raw, hdir, hraw, hversion⟩ := hl.filed m hm
      exact ⟨hslash, dir, raw, hdir, (read_of_reserve hr _).trans hraw, hversion⟩
    · obtain ⟨hdir', hrest⟩ := hl.only u dir n c hdir ((read_of_reserve hr _).symm.trans hc)
      exact ⟨isDir_of_reserve hr hdir', hrest⟩
  · simp only [hr] at htidy ⊢
    split_ifs at htidy ⊢
    · exact hl.put hr (.inr ⟨rfl, rfl⟩) htidy
    · exact hl.put hr (.inl ⟨rfl, rfl⟩) htidy

/-- **What is in inboxes that the store has made.** -/
theorem Produced.ledger (hp : Produced h ops s) : Ledger h ops s := by
  obtain ⟨disk, hf, hrun⟩ := hp
  refine Lts.Run.inv (I := fun ops s => Ledger h ops s) hf.ledger ?_ hrun
  rintro ops s op s' - hl rfl
  cases op with
  | write now d => exact hl.write now d
  | mark now userId messageId markAll => exact hl.mark now userId messageId markAll

/-! ### One note -/

/-- The inbox of `user-B`, after `user-A` has written one note. -/
def oneNote (subject : Text) : History :=
  History.apply someHost ⟨⟨∅⟩, []⟩ (.write 1779105600 (note subject))

theorem produced_oneNote (subject : Text) :
    Produced someHost [.write 1779105600 (note subject)] (oneNote subject) :=
  ⟨⟨∅⟩, fun _ _ => by simp [Fs.node, someHost], Lts.Run.nil.snoc rfl⟩

/-- The directory of `user-B`. -/
def inboxB : Place Text := [lit "active", lit "user-B", lit "inboxes"]

theorem activeDir_userB : activeDir someHost (lit "user-B") = .ok inboxB := by decide +kernel

end Inbox

end OtamanBridge
