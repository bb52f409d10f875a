import OtamanBridge.Inbox.Lines

/-!
# What the operations of the inbox read and write

For each operation, where on the disk its result comes from and where its effect goes.
Listing and marking work on the entries of one directory, the caller's; only
`mark_read` takes a path from its caller, so its statements are about the place this path
leads to. Sending makes directories and one new file.
-/

namespace OtamanBridge

namespace Inbox

open Py Posix

variable {h : Host} {disk disk' disk₂ : Disk} {dir : Place Text}

/-! ### Listing -/

/-- Two disks with the same directories and with the same entries in one of them. -/
structure AgreeOn (dir : Place Text) (disk disk₂ : Disk) : Prop where
  dirs : ∀ p, disk₂.isDir p = disk.isDir p
  nodes : ∀ n, disk₂.node (n :: dir) = disk.node (n :: dir)

theorem AgreeOn.read (ha : AgreeOn dir disk disk₂) (n : Text) :
    disk₂.read (n :: dir) = disk.read (n :: dir) :=
  Fs.read_congr (ha.nodes n)

theorem AgreeOn.messageAt (ha : AgreeOn dir disk disk₂) (n : Text) :
    messageAt disk₂ dir n = messageAt disk dir n := by
  simp only [Inbox.messageAt, ha.read]

theorem AgreeOn.collect (ha : AgreeOn dir disk disk₂) (f : Filter) (ns : List Text) (k : ℕ) :
    collect disk₂ dir f ns k = collect disk dir f ns k := by
  induction ns generalizing k with
  | nil => simp [Inbox.collect]
  | cons n ns ih =>
    cases k with
    | zero => simp [Inbox.collect]
    | succ k => simp only [Inbox.collect, ha.messageAt, ih]

/-- **A listing** comes from the caller's directory. -/
theorem listMessages_congr {userId : Text} (ha : ∀ dir, activeDir h userId = .ok dir →
    AgreeOn dir disk disk₂ ∧ disk₂.names dir = disk.names dir) (f : Filter) (limit : ℤ) :
    listMessages h disk₂ userId f limit = listMessages h disk userId f limit := by
  unfold listMessages
  split_ifs
  · rfl
  · rcases hd : activeDir h userId with e | dir
    · rfl
    · obtain ⟨hagree, hnames⟩ := ha dir hd
      simp only [hagree.dirs, hnames, hagree.collect]

/-! ### Marking one file -/

/-- The file beside a message file. -/
def tmpName (n : Text) : Text := n ++ lit ".tmp"

/-- Marking a file whose text is known. -/
theorem atomicSetReadAt_of_read {n path when raw : Text}
    (hread : disk.read (n :: dir) = some (.text raw)) :
    atomicSetReadAt h disk (n :: dir) path when =
      if markedText when raw = universalNewlines raw then .ok disk
      else if disk.isDir (tmpName n :: dir) || !h.accepts (tmpName n) then
        .error (pathFailure h (path ++ lit ".tmp"))
      else .ok ((disk.erase (tmpName n :: dir)).put (n :: dir)
        (.file (.text (markedText when raw)))) := by
  simp only [atomicSetReadAt, hread]
  rfl

/-- What marking a file does: nothing, or its marked text takes the place of the old one and
of the file beside it. -/
theorem atomicSetReadAt_eq_ok {n path when : Text}
    (hs : atomicSetReadAt h disk (n :: dir) path when = .ok disk') :
    disk' = disk ∨ ∃ raw, disk.read (n :: dir) = some (.text raw) ∧
      disk.isDir (tmpName n :: dir) = false ∧
      disk' = (disk.erase (tmpName n :: dir)).put (n :: dir)
        (.file (.text (markedText when raw))) := by
  unfold atomicSetReadAt at hs
  split at hs
  next n' dir' raw hp hread =>
    obtain ⟨rfl, rfl⟩ := List.cons.inj hp
    simp only at hs
    split_ifs at hs with heq htmp
    · exact .inl (Except.ok.inj hs).symm
    · rw [Bool.or_eq_true, not_or] at htmp
      exact .inr ⟨raw, hread, by simpa [tmpName] using htmp.1, (Except.ok.inj hs).symm⟩
  · exact .inl (Except.ok.inj hs).symm

/-- Marking a file changes no directory, and no entry of another one. -/
theorem atomicSetReadAt_frame {n path when : Text}
    (hs : atomicSetReadAt h disk (n :: dir) path when = .ok disk') :
    (∀ q, disk'.isDir q = disk.isDir q) ∧
      ∀ q, (∀ m, q ≠ m :: dir) → disk'.node q = disk.node q := by
  rcases atomicSetReadAt_eq_ok hs with rfl | ⟨raw, hread, htmp, rfl⟩
  · exact ⟨fun _ => rfl, fun _ _ => rfl⟩
  · constructor
    · intro q
      rw [Fs.isDir_put_file (by rw [Fs.isDir_erase htmp, Fs.isDir_of_read hread]),
        Fs.isDir_erase htmp]
    · intro q hq
      rw [Fs.node_put_of_ne (hq n), Fs.node_erase_of_ne (hq _)]

/-- Marking a file goes the same way on disks that agree on its directory. -/
theorem AgreeOn.atomicSetReadAt (ha : AgreeOn dir disk disk₂) (n path when : Text) :
    (∃ e, atomicSetReadAt h disk (n :: dir) path when = .error e ∧
      atomicSetReadAt h disk₂ (n :: dir) path when = .error e) ∨
    ∃ d d₂, atomicSetReadAt h disk (n :: dir) path when = .ok d ∧
      atomicSetReadAt h disk₂ (n :: dir) path when = .ok d₂ ∧ AgreeOn dir d d₂ := by
  rcases hr : disk.read (n :: dir) with _ | (raw | error)
  · refine .inr ⟨disk, disk₂, ?_, ?_, ha⟩ <;> simp [Inbox.atomicSetReadAt, ha.read, hr]
  · simp only [Inbox.atomicSetReadAt, ha.read, hr, ha.dirs]
    split_ifs with heq htmp
    · exact .inr ⟨_, _, rfl, rfl, ha⟩
    · exact .inl ⟨_, rfl, rfl⟩
    · refine .inr ⟨_, _, rfl, rfl, ?_, ?_⟩
      · have hn := Fs.isDir_of_read hr
        rw [Bool.or_eq_true, not_or, Bool.not_eq_true] at htmp
        intro p
        rw [Fs.isDir_put_file (by rw [Fs.isDir_erase (by rw [ha.dirs, htmp.1]), ha.dirs, hn]),
          Fs.isDir_erase (by rw [ha.dirs, htmp.1]), ha.dirs,
          Fs.isDir_put_file (by rw [Fs.isDir_erase htmp.1, hn]), Fs.isDir_erase htmp.1]
      · intro m
        rcases eq_or_ne (m :: dir) (n :: dir) with heq | hne
        · rw [heq, Fs.node_put_self (List.cons_ne_nil n dir),
            Fs.node_put_self (List.cons_ne_nil n dir)]
        · rw [Fs.node_put_of_ne hne, Fs.node_put_of_ne hne]
          rcases eq_or_ne (m :: dir) ((n ++ lit ".tmp") :: dir) with heq' | hne'
          · rw [heq', Fs.node_erase_self (List.cons_ne_nil _ dir),
              Fs.node_erase_self (List.cons_ne_nil _ dir)]
          · rw [Fs.node_erase_of_ne hne', Fs.node_erase_of_ne hne', ha.nodes]
  · refine .inr ⟨disk, disk₂, ?_, ?_, ha⟩ <;> simp [Inbox.atomicSetReadAt, ha.read, hr]

/-! ### Marking many -/

/-- The loop of `mark_all_before` changes no directory, and no entry of another one. -/
theorem markAllBefore_frame (h : Host) (dir : Place Text) (when cutoff : Text)
    (ns : List Text) (disk : Disk) :
    (∀ q, (markAllBefore h dir when cutoff ns disk).1.isDir q = disk.isDir q) ∧
      ∀ q, (∀ m, q ≠ m :: dir) →
        (markAllBefore h dir when cutoff ns disk).1.node q = disk.node q := by
  induction ns generalizing disk with
  | nil => exact ⟨fun _ => rfl, fun _ _ => rfl⟩
  | cons n ns ih =>
    simp only [markAllBefore]
    split
    · exact ih disk
    next m hm =>
      split_ifs
      · split
        · exact ⟨fun _ => rfl, fun _ _ => rfl⟩
        next d hd =>
          obtain ⟨hdirs, hnodes⟩ := atomicSetReadAt_frame hd
          refine ⟨fun q => ((ih d).1 q).trans (hdirs q), fun q hq => ?_⟩
          exact ((ih d).2 q hq).trans (hnodes q hq)
      · exact ih disk

/-- What the loop counts comes from its directory. -/
theorem AgreeOn.markAllBefore (ha : AgreeOn dir disk disk₂) (when cutoff : Text)
    (ns : List Text) : (markAllBefore h dir when cutoff ns disk₂).2 =
      (markAllBefore h dir when cutoff ns disk).2 := by
  induction ns generalizing disk disk₂ with
  | nil => rfl
  | cons n ns ih =>
    simp only [Inbox.markAllBefore, ha.messageAt]
    split
    · exact ih ha
    next m hm =>
      split_ifs
      · rcases ha.atomicSetReadAt (h := h) n (pathText dir [.down n]) when with
          ⟨e, hs, hs₂⟩ | ⟨d, d₂, hs, hs₂, hd⟩
        · rw [hs, hs₂]
        · simp only [hs, hs₂, ih hd]
      · exact ih ha

/-! ### Marking by path -/

/-- Marking by a file changes no directory, and no entry of another one than the
caller's, if the file is there. -/
theorem markFile_frame {when path : Text} {content : Content} {markAll : Bool} {n : Text}
    {r : Place Text} :
    (∀ q, (markFile h when disk dir (n :: r) path content markAll).1.isDir q = disk.isDir q) ∧
      (r = dir → ∀ q, (∀ m, q ≠ m :: dir) →
        (markFile h when disk dir (n :: r) path content markAll).1.node q = disk.node q) := by
  unfold markFile
  split
  · exact ⟨fun _ => rfl, fun _ _ _ => rfl⟩
  next target hread =>
    cases markAll with
    | true =>
      obtain ⟨hdirs, hnodes⟩ := markAllBefore_frame h dir when target.sentAt
        (disk.names dir) disk
      exact ⟨hdirs, fun _ => hnodes⟩
    | false =>
      simp only [Bool.false_eq_true, if_false]
      split_ifs
      · split
        · exact ⟨fun _ => rfl, fun _ _ _ => rfl⟩
        next d hd =>
          obtain ⟨hdirs, hnodes⟩ := atomicSetReadAt_frame hd
          refine ⟨hdirs, ?_⟩
          rintro rfl
          exact hnodes
      · exact ⟨fun _ => rfl, fun _ _ _ => rfl⟩

/-- What marking by a file of the caller's reports comes from that directory. -/
theorem AgreeOn.markFile (ha : AgreeOn dir disk disk₂)
    (hnames : disk₂.names dir = disk.names dir) {when path : Text} {content : Content}
    {markAll : Bool} {n : Text} :
    (markFile h when disk₂ dir (n :: dir) path content markAll).2 =
      (markFile h when disk dir (n :: dir) path content markAll).2 := by
  unfold Inbox.markFile
  split
  · rfl
  next target hread =>
    cases markAll with
    | true =>
      simp only [if_true, hnames]
      exact ha.markAllBefore _ _ _
    | false =>
      simp only [Bool.false_eq_true, if_false]
      split_ifs
      · rcases ha.atomicSetReadAt (h := h) n path when with
          ⟨e, hs, hs₂⟩ | ⟨d, d₂, hs, hs₂, -⟩
        · rw [hs, hs₂]
        · rw [hs, hs₂]
      · rfl

/-- Where the path of a message id leads from a directory. -/
def leadsTo (disk : Disk) (dir : Place Text) (messageId : Text) : Option (Place Text) :=
  disk.walk (markPath dir messageId).1 (markPath dir messageId).2

theorem markTarget_eq_some {messageId : Text} {p : Place Text} {content : Content}
    (ht : markTarget disk dir messageId = some (p, content)) :
    leadsTo disk dir messageId = some p ∧ disk.read p = some content := by
  obtain ⟨p', hlead, hp'⟩ := Option.bind_eq_some_iff.mp ht
  obtain ⟨c, hc, hpc⟩ := Option.map_eq_some_iff.mp hp'
  obtain ⟨rfl, rfl⟩ := Prod.mk.inj hpc
  exact ⟨hlead, hc⟩

/-- `mark_read` changes no directory, wherever the path leads. -/
theorem isDir_markRead (now : ℕ) (disk : Disk) (userId messageId : Text) (markAll : Bool)
    (q : Place Text) :
    (markRead h now disk userId messageId markAll).1.isDir q = disk.isDir q := by
  unfold markRead
  split
  · rfl
  · split_ifs
    · rfl
    · split
      · rfl
      next p content ht =>
        obtain ⟨-, hread⟩ := markTarget_eq_some ht
        obtain ⟨n, r, rfl⟩ := List.exists_cons_of_ne_nil (Fs.ne_nil_of_read hread)
        exact markFile_frame.1 q

/-- **Marking stays in the caller's directory**, if the path stays there. -/
theorem markRead_frame {now : ℕ} {userId messageId : Text} {markAll : Bool}
    (hdir : activeDir h userId = .ok dir) (hin : ∀ p, disk.isDir dir →
      leadsTo disk dir messageId = some p → disk.isDir p = false → ∃ n, p = n :: dir)
    {q : Place Text} (hq : ∀ m, q ≠ m :: dir) :
    (markRead h now disk userId messageId markAll).1.node q = disk.node q := by
  unfold markRead
  rw [hdir]
  simp only
  split_ifs with hexists
  · rfl
  · split
    · rfl
    next p content ht =>
      obtain ⟨hlead, hread⟩ := markTarget_eq_some ht
      obtain ⟨n, rfl⟩ := hin p (by simpa using hexists) hlead (Fs.isDir_of_read hread)
      exact markFile_frame.2 rfl q hq

/-- **What marking reports** comes from the caller's directory, if the path stays there. -/
theorem markRead_congr {now : ℕ} {userId messageId : Text} {markAll : Bool}
    (ha : ∀ dir, activeDir h userId = .ok dir →
      AgreeOn dir disk disk₂ ∧ disk₂.names dir = disk.names dir)
    (hin : ∀ dir p, activeDir h userId = .ok dir → disk.isDir dir →
      leadsTo disk dir messageId = some p → disk.isDir p = false → ∃ n, p = n :: dir) :
    (markRead h now disk₂ userId messageId markAll).2 =
      (markRead h now disk userId messageId markAll).2 := by
  unfold markRead
  rcases hdir : activeDir h userId with e | dir
  · rfl
  · obtain ⟨hagree, hnames⟩ := ha dir hdir
    simp only [hagree.dirs]
    split_ifs with hexists
    · rfl
    · have htarget : markTarget disk₂ dir messageId = markTarget disk dir messageId := by
        have hlead : leadsTo disk₂ dir messageId = leadsTo disk dir messageId :=
          Fs.walk_congr hagree.dirs _ _
        unfold leadsTo at hlead
        simp only [markTarget, hlead]
        rcases hp : disk.walk (markPath dir messageId).1 (markPath dir messageId).2 with _ | p
        · rfl
        · cases hdirp : disk.isDir p with
          | true =>
            rw [Option.bind_some, Option.bind_some, Fs.read_of_isDir hdirp,
              Fs.read_of_isDir ((hagree.dirs p).trans hdirp)]
          | false =>
            obtain ⟨n, rfl⟩ := hin dir p hdir (by simpa using hexists) hp hdirp
            rw [Option.bind_some, Option.bind_some, hagree.read]
      rw [htarget]
      split
      · rfl
      next p content ht =>
        obtain ⟨hlead, hread⟩ := markTarget_eq_some ht
        obtain ⟨n, rfl⟩ := hin dir p hdir (by simpa using hexists) hlead (Fs.isDir_of_read hread)
        exact hagree.markFile hnames

/-! ### Sending -/

theorem isDir_reserve {sentAt : Text} {d : Draft} {disk₁ : Disk} {q : Place Text}
    {r : Except Failure (Place Text × StoredMessage)}
    (hr : reserve h sentAt disk d = (disk₁, r)) (hq : disk₁.isDir q) :
    disk.isDir q ∨ ∃ dir, activeDir h d.toUser = .ok dir ∧ q <:+ dir := by
  unfold reserve at hr
  split at hr
  · rw [(Prod.mk.inj hr).1]
    exact .inl hq
  · rw [(Prod.mk.inj hr).1]
    exact .inl hq
  next dir hnone hdir =>
    split at hr
    · rw [(Prod.mk.inj hr).1]
      exact .inl hq
    next d₂ hmk =>
      obtain rfl : d₂ = disk₁ := by split at hr <;> exact (Prod.mk.inj hr).1
      rcases Fs.node_mkdirs hmk q with heq | ⟨-, -, hsuf⟩
      · rw [Fs.isDir_congr heq] at hq
        exact .inl hq
      · exact .inr ⟨dir, hdir, hsuf⟩

/-- Sending makes no directories but the recipient's and those above it. -/
theorem isDir_writeMessage {now : ℕ} {d : Draft} {q : Place Text}
    (hq : (writeMessage h now disk d).1.isDir q) : disk.isDir q ∨
      ∃ dir, activeDir h d.toUser = .ok dir ∧ q <:+ dir := by
  unfold writeMessage at hq
  generalize (DateTime.ofTimestamp now).iso = sentAt at hq
  split at hq
  next d₁ e hr => exact isDir_reserve hr hq
  next d₁ p m hr =>
    obtain ⟨-, hnone, -⟩ := node_of_reserve hr
    have hfile : d₁.isDir p = false := by simp [Fs.isDir, hnone]
    split_ifs at hq <;> exact isDir_reserve hr (by rwa [Fs.isDir_put_file hfile] at hq)

end Inbox

end OtamanBridge
