import OtamanBridge.Inbox.History

/-!
# What `mark_read` marks

In inboxes that the store has made, `mark_read` is compared with what it is for: the messages
it is to mark are read afterwards, and otherwise as before; it returns their number; and
nothing else changes, nor does a second call change anything. This is so exactly if the file
of the message that is named can be read, and in each file that is to be marked the line that
is written over is the field's own (`OtamanBridge.Inbox.marksExactly_iff`).
-/

namespace OtamanBridge

namespace Inbox

open Py Posix

/-! ### What is to be marked -/

/-- The unread messages that a call is to mark: the one that is named, or with
`mark_all_before` those that were not sent later. -/
def Chosen (disk : Disk) (dir : Place Text) (messageId : Text) (markAll : Bool) (n : Text)
    (m : StoredMessage) : Prop :=
  messageAt disk dir n = some m ∧ m.readAt = none ∧
    if markAll then
      ∃ target, messageAt disk dir (fileName messageId) = some target ∧ m.sentAt ≤ target.sentAt
    else n = fileName messageId

/-- **A call marks exactly what it counts**, and a second one nothing. -/
structure MarksExactly (h : Host) (now : ℕ) (disk : Disk) (dir : Place Text)
    (userId messageId : Text) (markAll : Bool) : Prop where
  count : ∃ names : List Text, names.Nodup ∧
    (∀ n, n ∈ names ↔ ∃ m, Chosen disk dir messageId markAll n m) ∧
    (markRead h now disk userId messageId markAll).2 = .ok names.length
  marked : ∀ n m, Chosen disk dir messageId markAll n m →
    messageAt (markRead h now disk userId messageId markAll).1 dir n =
      some { m with readAt := some (DateTime.ofTimestamp now).iso }
  others : ∀ p, (∀ n m, Chosen disk dir messageId markAll n m → p ≠ n :: dir) →
    (markRead h now disk userId messageId markAll).1.node p = disk.node p
  again : ∀ now', markRead h now' (markRead h now disk userId messageId markAll).1 userId
    messageId markAll = ((markRead h now disk userId messageId markAll).1, .ok 0)

variable {h : Host} {now : ℕ} {disk disk' : Disk} {dir : Place Text}
  {n when cutoff userId messageId raw : Text} {m : StoredMessage} {markAll : Bool}

theorem messageAt_eq_some : messageAt disk dir n = some m ↔ lit ".md" <:+ n ∧
    ∃ content, disk.read (n :: dir) = some content ∧
      readMessage (pathText dir [.down n]) content = .ok m := by
  have hok : ∀ r : Except Failure StoredMessage, r.toOption = some m ↔ r = .ok m := by
    rintro (e | m')
    · exact ⟨fun heq => absurd heq (by simp [Except.toOption]), fun heq => absurd heq (by simp)⟩
    · exact ⟨fun heq => congrArg _ (Option.some.inj heq), fun heq => congrArg _ (Except.ok.inj heq)⟩
  unfold messageAt
  split_ifs with hmd
  · rw [Option.bind_eq_some_iff]
    simp only [hok, List.isSuffixOf_iff_suffix.mp hmd, true_and]
  · rw [List.isSuffixOf_iff_suffix] at hmd
    exact iff_of_false (by simp) fun hand => hmd hand.1

theorem messageAt_congr (hread : disk'.read (n :: dir) = disk.read (n :: dir)) :
    messageAt disk' dir n = messageAt disk dir n := by
  rw [messageAt, hread, messageAt]

/-! ### The effect of a call -/

/-- A directory in which every file can be marked. -/
def Ready (h : Host) (dir : Place Text) (disk : Disk) : Prop :=
  ∀ n content, disk.read (n :: dir) = some content → (∃ raw, content = .text raw) ∧
    disk.node (tmpName n :: dir) = none ∧ h.accepts (tmpName n)

/-- **These files are marked**, and nothing else changes. -/
structure Effect (when : Text) (dir : Place Text) (names : List Text) (disk disk' : Disk) :
    Prop where
  marked : ∀ n ∈ names, ∃ raw t, disk.read (n :: dir) = some (.text raw) ∧
    disk'.read (n :: dir) = some (.text t) ∧ universalNewlines t = markedText when raw
  others : ∀ p, (∀ n ∈ names, p ≠ n :: dir) → disk'.node p = disk.node p

theorem Effect.nil (when : Text) (dir : Place Text) (disk : Disk) :
    Effect when dir [] disk disk :=
  ⟨fun _ hn => absurd hn List.not_mem_nil, fun _ _ => rfl⟩

/-- One file is marked. -/
theorem Ready.atomicSetReadAt (hr : Ready h dir disk) {content : Content}
    (hread : disk.read (n :: dir) = some content) (hwhen : OneLine when) (path : Text) :
    ∃ disk', Inbox.atomicSetReadAt h disk (n :: dir) path when = .ok disk' ∧
      Effect when dir [n] disk disk' ∧ Ready h dir disk' := by
  obtain ⟨⟨raw, rfl⟩, hfree, haccepts⟩ := hr n content hread
  have hnodir : disk.isDir (tmpName n :: dir) = false := by simp [Fs.isDir, hfree]
  have hready : ∀ {disk'}, Effect when dir [n] disk disk' → Ready h dir disk' := by
    intro disk' heff n' content' hread'
    have hthere : ∃ c, disk.read (n' :: dir) = some c := by
      rcases eq_or_ne n' n with rfl | hne
      · exact ⟨_, hread⟩
      · refine ⟨content', (Fs.read_congr (heff.others _ ?_)).symm.trans hread'⟩
        rintro x hx heq
        exact hne ((List.cons.inj heq).1.trans (List.mem_singleton.mp hx))
    obtain ⟨c, hc⟩ := hthere
    obtain ⟨⟨raw', rfl⟩, hfree', haccepts'⟩ := hr n' c hc
    refine ⟨?_, ?_, haccepts'⟩
    · rcases eq_or_ne n' n with rfl | hne
      · obtain ⟨-, t, -, ht, -⟩ := heff.marked n' (List.mem_singleton_self n')
        exact ⟨t, Option.some.inj (hread'.symm.trans ht)⟩
      · have := heff.others (n' :: dir) (by
          rintro x hx heq
          exact hne ((List.cons.inj heq).1.trans (List.mem_singleton.mp hx)))
        rw [Fs.read_congr this, hc] at hread'
        exact ⟨raw', (Option.some.inj hread').symm⟩
    · rw [heff.others, hfree']
      rintro x hx heq
      -- the file beside `n'` is not there, and `n` is
      rw [heq, List.mem_singleton.mp hx] at hfree'
      rw [Fs.read, hfree'] at hread
      exact absurd hread (by simp)
  by_cases hsame : markedText when raw = universalNewlines raw
  · have heff : Effect when dir [n] disk disk := by
      refine ⟨fun x hx => ?_, fun _ _ => rfl⟩
      obtain rfl := List.mem_singleton.mp hx
      exact ⟨raw, raw, hread, hread, hsame.symm⟩
    refine ⟨disk, ?_, heff, hready heff⟩
    rw [atomicSetReadAt_of_read hread, if_pos hsame]
  · have heff : Effect when dir [n] disk ((disk.erase (tmpName n :: dir)).put (n :: dir)
        (.file (.text (markedText when raw)))) := by
      refine ⟨fun x hx => ?_, fun p hp => ?_⟩
      · obtain rfl := List.mem_singleton.mp hx
        exact ⟨raw, _, hread, Fs.read_put_file (List.cons_ne_nil _ _),
          universalNewlines_markedText hwhen⟩
      · rw [Fs.node_put_of_ne (hp n (List.mem_singleton_self n))]
        rcases eq_or_ne p (tmpName n :: dir) with rfl | hne
        · rw [Fs.node_erase_self (List.cons_ne_nil _ _), hfree]
        · exact Fs.node_erase_of_ne hne
    refine ⟨_, ?_, heff, hready heff⟩
    rw [atomicSetReadAt_of_read hread, if_neg hsame, if_neg (by simp [hnodir, haccepts])]

theorem Effect.cons {names : List Text} {disk₁ : Disk} (heff : Effect when dir [n] disk disk₁)
    (hrest : Effect when dir names disk₁ disk') (hn : n ∉ names) :
    Effect when dir (n :: names) disk disk' := by
  have hne : ∀ x ∈ names, ∀ y ∈ [n], x :: dir ≠ y :: dir := by
    rintro x hx y hy heq
    rw [(List.cons.inj heq).1, List.mem_singleton.mp hy] at hx
    exact hn hx
  refine ⟨fun x hx => ?_, fun p hp => ?_⟩
  · rcases List.mem_cons.mp hx with rfl | hx
    · obtain ⟨raw, t, hraw, ht, htext⟩ := heff.marked x (List.mem_singleton_self x)
      refine ⟨raw, t, hraw, (Fs.read_congr (hrest.others _ fun y hy heq => ?_)).trans ht, htext⟩
      exact hne y hy x (List.mem_singleton_self x) heq.symm
    · obtain ⟨raw, t, hraw, ht, htext⟩ := hrest.marked x hx
      exact ⟨raw, t, (Fs.read_congr (heff.others _ (hne x hx))).symm.trans hraw, ht, htext⟩
  · rw [hrest.others p fun y hy => hp y (List.mem_cons_of_mem n hy), heff.others p]
    rintro y hy
    rw [List.mem_singleton.mp hy]
    exact hp n List.mem_cons_self

/-- **The loop of `mark_all_before`** marks the unread messages that were not sent later. -/
theorem Ready.markAllBefore (hwhen : OneLine when) (cutoff : Text) {ns : List Text}
    (hnd : ns.Nodup) (hr : Ready h dir disk) : ∃ disk' names, names.Nodup ∧
      Effect when dir names disk disk' ∧
      Inbox.markAllBefore h dir when cutoff ns disk = (disk', .ok names.length) ∧
      ∀ n, n ∈ names ↔ n ∈ ns ∧
        ∃ m, messageAt disk dir n = some m ∧ m.readAt = none ∧ m.sentAt ≤ cutoff := by
  induction ns generalizing disk with
  | nil => exact ⟨disk, [], .nil, .nil when dir disk, rfl, fun n => by simp⟩
  | cons n ns ih =>
    obtain ⟨hn, hnd⟩ := List.nodup_cons.mp hnd
    by_cases hchosen : ∃ m, messageAt disk dir n = some m ∧ m.readAt = none ∧ m.sentAt ≤ cutoff
    · obtain ⟨m, hm, hunread, hle⟩ := hchosen
      obtain ⟨-, content, hread, -⟩ := messageAt_eq_some.mp hm
      obtain ⟨disk₁, hset, heff, hr₁⟩ := hr.atomicSetReadAt hread hwhen (pathText dir [.down n])
      obtain ⟨disk', names, hnodup, hrest, hloop, hnames⟩ := ih hnd hr₁
      -- the other files are looked at as they were
      have hsame : ∀ x ∈ ns, messageAt disk₁ dir x = messageAt disk dir x := by
        intro x hx
        refine messageAt_congr (Fs.read_congr (heff.others _ fun y hy heq => ?_))
        rw [(List.cons.inj heq).1, List.mem_singleton.mp hy] at hx
        exact hn hx
      have hnot : n ∉ names := fun hin => hn ((hnames n).mp hin).1
      refine ⟨disk', n :: names, List.nodup_cons.mpr ⟨hnot, hnodup⟩, heff.cons hrest hnot, ?_,
        fun x => ?_⟩
      · simp only [Inbox.markAllBefore, hm, hset, hloop]
        rw [if_pos ⟨by rw [hunread]; rfl, hle⟩]
        rfl
      · rw [List.mem_cons, List.mem_cons]
        constructor
        · rintro (rfl | hx)
          · exact ⟨.inl rfl, m, hm, hunread, hle⟩
          · obtain ⟨hin, hrest⟩ := (hnames x).mp hx
            rw [hsame x hin] at hrest
            exact ⟨.inr hin, hrest⟩
        · rintro ⟨rfl | hin, hrest⟩
          · exact .inl rfl
          · rw [← hsame x hin] at hrest
            exact .inr ((hnames x).mpr ⟨hin, hrest⟩)
    · obtain ⟨disk', names, hnodup, heff, hloop, hnames⟩ := ih hnd hr
      refine ⟨disk', names, hnodup, heff, ?_, fun x => ?_⟩
      · rw [Inbox.markAllBefore]
        rcases hm : messageAt disk dir n with _ | m
        · exact hloop
        · simp only
          rw [if_neg]
          · exact hloop
          · rintro ⟨hunread, hle⟩
            exact hchosen ⟨m, hm, by simpa using hunread, hle⟩
      · rw [hnames, List.mem_cons]
        constructor
        · rintro ⟨hin, hrest⟩
          exact ⟨.inr hin, hrest⟩
        · rintro ⟨rfl | hin, hrest⟩
          · exact absurd hrest hchosen
          · exact ⟨hin, hrest⟩

/-- The loop of `mark_all_before`, where there is nothing to mark. -/
theorem markAllBefore_of_none {ns : List Text}
    (hnone : ∀ n m, messageAt disk dir n = some m → m.readAt = none → ¬m.sentAt ≤ cutoff) :
    markAllBefore h dir when cutoff ns disk = (disk, .ok 0) := by
  induction ns with
  | nil => rfl
  | cons n ns ih =>
    rw [markAllBefore]
    rcases hm : messageAt disk dir n with _ | m
    · exact ih
    · simp only
      rw [if_neg]
      · exact ih
      · rintro ⟨hunread, hle⟩
        exact hnone n m hm (by simpa using hunread) hle

/-! ### A call for a message of the inbox -/

/-- Where the path of a message id leads that is a name. -/
theorem markRead_of_read (hdir : activeDir h userId = .ok dir) (hexists : disk.isDir dir)
    (hslash : '/'.toNat ∉ messageId) {content : Content}
    (hread : disk.read (fileName messageId :: dir) = some content) :
    markRead h now disk userId messageId markAll = markFile h (DateTime.ofTimestamp now).iso disk
      dir (fileName messageId :: dir) (pathText dir [.down (fileName messageId)]) content
      markAll := by
  have hpath : markPath dir messageId = (dir, [.down (fileName messageId)]) := by
    have hhead : messageId.head? ≠ some '/'.toNat := fun heq =>
      hslash (List.mem_of_mem_head? heq)
    have hone : hops (fileName messageId) = [.down (fileName messageId)] := by
      rw [hops_of_single (messageName_fileName hslash).2, fileName, toHop_md, Option.toList_some]
    rw [markPath, if_neg hhead, hone]
  have htarget : markTarget disk dir messageId = some (fileName messageId :: dir, content) := by
    simp only [markTarget, hpath, Fs.walk, hexists, if_true, Hop.go, Option.bind_some, hread,
      Option.map_some]
  rw [markRead, hdir]
  simp only
  rw [if_neg (by simp [hexists])]
  simp only [htarget, hpath]

/-- **The effect of `mark_read`** for a message that can be read. -/
theorem Ready.markRead (hr : Ready h dir disk) (now : ℕ) (markAll : Bool)
    (hdir : activeDir h userId = .ok dir) (hexists : disk.isDir dir)
    (hslash : '/'.toNat ∉ messageId) {target : StoredMessage}
    (htarget : messageAt disk dir (fileName messageId) = some target) :
    ∃ disk' names, names.Nodup ∧
      Effect (DateTime.ofTimestamp now).iso dir names disk disk' ∧
      Inbox.markRead h now disk userId messageId markAll = (disk', .ok names.length) ∧
      ∀ n, n ∈ names ↔ ∃ m, Chosen disk dir messageId markAll n m := by
  have hwhen : OneLine (DateTime.ofTimestamp now).iso := (stamp_iso _).oneLine
  obtain ⟨-, content, hread, hok⟩ := messageAt_eq_some.mp htarget
  rw [markRead_of_read hdir hexists hslash hread]
  simp only [markFile, hok]
  cases markAll with
  | true =>
    obtain ⟨disk', names, hnodup, heff, hloop, hnames⟩ :=
      hr.markAllBefore hwhen target.sentAt (Fs.nodup_names disk dir)
    refine ⟨disk', names, hnodup, heff, hloop, fun n => ?_⟩
    rw [hnames]
    constructor
    · rintro ⟨-, m, hm, hunread, hle⟩
      exact ⟨m, hm, hunread, target, htarget, hle⟩
    · rintro ⟨m, hm, hunread, target', htarget', hle⟩
      obtain rfl := Option.some.inj (htarget.symm.trans htarget')
      refine ⟨Fs.mem_names.mpr ?_, m, hm, hunread, hle⟩
      obtain ⟨-, c, hc, -⟩ := messageAt_eq_some.mp hm
      rcases hnode : disk.node (n :: dir) with _ | x
      · rw [Fs.read, hnode] at hc
        exact absurd hc (by simp)
      · rfl
  | false =>
    have honly : ∀ n, (∃ m, Chosen disk dir messageId false n m) ↔
        n = fileName messageId ∧ target.readAt = none := by
      intro n
      constructor
      · rintro ⟨m, hm, hunread, hn⟩
        obtain rfl : n = fileName messageId := hn
        obtain rfl := Option.some.inj (htarget.symm.trans hm)
        exact ⟨rfl, hunread⟩
      · rintro ⟨rfl, hunread⟩
        exact ⟨target, htarget, hunread, rfl⟩
    rw [if_neg (by simp)]
    by_cases hunread : target.readAt = none
    · obtain ⟨disk', hset, heff, -⟩ := hr.atomicSetReadAt hread hwhen
        (pathText dir [.down (fileName messageId)])
      refine ⟨disk', [fileName messageId], List.nodup_singleton _, heff, ?_, fun n => ?_⟩
      · rw [if_pos (by simp [hunread]), hset]
        rfl
      · rw [honly, List.mem_singleton, and_iff_left hunread]
    · refine ⟨disk, [], .nil, .nil _ dir disk, ?_, fun n => ?_⟩
      · rw [if_neg (by simpa [Option.eq_none_iff_forall_ne_some] using hunread)]
        rfl
      · rw [honly]
        simp [hunread]

/-- A call that has nothing to mark. -/
theorem markRead_of_none (hdir : activeDir h userId = .ok dir) (hexists : disk.isDir dir)
    (hslash : '/'.toNat ∉ messageId) {target : StoredMessage}
    (htarget : messageAt disk dir (fileName messageId) = some target)
    (hnone : ∀ n m, ¬Chosen disk dir messageId markAll n m) :
    markRead h now disk userId messageId markAll = (disk, .ok 0) := by
  obtain ⟨-, content, hread, hok⟩ := messageAt_eq_some.mp htarget
  rw [markRead_of_read hdir hexists hslash hread]
  simp only [markFile, hok]
  cases markAll with
  | true =>
    rw [if_pos rfl]
    refine markAllBefore_of_none fun n m hm hunread hle => ?_
    exact hnone n m ⟨hm, hunread, target, htarget, hle⟩
  | false =>
    rw [if_neg (by simp), if_neg]
    intro hunread
    exact hnone _ target ⟨htarget, by simpa using hunread, rfl⟩

/-! ### Exactness -/

section Exact

variable {s : History} {ops : List Op}

/-- A file of an inbox that can be read is one that `write_message` has made. -/
theorem Ledger.headed (hl : Ledger h ops s) (hdir : activeDir h userId = .ok dir)
    (hm : messageAt s.disk dir n = some m) : ∃ raw, s.disk.read (n :: dir) = some (.text raw) ∧
      Headed raw ∧ readMessage (pathText dir [.down n]) (.text raw) = .ok m := by
  obtain ⟨-, content, hread, hok⟩ := messageAt_eq_some.mp hm
  obtain ⟨-, -, rfl | ⟨m', hm', rfl, rfl⟩⟩ := hl.only userId dir n content hdir hread
  · exact absurd hok (by simp [readMessage, universalNewlines, lit])
  · obtain ⟨-, dir', raw, hdir', hraw, hversion⟩ := hl.filed m' hm'
    obtain rfl := Except.ok.inj (hdir'.symm.trans hdir)
    obtain rfl := Option.some.inj (hraw.symm.trans hread)
    exact ⟨raw, hraw, hversion.headed, hok⟩

/-- Every file of an inbox can be marked, if the system takes the name of the file beside it. -/
theorem Ledger.ready (hl : Ledger h ops s) (hdir : activeDir h userId = .ok dir)
    (htmp : ∀ n ∈ s.disk.names dir, h.accepts (tmpName n)) : Ready h dir s.disk := by
  intro n content hread
  have hin : n ∈ s.disk.names dir := by
    rw [Fs.mem_names]
    rcases hnode : s.disk.node (n :: dir) with _ | x
    · rw [Fs.read, hnode] at hread
      exact absurd hread (by simp)
    · rfl
  refine ⟨?_, ?_, htmp n hin⟩
  · obtain ⟨-, -, rfl | ⟨m, hm, rfl, rfl⟩⟩ := hl.only userId dir n content hdir hread
    · exact ⟨[], rfl⟩
    · obtain ⟨-, dir', raw, hdir', hraw, -⟩ := hl.filed m hm
      obtain rfl := Except.ok.inj (hdir'.symm.trans hdir)
      exact ⟨raw, Option.some.inj (hread.symm.trans hraw)⟩
  · have hactive : tmpName n ≠ lit "active" := by
      intro heq
      have hsuf : lit ".tmp" <:+ lit "active" := by
        rw [← heq]
        exact List.suffix_append n _
      exact absurd hsuf (by decide)
    have hnodir := hl.tidy.isDir_eq_false hdir hactive
    rcases hnode : s.disk.node (tmpName n :: dir) with _ | (_ | c)
    · rfl
    · simp [Fs.isDir, hnode, Node.isDir] at hnodir
    · have hread' : s.disk.read (tmpName n :: dir) = some c := by
        rw [Fs.read, hnode]
        rfl
      obtain ⟨-, hname, -⟩ := hl.only userId dir _ c hdir hread'
      exact absurd hname.1 (not_md_tmpName n)

/-- What is read of a file after it was marked. -/
theorem Effect.messageAt {names : List Text} (heff : Effect when dir names disk disk')
    (hn : n ∈ names) (hmd : lit ".md" <:+ n) (hraw : disk.read (n :: dir) = some (.text raw)) :
    messageAt disk' dir n = some m ↔
      readMessage (pathText dir [.down n]) (.text (markedText when raw)) = .ok m := by
  obtain ⟨raw', t, hraw', ht, htext⟩ := heff.marked n hn
  obtain rfl := Content.text.inj (Option.some.inj (hraw'.symm.trans hraw))
  have hsame : ∀ path, readMessage path (.text t) =
      readMessage path (.text (markedText when raw')) := by
    have hcr := carriageReturn_not_mem_universalNewlines t
    rw [htext] at hcr
    exact readMessage_congr (by rw [htext, universalNewlines_eq_self hcr])
  rw [messageAt_eq_some, ← hsame]
  constructor
  · rintro ⟨-, content, hcontent, hok⟩
    obtain rfl := Option.some.inj (hcontent.symm.trans ht)
    exact hok
  · intro hok
    exact ⟨hmd, _, ht, hok⟩

/-- The file of a message id of the inbox. -/
theorem Ledger.file (hl : Ledger h ops s) (hdir : activeDir h userId = .ok dir)
    (hid : fileName messageId ∈ s.disk.names dir) : s.disk.isDir dir ∧ '/'.toNat ∉ messageId ∧
      ∃ content, s.disk.read (fileName messageId :: dir) = some content := by
  obtain ⟨x, hx⟩ := Option.isSome_iff_exists.mp (Fs.mem_names.mp hid)
  have hactive : fileName messageId ≠ lit "active" := by
    intro heq
    have hsuf : lit ".md" <:+ lit "active" := by
      rw [← heq]
      exact List.suffix_append messageId _
    exact absurd hsuf (by decide)
  have hnodir := hl.tidy.isDir_eq_false hdir hactive
  rcases x with _ | content
  · simp [Fs.isDir, hx, Node.isDir] at hnodir
  · have hread : s.disk.read (fileName messageId :: dir) = some content := by
      rw [Fs.read, hx]
      rfl
    obtain ⟨hexists, hname, -⟩ := hl.only userId dir _ content hdir hread
    exact ⟨hexists, fun hin => hname.2 (List.mem_append_left _ hin), content, hread⟩

/-- **When `mark_read` marks exactly what it counts.** In inboxes that the store has made, for
every message file of an inbox: exactly if it can be read, and in each file that is to be
marked the line that is written over is the field's own. -/
theorem marksExactly_iff_ownLine (hl : Ledger h ops s) (hdir : activeDir h userId = .ok dir)
    (hid : fileName messageId ∈ s.disk.names dir)
    (htmp : ∀ n ∈ s.disk.names dir, h.accepts (tmpName n)) :
    MarksExactly h now s.disk dir userId messageId markAll ↔
      (∃ target, messageAt s.disk dir (fileName messageId) = some target) ∧
        ∀ n m raw, Chosen s.disk dir messageId markAll n m →
          s.disk.read (n :: dir) = some (.text raw) → OwnLine raw := by
  have hr := hl.ready hdir htmp
  obtain ⟨hexists, hslash, content, hread⟩ := hl.file hdir hid
  have hstamp := stamp_iso (DateTime.ofTimestamp now)
  constructor
  · intro hexact
    have htarget : ∃ target, messageAt s.disk dir (fileName messageId) = some target := by
      rcases hok : readMessage (pathText dir [.down (fileName messageId)]) content with e | target
      · obtain ⟨names, -, -, hcount⟩ := hexact.count
        rw [markRead_of_read hdir hexists hslash hread] at hcount
        simp only [markFile, hok] at hcount
        exact absurd hcount (by simp)
      · exact ⟨target, messageAt_eq_some.mpr ⟨List.suffix_append _ _, content, hread, hok⟩⟩
    refine ⟨htarget, fun n m raw hchosen hraw => ?_⟩
    obtain ⟨target, htarget⟩ := htarget
    obtain ⟨disk', names, -, heff, hmark, hnames⟩ :=
      hr.markRead now markAll hdir hexists hslash htarget
    have hmarked := hexact.marked n m hchosen
    rw [hmark] at hmarked
    have hm := hchosen.1
    obtain ⟨raw', hraw', hhead, hok⟩ := hl.headed hdir hm
    obtain rfl := Content.text.inj (Option.some.inj (hraw'.symm.trans hraw))
    rw [heff.messageAt ((hnames n).mpr ⟨m, hchosen⟩) (messageAt_eq_some.mp hm).1 hraw] at hmarked
    exact (readMessage_markedText_iff hhead hok hchosen.2.1 hstamp).mp hmarked
  · rintro ⟨⟨target, htarget⟩, hown⟩
    obtain ⟨disk', names, hnodup, heff, hmark, hnames⟩ :=
      hr.markRead now markAll hdir hexists hslash htarget
    have hmarked : ∀ n m, Chosen s.disk dir messageId markAll n m → messageAt disk' dir n =
        some { m with readAt := some (DateTime.ofTimestamp now).iso } := by
      intro n m hchosen
      have hm := hchosen.1
      obtain ⟨raw, hraw, hhead, hok⟩ := hl.headed hdir hm
      rw [heff.messageAt ((hnames n).mpr ⟨m, hchosen⟩) (messageAt_eq_some.mp hm).1 hraw]
      exact (readMessage_markedText_iff hhead hok hchosen.2.1 hstamp).mpr
        (hown n m raw hchosen hraw)
    have hother : ∀ n, (∀ m, ¬Chosen s.disk dir messageId markAll n m) →
        messageAt disk' dir n = messageAt s.disk dir n := by
      intro n hno
      refine messageAt_congr (Fs.read_congr (heff.others _ fun x hx heq => ?_))
      obtain ⟨m, hm⟩ := (hnames x).mp hx
      rw [← (List.cons.inj heq).1] at hm
      exact hno m hm
    -- the message that is named is still there, and sent at the same time
    obtain ⟨target', htarget', hsent⟩ : ∃ target', messageAt disk' dir (fileName messageId) =
        some target' ∧ target'.sentAt = target.sentAt := by
      by_cases hex : ∃ m, Chosen s.disk dir messageId markAll (fileName messageId) m
      · obtain ⟨m, hm⟩ := hex
        obtain rfl := Option.some.inj (htarget.symm.trans hm.1)
        exact ⟨_, hmarked _ _ hm, rfl⟩
      · exact ⟨target, (hother _ fun m hm => hex ⟨m, hm⟩).trans htarget, rfl⟩
    have hnone : ∀ n m, ¬Chosen disk' dir messageId markAll n m := by
      rintro n m ⟨hm, hunread, hwhich⟩
      by_cases hex : ∃ m, Chosen s.disk dir messageId markAll n m
      · obtain ⟨m₀, hm₀⟩ := hex
        obtain rfl := Option.some.inj (hm.symm.trans (hmarked n m₀ hm₀))
        exact absurd hunread (by simp)
      · rw [hother n fun m hm => hex ⟨m, hm⟩] at hm
        refine hex ⟨m, hm, hunread, ?_⟩
        cases markAll with
        | true =>
          obtain ⟨t, ht, hle⟩ := hwhich
          obtain rfl := Option.some.inj (htarget'.symm.trans ht)
          exact ⟨target, htarget, hsent ▸ hle⟩
        | false => exact hwhich
    have hexists' : disk'.isDir dir := by
      rw [Fs.isDir_congr (heff.others dir fun n _ heq => ?_)]
      · exact hexists
      · exact absurd (congrArg List.length heq) (by simp)
    refine ⟨⟨names, hnodup, hnames, by rw [hmark]⟩, ?_, ?_, ?_⟩
    · rw [hmark]
      exact hmarked
    · rw [hmark]
      intro p hp
      refine heff.others p fun n hn => ?_
      obtain ⟨m, hm⟩ := (hnames n).mp hn
      exact hp n m hm
    · rw [hmark]
      exact fun now' => markRead_of_none hdir hexists' hslash htarget' hnone

end Exact

end Inbox

end OtamanBridge
