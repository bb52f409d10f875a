import OtamanBridge.Inbox.Locality
import OtamanBridge.Inbox.Tools
import OtamanBridge.Lib.Run

/-!
# The inboxes of different users

A tool call is isolated if it changes no file outside the caller's inbox, but for the one
new file of a message that is sent, and if its result does not depend on what other files
there are or what they hold. In every state the bridge gets its disk into, this is so
exactly when the call is harmless (`OtamanBridge.Inbox.isolated_iff`). Two kinds of calls
are not: `mark_message_read` with an id whose path leaves the caller's inbox, and a send
of a text that cannot be encoded, which fails and leaves an empty file behind.
-/

namespace OtamanBridge

namespace Inbox

open Py Posix

variable {h : Host} {disk disk' disk₂ : Disk} {dir p : Place Text} {c : ToolCall}

/-! ### The disk in use -/

/-- Inside the root of the inboxes there are no directories but those of the users, each
with its `active` directory. -/
def Tidy (h : Host) (disk : Disk) : Prop :=
  ∀ p, disk.isDir (p ++ h.root) → p = [] ∨ (∃ v, p = [v]) ∨ ∃ v, p = [lit "active", v]

/-- The active directory of a user. A user id may be a single dot, which names no
directory. -/
theorem activeDir_eq_ok {u : Text} (hd : activeDir h u = .ok dir) :
    u ≠ [] ∧ (u = lit "." ∧ dir = [lit "active"] ++ h.root ∨
      dir = [lit "active", u] ++ h.root) := by
  unfold activeDir at hd
  split_ifs at hd with hbad
  rw [not_or, not_or] at hbad
  obtain ⟨hne, hslash, hdots⟩ := hbad
  refine ⟨hne, ?_⟩
  rw [← Except.ok.inj hd, hops_of_single hslash, toHop]
  split_ifs with hdot hup
  · exact .inl ⟨hdot.resolve_left hne, rfl⟩
  · rw [hup] at hdots
    exact absurd (List.infix_rfl) hdots
  · exact .inr rfl

/-- No two users share a directory. -/
theorem activeDir_injective {u v : Text} (hu : activeDir h u = .ok dir)
    (hv : activeDir h v = .ok dir) : u = v := by
  have hlen : ∀ u : Text, [lit "active"] ++ h.root ≠ [lit "active", u] ++ h.root := by
    intro u heq
    have := congrArg List.length heq
    simp at this
  rcases (activeDir_eq_ok hu).2 with ⟨rfl, rfl⟩ | rfl <;>
    rcases (activeDir_eq_ok hv).2 with ⟨rfl, hdir⟩ | hdir
  · rfl
  · exact absurd hdir (hlen v)
  · exact absurd hdir.symm (hlen u)
  · simpa using hdir

/-- Making the directory of a user keeps the inboxes tidy. -/
theorem Tidy.of_isDir (ht : Tidy h disk) (hdisk : ∀ q, disk'.isDir q → disk.isDir q ∨
    ∃ u dir, activeDir h u = .ok dir ∧ q <:+ dir) : Tidy h disk' := by
  intro p hp
  rcases hdisk _ hp with hold | ⟨u, dir, hdir, hsuf⟩
  · exact ht p hold
  · rcases (activeDir_eq_ok hdir).2 with ⟨-, rfl⟩ | rfl
    · have := List.suffix_append_self_iff.mp hsuf
      rw [List.suffix_cons_iff, List.suffix_nil] at this
      rcases this with rfl | rfl
      · exact .inr (.inl ⟨_, rfl⟩)
      · exact .inl rfl
    · have := List.suffix_append_self_iff.mp hsuf
      rw [List.suffix_cons_iff, List.suffix_cons_iff, List.suffix_nil] at this
      rcases this with rfl | rfl | rfl
      · exact .inr (.inr ⟨_, rfl⟩)
      · exact .inr (.inl ⟨_, rfl⟩)
      · exact .inl rfl

/-- In an active directory there is no directory but perhaps one called `active`. -/
theorem Tidy.isDir_eq_false (ht : Tidy h disk) {u n : Text} (hdir : activeDir h u = .ok dir)
    (hn : n ≠ lit "active") : disk.isDir (n :: dir) = false := by
  rw [← Bool.not_eq_true]
  intro hd
  rcases (activeDir_eq_ok hdir).2 with ⟨-, rfl⟩ | rfl
  · rcases ht (n :: [lit "active"]) hd with hp | ⟨v, hp⟩ | ⟨v, hp⟩
    · simp at hp
    · simp at hp
    · exact hn (List.cons.inj hp).1
  · rcases ht (n :: [lit "active", u]) hd with hp | ⟨v, hp⟩ | ⟨v, hp⟩ <;> simp at hp

/-! ### Where a message goes -/

/-- A path that begins with a character of a name goes down at once, into a name with
this first character. -/
theorem hops_cons {x : ℕ} (hslash : x ≠ '/'.toNat) (hdot : x ≠ '.'.toNat) (t : Text) :
    ∃ n hs, hops (x :: t) = .down (x :: n) :: hs := by
  obtain ⟨n, ns, hsplit⟩ := List.exists_cons_of_ne_nil (List.splitOn_ne_nil '/'.toNat t)
  have hx : (x == '/'.toNat) = false := by simpa using hslash
  have hone : lit "." = ['.'.toNat] := by decide
  have htwo : lit ".." = ['.'.toNat, '.'.toNat] := by decide
  have hhop : toHop (x :: n) = some (.down (x :: n)) := by
    rw [toHop, if_neg, if_neg]
    · rw [htwo]
      exact fun heq => hdot (List.cons.inj heq).1
    · rw [hone]
      rintro (heq | heq)
      · exact absurd heq (List.cons_ne_nil x n)
      · exact hdot (List.cons.inj heq).1
  refine ⟨n, ns.filterMap toHop, ?_⟩
  rw [hops, List.splitOn_cons_eq_if_modifyHead, hx, hsplit, if_neg (by decide),
    List.modifyHead_cons, List.filterMap_cons_some hhop]

/-- The first character of a message id: a digit, or a letter of the time stamp. -/
theorem timeStamp_eq_cons (now : DateTime) : ∃ x s, timeStamp now.iso = x :: s ∧
    x ≠ '/'.toNat ∧ x ≠ '.'.toNat ∧ x ≠ 'a'.toNat := by
  obtain ⟨x, s, hs⟩ := List.exists_cons_of_ne_nil (timeStamp_ne_nil now)
  have hmem : x ∈ timeStamp now.iso := by
    rw [hs]
    exact List.mem_cons_self
  obtain ⟨-, hslash, hdot⟩ := nameChar_of_slugChar (slugChar_of_mem_timeStamp hmem)
  refine ⟨x, s, hs, hslash, hdot, ?_⟩
  rcases mem_timeStamp hmem with hd | hl
  · have : 'a'.toNat = 97 := rfl
    omega
  · exact (by decide : ∀ c ∈ lit "TZ", c ≠ 'a'.toNat) x hl

/-- A name without a separator is one hop. -/
theorem hops_fileName {id : Text} (hslash : '/'.toNat ∉ id) :
    hops (fileName id) = [.down (fileName id)] := by
  have hmd : '/'.toNat ∉ lit ".md" := by decide
  rw [fileName, hops_of_single (by rw [List.mem_append, not_or]; exact ⟨hslash, hmd⟩), toHop_md]
  rfl

/-- A name with a separator leads through a directory, and there is none of that name. -/
theorem Tidy.openTarget_eq_failed (ht : Tidy h disk) {u : Text} (hdir : activeDir h u = .ok dir)
    {now : DateTime} {d : Draft} {attempt : ℕ}
    (hslash : '/'.toNat ∈ candidateId (d.baseId now.iso) attempt) :
    openTarget h disk dir (fileName (candidateId (d.baseId now.iso) attempt)) = .failed := by
  obtain ⟨x, s, hs, hx, hdot, ha⟩ := timeStamp_eq_cons now
  obtain ⟨e, -, -, hid⟩ := candidateId_eq d now.iso attempt
  obtain ⟨t, hname⟩ : ∃ t, candidateId (d.baseId now.iso) attempt = x :: t := by
    rw [hid, hs]
    exact ⟨_, rfl⟩
  generalize candidateId (d.baseId now.iso) attempt = id at hslash hname ⊢
  obtain ⟨u₁, v, huv⟩ := List.append_of_mem hslash
  obtain ⟨u₂, rfl⟩ : ∃ u₂, u₁ = x :: u₂ := by
    rw [hname] at huv
    rcases u₁ with _ | ⟨y, u₁⟩
    · exact absurd (List.cons.inj huv).1 hx
    · exact ⟨u₁, by rw [(List.cons.inj huv).1]⟩
  obtain ⟨n₁, hs₁, hfirst⟩ := hops_cons hx hdot u₂
  obtain ⟨init, n₂, hlast⟩ := hops_md v
  have hhops : hops (fileName id) = .down (x :: n₁) :: (hs₁ ++ init) ++ [.down n₂] := by
    have htwo : fileName id = (x :: u₂) ++ '/'.toNat :: (v ++ lit ".md") := by
      rw [fileName, huv, List.append_assoc]
      rfl
    rw [htwo, hops_append_cons, hfirst, hlast]
    simp
  have hnodir : disk.isDir ((x :: n₁) :: dir) = false := by
    refine ht.isDir_eq_false hdir ?_
    have : lit "active" = 'a'.toNat :: lit "ctive" := by decide
    rw [this]
    exact fun heq => ha (List.cons.inj heq).1
  unfold openTarget
  rw [hhops, List.getLast?_concat, List.dropLast_concat]
  -- the walk ends there, or at what is no directory
  simp only [Fs.openNew, Fs.walk]
  by_cases hd : disk.isDir dir
  · rw [if_pos hd]
    rcases hs₁ ++ init with _ | ⟨hop, rest⟩
    · simp [Fs.walk, Hop.go, hnodir]
    · simp [Fs.walk, Hop.go, hnodir]
  · rw [if_neg hd]

/-- **A new message file stands in the recipient's active directory itself**, under its own
name. -/
theorem Tidy.place_of_reserve (ht : Tidy h disk) {now : DateTime} {d : Draft} {disk₁ : Disk}
    {m : StoredMessage} (hr : reserve h now.iso disk d = (disk₁, .ok (p, m))) :
    ∃ dir, activeDir h d.toUser = .ok dir ∧ disk₁.isDir dir ∧ '/'.toNat ∉ m.id ∧
      p = fileName m.id :: dir := by
  obtain ⟨dir, attempt, hdir, -, -, hopen, hm⟩ := reserve_eq_ok hr
  have ht₁ : Tidy h disk₁ := ht.of_isDir fun q hq =>
    (isDir_reserve hr hq).imp_right fun ⟨dir, hd, hs⟩ => ⟨_, dir, hd, hs⟩
  have hid : m.id = candidateId (d.baseId now.iso) attempt := by rw [hm, Draft.message]
  have hslash : '/'.toNat ∉ m.id := by
    rw [hid] at hopen ⊢
    intro hin
    exact absurd (hopen.symm.trans (ht₁.openTarget_eq_failed hdir hin)) (by simp)
  obtain ⟨n, q, hlast, hwalk, hq, rfl, -⟩ := openTarget_eq_made hopen
  rw [hops_fileName hslash] at hlast hwalk
  obtain rfl : q = dir := (Option.some.inj hwalk).symm
  obtain rfl : n = fileName m.id := ((Hop.down.injEq ..).mp (Option.some.inj hlast)).symm
  exact ⟨_, hdir, hq, hslash, rfl⟩

/-! ### What a send looks at -/

/-- **Where a send looks**: at the directory of the recipient and those above it, and there at
the names it may take for its message. -/
def LooksAt (dir : Place Text) (sentAt : Text) (d : Draft) : Set (Place Text) :=
  {p | p <:+ dir ∨ ∃ attempt < 100, p = fileName (candidateId (d.baseId sentAt) attempt) :: dir}

theorem Tidy.openCandidate_congr (ht : Tidy h disk) {now : DateTime} {d : Draft}
    (hdir : activeDir h d.toUser = .ok dir)
    (hs : Fs.SameTaken (LooksAt dir now.iso d) disk disk₂) {attempts : List ℕ}
    (hlt : ∀ attempt ∈ attempts, attempt < 100) :
    openCandidate h disk₂ dir (d.baseId now.iso) attempts =
      openCandidate h disk dir (d.baseId now.iso) attempts := by
  have ht₂ : Tidy h disk₂ := fun q hq => ht q (by rwa [← hs.dirs])
  induction attempts with
  | nil => rfl
  | cons attempt attempts ih =>
    have hopen : openTarget h disk₂ dir (fileName (candidateId (d.baseId now.iso) attempt)) =
        openTarget h disk dir (fileName (candidateId (d.baseId now.iso) attempt)) := by
      by_cases hslash : '/'.toNat ∈ candidateId (d.baseId now.iso) attempt
      · rw [ht.openTarget_eq_failed hdir hslash, ht₂.openTarget_eq_failed hdir hslash]
      · unfold openTarget
        rw [hops_fileName hslash]
        refine hs.openNew h.accepts fun q hq _ => ?_
        obtain rfl : q = dir := (Option.some.inj hq).symm
        exact .inr ⟨attempt, hlt attempt List.mem_cons_self, rfl⟩
    simp only [openCandidate, hopen, ih fun a ha => hlt a (List.mem_cons_of_mem _ ha)]

theorem Tidy.reserve_congr (ht : Tidy h disk) {now : DateTime} {d : Draft}
    (hs : ∀ dir, activeDir h d.toUser = .ok dir →
      Fs.SameTaken (LooksAt dir now.iso d) disk disk₂) :
    (reserve h now.iso disk₂ d).2 = (reserve h now.iso disk d).2 := by
  unfold reserve
  split
  · rfl
  · rfl
  next dir hnone hdir =>
    -- the directory is made on both disks or on neither; then the same candidate is the first free
    have hmk := (hs dir hdir).mkdirs h.accepts dir fun q hq => .inl hq
    rcases hmade : disk.mkdirs h.accepts dir with _ | made <;>
      rcases hmade₂ : disk₂.mkdirs h.accepts dir with _ | made₂
    · rfl
    · rw [hmade, hmade₂] at hmk
      cases hmk
    · rw [hmade, hmade₂] at hmk
      cases hmk
    · rw [hmade, hmade₂] at hmk
      cases hmk with
      | some hd =>
        have ht₁ : Tidy h made := ht.of_isDir fun q hq => by
          rcases Fs.node_mkdirs hmade q with heq | ⟨-, -, hsuf⟩
          · exact .inl (by rwa [Fs.isDir_congr heq] at hq)
          · exact .inr ⟨_, dir, hdir, hsuf⟩
        simp only [ht₁.openCandidate_congr hdir hd fun a ha => List.mem_range.mp ha]
        split <;> rfl

/-- **What `write_message` reports** comes from its arguments and from what is taken where it
looks. -/
theorem Tidy.writeMessage_congr (ht : Tidy h disk) (now : ℕ) {d : Draft}
    (hs : ∀ dir, activeDir h d.toUser = .ok dir →
      Fs.SameTaken (LooksAt dir (DateTime.ofTimestamp now).iso d) disk disk₂) :
    (writeMessage h now disk₂ d).2 = (writeMessage h now disk d).2 := by
  have hreserve := ht.reserve_congr hs
  unfold writeMessage
  generalize (DateTime.ofTimestamp now).iso = sentAt at hreserve ⊢
  rcases hr : reserve h sentAt disk d with ⟨d₁, r⟩
  rcases hr₂ : reserve h sentAt disk₂ d with ⟨d₂, r₂⟩
  rw [hr, hr₂] at hreserve
  obtain rfl : r₂ = r := hreserve
  rcases r₂ with e | ⟨p, m⟩
  · rfl
  · simp only
    split_ifs <;> rfl

/-! ### Calls that send -/

/-- Whether a call is one of the two that send. -/
def ToolCall.sends (c : ToolCall) : Bool :=
  match c.tool with
  | .sendMessageToUser => true
  | .requestReview => true
  | _ => false

/-- The draft a call hands to `write_message`, if it gets there. -/
def ToolCall.draft (h : Host) (c : ToolCall) : Option Draft :=
  match c.tool with
  | .sendMessageToUser => (messageDraft h c.args c.ctx).toOption.bind fun r => r.2.toOption
  | .requestReview => (reviewDraft h c.args c.ctx).toOption.bind fun r => r.2.2.toOption
  | _ => none

/-- A result for each way of writing a message to end. -/
def outcome (failed : Failure → ToolResult) (done : StoredMessage → ToolResult) :
    Except Failure StoredMessage → ToolResult
  | .error e => failed e
  | .ok m => done m

/-- How a call that sends runs: without a draft it touches nothing; with one it does what
`write_message` does and makes a result of what this returns. -/
theorem ToolCall.run_of_sends (hc : c.sends) :
    (c.draft h = none ∧ ∃ r, ∀ disk, c.run h disk = (disk, r)) ∨
    ∃ d, ∃ result : Except Failure StoredMessage → ToolResult, c.draft h = some d ∧
      (∀ disk, c.run h disk = ((writeMessage h c.now disk d).1,
        result (writeMessage h c.now disk d).2)) ∧
      (∀ e, (result (.error e)).isError) ∧ ∀ m, (result (.ok m)).isError = false := by
  have hcaught : ∀ e, (caught h "invalid message: " e).isError := by
    intro e
    unfold caught
    split_ifs <;> rfl
  unfold ToolCall.sends at hc
  split at hc
  next htool =>
    simp only [ToolCall.draft, ToolCall.run, htool, sendMessageToUser]
    rcases messageDraft h c.args c.ctx with r | ⟨target, e | d⟩
    · exact .inl ⟨rfl, r, fun _ => rfl⟩
    · exact .inl ⟨rfl, _, fun _ => rfl⟩
    · refine .inr ⟨d, outcome (caught h "invalid message: ")
        (fun sent => sentResult h "Sent message to " target sent []), rfl, fun disk => ?_,
        hcaught, fun _ => rfl⟩
      simp only [send]
      rcases writeMessage h c.now disk d with ⟨disk', e | m⟩ <;> rfl
  next htool =>
    simp only [ToolCall.draft, ToolCall.run, htool, requestReview]
    rcases reviewDraft h c.args c.ctx with r | ⟨target, urgency, e | d⟩
    · exact .inl ⟨rfl, r, fun _ => rfl⟩
    · exact .inl ⟨rfl, _, fun _ => rfl⟩
    · refine .inr ⟨d, outcome (caught h "invalid message: ") (fun sent =>
        sentResult h "Review request sent to " target sent
          [("urgency", .str urgency), ("type", .str (lit "review-request"))]),
        rfl, fun disk => ?_, hcaught, fun _ => rfl⟩
      simp only [send]
      rcases writeMessage h c.now disk d with ⟨disk', e | m⟩ <;> rfl
  · exact absurd hc (by simp)

/-- How a call that marks runs: either it touches nothing, or it does what `mark_read`
does with a message id and makes a result of what this returns. -/
theorem ToolCall.run_of_marks (hc : c.tool = .markMessageRead) :
    (∃ r, (∀ disk, c.run h disk = (disk, r)) ∧
      (c.ctx.userId = [] ∨ ∀ t, argument c.args "message_id" = .str t → t = [])) ∨
    ∃ messageId markAll, ∃ result : Except Failure ℕ → ToolResult,
      argument c.args "message_id" = .str messageId ∧ messageId ≠ [] ∧ c.ctx.userId ≠ [] ∧
      (∀ disk, c.run h disk = ((markRead h c.now disk c.ctx.userId messageId markAll).1,
        result (markRead h c.now disk c.ctx.userId messageId markAll).2)) ∧
      ∀ e, result (.error e) = mcpError (lit "mark_read failed: " ++ e.message h) := by
  by_cases hu : c.ctx.userId = []
  · left
    refine ⟨identityRequired, fun disk => ?_, .inl hu⟩
    simp only [ToolCall.run, hc, markMessageRead, hu, if_true]
  · rcases hid : argument c.args "message_id" with _ | _ | _ | _ | _ | messageId | _ | _
    case str =>
      by_cases hne : messageId = []
      · left
        refine ⟨mcpError (lit "missing or invalid message_id"), fun disk => ?_, .inr ?_⟩
        · simp only [ToolCall.run, hc, markMessageRead, hu, hid, hne, if_true, if_false]
        · rintro t ⟨⟩
          exact hne
      · right
        refine ⟨messageId, (argument c.args "mark_all_before" (.bool false)).truthy,
          markedResult h messageId (argument c.args "mark_all_before" (.bool false)).truthy,
          rfl, hne, hu, fun disk => ?_, fun e => rfl⟩
        simp only [ToolCall.run, hc, markMessageRead, hu, hid, hne, if_false]
    all_goals
      left
      refine ⟨mcpError (lit "missing or invalid message_id"), fun disk => ?_, .inr ?_⟩
      · simp only [ToolCall.run, hc, markMessageRead, hu, hid, if_false]
      · rintro t ⟨⟩

/-! ### What can happen to the disk -/

/-- A tool call, or something that happens outside the root of the inboxes. -/
inductive Event
  | call (c : ToolCall)
  | elsewhere

/-- What an event may do. -/
def Happens (h : Host) (disk : Disk) (e : Event) (disk' : Disk) : Prop :=
  match e with
  | .call c => disk' = (c.run h disk).1
  | .elsewhere => ∀ p, disk'.node (p ++ h.root) = disk.node (p ++ h.root)

/-- A disk with no inboxes on it. -/
def Fresh (h : Host) (disk : Disk) : Prop := ∀ p, p ≠ [] → disk.node (p ++ h.root) = none

/-- The bridge gets a fresh disk into this state by these events. -/
def Reaches (h : Host) (es : List Event) (disk : Disk) : Prop :=
  ∃ disk₀, Fresh h disk₀ ∧ Lts.Run (Happens h) disk₀ es disk

theorem Fresh.tidy (hf : Fresh h disk) : Tidy h disk := by
  intro p hp
  by_contra hne
  rw [not_or] at hne
  simp [Fs.isDir, hf p hne.1] at hp

theorem Tidy.writeMessage (ht : Tidy h disk) (now : ℕ) (d : Draft) :
    Tidy h (Inbox.writeMessage h now disk d).1 :=
  ht.of_isDir fun _ hq =>
    (isDir_writeMessage hq).imp_right fun ⟨dir, hd, hs⟩ => ⟨_, dir, hd, hs⟩

theorem Tidy.markRead (ht : Tidy h disk) (now : ℕ) (userId messageId : Text) (markAll : Bool) :
    Tidy h (Inbox.markRead h now disk userId messageId markAll).1 :=
  ht.of_isDir fun q hq => .inl (by rwa [isDir_markRead] at hq)

/-- A call keeps the inboxes tidy. -/
theorem Tidy.run (ht : Tidy h disk) (c : ToolCall) : Tidy h (c.run h disk).1 := by
  by_cases hc : c.sends
  · rcases ToolCall.run_of_sends (h := h) hc with ⟨-, r, hrun⟩ | ⟨d, result, -, hrun, -, -⟩
    · rw [hrun]
      exact ht
    · rw [hrun]
      exact ht.writeMessage _ d
  · rcases hc' : c.tool
    · simp [ToolCall.sends, hc'] at hc
    · simp [ToolCall.sends, hc'] at hc
    · simpa [ToolCall.run, hc'] using ht
    · rcases ToolCall.run_of_marks (h := h) hc' with ⟨r, hrun, -⟩ | ⟨_, _, _, -, -, -, hrun, -⟩
      · rw [hrun]
        exact ht
      · rw [hrun]
        exact ht.markRead _ _ _ _
    · simpa [ToolCall.run, hc'] using ht

/-- **The inboxes are tidy in every state reached.** -/
theorem Reaches.tidy {es : List Event} (hrun : Reaches h es disk) : Tidy h disk := by
  obtain ⟨disk₀, hfresh, hrun⟩ := hrun
  refine Lts.Run.inv_state (I := Tidy h) hfresh.tidy ?_ hrun
  · intro s e s' ht he
    cases e with
    | call c =>
      obtain rfl : s' = (c.run h s).1 := he
      exact ht.run c
    | elsewhere =>
      intro p hp
      exact ht p (by rwa [← Fs.isDir_congr (he p)])

/-! ### Isolation -/

/-- The files of a user: the entries of the active directory. -/
def Own (h : Host) (u : Text) (p : Place Text) : Prop :=
  ∃ dir n, activeDir h u = .ok dir ∧ p = n :: dir

/-- The disk of another run: the directories and the caller's files are the same. Other files
may be there or not and hold anything. Where the call sends, they agree only on what its
result shows by design, namely which of the names its message may have are free in the
directory of the recipient. -/
structure Alike (h : Host) (c : ToolCall) (disk disk₂ : Disk) : Prop where
  dirs : ∀ p, disk₂.isDir p = disk.isDir p
  own : ∀ dir, activeDir h c.ctx.userId = .ok dir →
    (∀ n, disk₂.node (n :: dir) = disk.node (n :: dir)) ∧ disk₂.names dir = disk.names dir
  free : ∀ d dir, c.draft h = some d → activeDir h d.toUser = .ok dir →
    ∀ p ∈ LooksAt dir (DateTime.ofTimestamp c.now).iso d,
      (disk₂.node p).isSome = (disk.node p).isSome

/-- A call makes one file, in the inbox of the recipient, and changes no other. -/
def Sent (h : Host) (c : ToolCall) (disk : Disk) : Prop :=
  (c.run h disk).2.isError = false ∧ ∃ d dir n, c.draft h = some d ∧
    activeDir h d.toUser = .ok dir ∧ disk.node (n :: dir) = none ∧
    ((c.run h disk).1.read (n :: dir)).isSome ∧
    ∀ p, p ≠ n :: dir → (c.run h disk).1.read p = disk.read p

/-- **A call is isolated**: it changes no file outside the caller's inbox, or it is a send
that succeeds, and its result is the same in every run in which the caller's files are. -/
structure Isolated (h : Host) (disk : Disk) (c : ToolCall) : Prop where
  frame : (∀ p, ¬Own h c.ctx.userId p → (c.run h disk).1.read p = disk.read p) ∨ Sent h c disk
  blind : ∀ disk₂, Alike h c disk disk₂ → (c.run h disk₂).2 = (c.run h disk).2

/-- A call that stays where it belongs: the path of a message id that is marked leads to
no file, there or not, outside the caller's inbox, and the text of a message a file is
opened for can be encoded. -/
structure Harmless (h : Host) (disk : Disk) (c : ToolCall) : Prop where
  path : c.tool = .markMessageRead → ∀ messageId dir p,
    argument c.args "message_id" = .str messageId → messageId ≠ [] →
    activeDir h c.ctx.userId = .ok dir → disk.isDir dir →
    leadsTo disk dir messageId = some p → disk.isDir p = false → Own h c.ctx.userId p
  text : ∀ d disk₁ p m, c.draft h = some d →
    reserve h (DateTime.ofTimestamp c.now).iso disk d = (disk₁, .ok (p, m)) →
    Encodable (renderMessage m) ∨ Own h c.ctx.userId p

theorem Alike.agreeOn (ha : Alike h c disk disk₂) {dir : Place Text}
    (hdir : activeDir h c.ctx.userId = .ok dir) :
    AgreeOn dir disk disk₂ ∧ disk₂.names dir = disk.names dir :=
  ⟨⟨ha.dirs, (ha.own dir hdir).1⟩, (ha.own dir hdir).2⟩

/-! ### Harmless calls are isolated -/

/-- A call that sends a text that can be encoded, or to the caller. -/
theorem isolated_of_sends (ht : Tidy h disk) (hc : c.sends) (hh : Harmless h disk c) :
    Isolated h disk c := by
  rcases ToolCall.run_of_sends (h := h) hc with ⟨-, r, hrun⟩ | ⟨d, result, hd, hrun, -, hok⟩
  · constructor
    · exact .inl fun p _ => by rw [hrun]
    · intro disk₂ _
      rw [hrun, hrun]
  · constructor
    · unfold Sent
      rw [hrun]
      rcases hr : reserve h (DateTime.ofTimestamp c.now).iso disk d with ⟨disk₁, e | ⟨p, m⟩⟩
      -- no name could be reserved: nothing is written
      · left
        intro q _
        simp only [writeMessage, hr]
        exact read_of_reserve hr q
      · obtain ⟨hne, hnone, hnone'⟩ := node_of_reserve hr
        have hother : ∀ {content q}, q ≠ p → (disk₁.put p (.file content)).read q =
            disk.read q := by
          intro content q hq
          rw [Fs.read_congr (Fs.node_put_of_ne hq), read_of_reserve hr]
        by_cases henc : Encodable (renderMessage m)
        · right
          obtain ⟨dir, hdir, -, -, rfl⟩ := ht.place_of_reserve hr
          simp only [writeMessage, hr, if_pos henc]
          refine ⟨hok m, d, dir, _, hd, hdir, hnone', ?_, fun q hq => hother hq⟩
          rw [Fs.read_put_file hne]
          rfl
        · left
          intro q hq
          simp only [writeMessage, hr, if_neg henc]
          refine hother ?_
          rintro rfl
          exact hq ((hh.text d disk₁ q m hd hr).resolve_left henc)
    · intro disk₂ ha
      rw [hrun, hrun, ht.writeMessage_congr c.now fun dir hdir => ⟨ha.dirs, ha.free d dir hd hdir⟩]

/-- A call that marks, by a path that stays in the caller's inbox. -/
theorem isolated_of_marks (htool : c.tool = .markMessageRead) (hh : Harmless h disk c) :
    Isolated h disk c := by
  rcases ToolCall.run_of_marks (h := h) htool with
    ⟨r, hrun, -⟩ | ⟨messageId, markAll, result, hid, hne, -, hrun, -⟩
  · constructor
    · exact .inl fun p _ => by rw [hrun]
    · intro disk₂ _
      rw [hrun, hrun]
  · have hin : ∀ dir p, activeDir h c.ctx.userId = .ok dir → disk.isDir dir →
        leadsTo disk dir messageId = some p → disk.isDir p = false → ∃ n, p = n :: dir := by
      intro dir p hdir hexists hlead hp
      obtain ⟨dir', n, hdir', rfl⟩ := hh.path htool messageId dir p hid hne hdir hexists hlead hp
      obtain rfl := Except.ok.inj (hdir'.symm.trans hdir)
      exact ⟨n, rfl⟩
    constructor
    · left
      intro q hq
      rw [hrun]
      rcases hdir : activeDir h c.ctx.userId with e | dir
      · simp only [markRead, hdir]
      · exact Fs.read_congr (markRead_frame hdir (hin dir · hdir) fun m hm =>
          hq ⟨dir, m, hdir, hm⟩)
    · intro disk₂ ha
      rw [hrun, hrun, markRead_congr (fun dir hdir => ha.agreeOn hdir) hin]

/-- A call that reads the caller's inbox. -/
theorem isolated_of_reads (hc : c.sends = false) (htool : c.tool ≠ .markMessageRead) :
    Isolated h disk c := by
  have hlist : ∀ {disk₂}, Alike h c disk disk₂ → ∀ f limit,
      listMessages h disk₂ c.ctx.userId f limit = listMessages h disk c.ctx.userId f limit :=
    fun ha => listMessages_congr fun dir hdir => ha.agreeOn hdir
  rcases htool' : c.tool
  · simp [ToolCall.sends, htool'] at hc
  · simp [ToolCall.sends, htool'] at hc
  · constructor
    · exact .inl fun p _ => by simp only [ToolCall.run, htool']
    · intro disk₂ ha
      simp only [ToolCall.run, htool', checkMessages, hlist ha]
  · exact absurd htool' htool
  · constructor
    · exact .inl fun p _ => by simp only [ToolCall.run, htool']
    · intro disk₂ ha
      simp only [ToolCall.run, htool', getRecentActivity, hlist ha]

/-! ### Isolated calls are harmless -/

/-- A file that cannot be decoded, wherever the path of a message id leads, shows in the
result of the call. -/
theorem Isolated.path (hi : Isolated h disk c) (htool : c.tool = .markMessageRead)
    {messageId : Text} (hid : argument c.args "message_id" = .str messageId)
    (hne : messageId ≠ []) (hdir : activeDir h c.ctx.userId = .ok dir)
    (hexists : disk.isDir dir) (hlead : leadsTo disk dir messageId = some p)
    (hp : disk.isDir p = false) : Own h c.ctx.userId p := by
  by_contra hown
  have hpne : p ≠ [] := by
    rintro rfl
    exact absurd hp (by simp [Fs.isDir, Fs.node, Node.isDir])
  rcases ToolCall.run_of_marks (h := h) htool with
    ⟨r, -, hbad⟩ | ⟨messageId', markAll, result, hid', -, -, hrun, herror⟩
  · rcases hbad with hu | hbad
    · exact (activeDir_eq_ok hdir).1 hu
    · exact hne (hbad messageId hid)
  · obtain rfl : messageId' = messageId := by simpa [hid] using hid'.symm
    -- another run, in which such a file is there
    have hother : ∀ error, (c.run h disk).2 =
        mcpError (lit "mark_read failed: " ++ error) := by
      intro error
      have halike : Alike h c disk (disk.put p (.file (.undecodable error))) := by
        refine ⟨Fs.isDir_put_file hp, fun dir' hdir' => ⟨fun n => ?_, ?_⟩, ?_⟩
        · refine Fs.node_put_of_ne ?_
          rintro rfl
          exact hown ⟨dir', n, hdir', rfl⟩
        · refine Fs.names_put_of_ne ?_
          rintro n rfl
          exact hown ⟨dir', n, hdir', rfl⟩
        · intro d _ hd
          simp [ToolCall.draft, htool] at hd
      have hlead' : leadsTo (disk.put p (.file (.undecodable error))) dir messageId' = some p :=
        (Fs.walk_congr (Fs.isDir_put_file hp) _ _).trans hlead
      have htarget : markTarget (disk.put p (.file (.undecodable error))) dir messageId' =
          some (p, .undecodable error) := by
        unfold leadsTo at hlead'
        simp only [markTarget, hlead', Option.bind_some, Fs.read_put_file hpne, Option.map_some]
      have hmark : (markRead h c.now (disk.put p (.file (.undecodable error))) c.ctx.userId
          messageId' markAll).2 = .error (.decode error) := by
        simp only [markRead, hdir, Fs.isDir_put_file hp, hexists, Bool.not_true,
          Bool.false_eq_true, if_false, htarget, markFile, readMessage]
      rw [← hi.blind _ halike, hrun, hmark, herror]
      rfl
    have := (hother []).symm.trans (hother [0])
    simp [mcpError] at this

/-- A send that fails and leaves a file behind has made it in the caller's inbox. -/
theorem Isolated.text (hi : Isolated h disk c) {d : Draft} {disk₁ : Disk} {m : StoredMessage}
    (hd : c.draft h = some d)
    (hr : reserve h (DateTime.ofTimestamp c.now).iso disk d = (disk₁, .ok (p, m))) :
    Encodable (renderMessage m) ∨ Own h c.ctx.userId p := by
  by_contra hnot
  rw [not_or] at hnot
  have hc : c.sends := by
    unfold ToolCall.draft at hd
    split at hd
    next htool => simp only [ToolCall.sends, htool]
    next htool => simp only [ToolCall.sends, htool]
    · exact absurd hd (by simp)
  obtain ⟨hne, -, hnone⟩ := node_of_reserve hr
  rcases ToolCall.run_of_sends (h := h) hc with ⟨hno, -⟩ | ⟨d', result, hd', hrun, herror, -⟩
  · simp [hd] at hno
  · obtain rfl := Option.some.inj (hd'.symm.trans hd)
    have hfile : (c.run h disk).1.read p = some (.text []) ∧ (c.run h disk).2.isError := by
      rw [hrun]
      simp only [writeMessage, hr, if_neg hnot.1]
      exact ⟨Fs.read_put_file hne, herror _⟩
    rcases hi.frame with hsame | ⟨hno, -⟩
    · rw [hsame p hnot.2, Fs.read, hnone] at hfile
      simp at hfile
    · simp [hfile.2] at hno

/-- **When the inboxes are isolated.** In every state a bridge gets its disk into, by any
tool calls of any callers and whatever happens outside its inboxes, any tool call of any
caller is isolated exactly when it is harmless. -/
theorem isolated_iff {es : List Event} (hrun : Reaches h es disk) :
    Isolated h disk c ↔ Harmless h disk c := by
  constructor
  · intro hi
    constructor
    · intro htool messageId dir p hid hne hdir hexists hlead hp
      exact hi.path htool hid hne hdir hexists hlead hp
    · intro d disk₁ p m hd hr
      exact hi.text hd hr
  · intro hh
    cases hc : c.sends with
    | true => exact isolated_of_sends hrun.tidy hc hh
    | false =>
      by_cases htool : c.tool = .markMessageRead
      · exact isolated_of_marks htool hh
      · exact isolated_of_reads hc htool

/-- A call of a tool with these arguments. -/
def callBy (user : String) (tool : Tool) (args : List (String × String)) : ToolCall where
  tool := tool
  args := object (args.map fun (k, v) => (k, .str (lit v)))
  ctx := { userId := lit user }
  now := 1779105600
  sessions := .ok []

/-- Alice sends a note. -/
def sendTo (target : String) : ToolCall :=
  callBy "alice" .sendMessageToUser [("target_user_id", target), ("body", "hi")]

/-- The disk after Alice has sent Bob and Mallory a note. -/
def twoNotes : Disk :=
  ((sendTo "mallory").run someHost ((sendTo "bob").run someHost ⟨∅⟩).1).1

theorem reaches_twoNotes :
    Reaches someHost [.call (sendTo "bob"), .call (sendTo "mallory")] twoNotes :=
  ⟨⟨∅⟩, fun _ _ => by simp [Fs.node, someHost], (Lts.Run.nil.snoc rfl).snoc rfl⟩

/-- Bob marks the note he has got as read. -/
theorem isolated_iff_bob : Isolated someHost twoNotes
    (callBy "bob" .markMessageRead [("message_id", "20260518T120000Z-alice-hi")]) := by
  refine (isolated_iff reaches_twoNotes).mpr ⟨?_, ?_⟩
  · intro _ messageId dir p hid _ hdir _ hlead _
    obtain rfl := Value.str.inj hid
    obtain rfl := Except.ok.inj hdir
    have hnote : leadsTo twoNotes [lit "active", lit "bob", lit "inboxes"]
        (lit "20260518T120000Z-alice-hi") = some (lit "20260518T120000Z-alice-hi.md" ::
          [lit "active", lit "bob", lit "inboxes"]) := by
      decide +kernel
    exact ⟨_, _, rfl, Option.some.inj (hlead.symm.trans hnote)⟩
  · rintro d disk₁ p m ⟨⟩

/-- Mallory marks the same note as read, with a path for a message id. -/
def intrusion : ToolCall :=
  callBy "mallory" .markMessageRead
    [("message_id", "../../bob/active/20260518T120000Z-alice-hi")]

/-- This changes Bob's file. -/
theorem not_isolated_mallory : ∃ es disk p, Reaches someHost es disk ∧
    intrusion.ctx.userId = lit "mallory" ∧ intrusion.tool = .markMessageRead ∧
    Own someHost (lit "bob") p ∧ ¬Own someHost (lit "mallory") p ∧ (disk.read p).isSome ∧
    (intrusion.run someHost disk).1.read p ≠ disk.read p ∧
    ¬Isolated someHost disk intrusion := by
  have hread : (twoNotes.read (lit "20260518T120000Z-alice-hi.md" ::
      [lit "active", lit "bob", lit "inboxes"])).isSome ∧
      (intrusion.run someHost twoNotes).1.read (lit "20260518T120000Z-alice-hi.md" ::
      [lit "active", lit "bob", lit "inboxes"]) ≠
      twoNotes.read (lit "20260518T120000Z-alice-hi.md" ::
      [lit "active", lit "bob", lit "inboxes"]) := by
    decide +kernel
  have hother : ¬Own someHost (lit "mallory") (lit "20260518T120000Z-alice-hi.md" ::
      [lit "active", lit "bob", lit "inboxes"]) := by
    rintro ⟨dir, n, hdir, hp⟩
    have hbob : ∀ q ∈ [[lit "active", lit "inboxes"],
        [lit "active", lit "mallory", lit "inboxes"]],
        [lit "active", lit "bob", lit "inboxes"] ≠ q := by
      decide
    refine hbob dir ?_ (List.cons.inj hp).2
    rcases (activeDir_eq_ok hdir).2 with ⟨-, rfl⟩ | rfl
    · exact List.mem_cons_self
    · exact List.mem_cons_of_mem _ List.mem_cons_self
  refine ⟨_, twoNotes, _, reaches_twoNotes, rfl, rfl, ⟨_, _, rfl, rfl⟩, hother, hread.1,
    hread.2, ?_⟩
  intro hi
  rcases hi.frame with hsame | ⟨-, d, -, -, hd, -⟩
  · exact hread.2 (hsame _ hother)
  · exact absurd hd (by simp [ToolCall.draft, intrusion, callBy])

end Inbox

end OtamanBridge
