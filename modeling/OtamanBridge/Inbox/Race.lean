import OtamanBridge.Inbox.Marking
import OtamanBridge.Lib.PyInstant

/-!
# Calls of `mark_read` at one time

`_atomic_set_read_at` writes the new text to a file beside the message file and renames it.
The name of this file comes from the message file alone, so two calls that mark one message
share it. Here any number of calls on one inbox take their steps in any order; a step is what
one system call does. A file has its data apart from its name: a call that has opened the file
beside a message file goes on writing to it when another call has renamed it.

No message file is ever lost or truncated, if no call renames a file that another has opened
anew and not yet written (`OtamanBridge.Inbox.Race.whole_of_settled`); and where this happens,
the text is back once this other call has written
(`OtamanBridge.Inbox.Race.whole_of_written`).
-/

namespace OtamanBridge

namespace Inbox

namespace Race

open Py Posix

/-! ### The calls -/

/-- The data of a file: the message file it was made for, and a number. The data that was
there from the beginning has the number 0. -/
structure Inode where
  name : Text
  number : ℕ
  deriving DecidableEq

/-- What a call is called with, and the time it finds on the clock. -/
structure Request where
  messageId : Text
  markAll : Bool
  now : ℕ

/-- `now`. -/
def Request.when (r : Request) : Text := (DateTime.ofTimestamp r.now).iso

/-- How far a call is. What it still has to look at, when it has marked a file, are these names,
for messages up to this time; with a single message there are none. -/
inductive Phase
  /-- It is about to read the message that is named. -/
  | begun
  /-- It is about to list the directory. -/
  | listing (cutoff : Text)
  /-- It is about to look at the first of these files. -/
  | looking (cutoff : Text) (todo : List Text)
  /-- In `_atomic_set_read_at`, it is about to read the file. -/
  | reading (n cutoff : Text) (todo : List Text)
  /-- It is about to open the file beside it, for this text. -/
  | opening (n newText cutoff : Text) (todo : List Text)
  /-- It has opened this data, and is about to write. -/
  | writing (n : Text) (i : Inode) (newText cutoff : Text) (todo : List Text)
  /-- It is about to rename the file. -/
  | replacing (n cutoff : Text) (todo : List Text)
  /-- It has returned, or raised. -/
  | over
  deriving DecidableEq

/-- The data a call has open to write to. -/
def Phase.held : Phase → Option Inode
  | .writing _ i _ _ _ => some i
  | _ => none

/-- The name a call is about to give to the file beside the message file. -/
def Phase.replaces : Phase → Option Text
  | .replacing n _ _ => some n
  | _ => none

/-- The directory, the data of its files, the number of the next file, and the calls. -/
structure State (T : Type*) where
  links : Text → Option Inode
  data : Inode → Text
  next : ℕ
  phase : T → Phase

/-- The text of a file. -/
def textAt (disk : Disk) (dir : Place Text) (n : Text) : Text :=
  match disk.read (n :: dir) with
  | some (.text raw) => raw
  | _ => []

/-- The directory of an inbox, and calls that begin. -/
def start (T : Type*) (disk : Disk) (dir : Place Text) : State T where
  links n := (disk.read (n :: dir)).map fun _ => ⟨n, 0⟩
  data i := if i.number = 0 then textAt disk dir i.name else []
  next := 1
  phase _ := .begun

/-- The call that takes the step; and the names it gets, if it lists the directory. What a
listing yields while others rename is up to the system. -/
structure Label (T : Type*) where
  call : T
  listed : List Text

section Step

variable {T : Type*} [DecidableEq T]

/-- A call goes on. -/
def State.go (s : State T) (t : T) (p : Phase) : State T :=
  { s with phase := Function.update s.phase t p }

@[simp] theorem State.phase_go_self (s : State T) (t : T) (p : Phase) : (s.go t p).phase t = p :=
  Function.update_self ..

theorem State.phase_go_of_ne {s : State T} {t c : T} {p : Phase} (hne : t ≠ c) :
    (s.go c p).phase t = s.phase t :=
  Function.update_of_ne hne ..

/-- `_read_message` of the file of this name. -/
def State.message (dir : Place Text) (s : State T) (n : Text) : Option StoredMessage :=
  (s.links n).bind fun i =>
    (readMessage (pathText dir [.down n]) (.text (s.data i))).toOption

/-- One step of a call of `mark_read`. -/
def step (h : Host) (dir : Place Text) (calls : T → Request) (s : State T) (l : Label T) :
    Option (State T) :=
  match s.phase l.call with
  | .begun =>
    let name := fileName (calls l.call).messageId
    match s.message dir name with
    | none => some (s.go l.call .over)
    | some target =>
      if (calls l.call).markAll then some (s.go l.call (.listing target.sentAt))
      else if target.readAt.isNone then
        some (s.go l.call (.reading name target.sentAt []))
      else some (s.go l.call .over)
  | .listing cutoff => some (s.go l.call (.looking cutoff l.listed))
  | .looking _ [] => some (s.go l.call .over)
  | .looking cutoff (n :: todo) =>
    if (lit ".md").isSuffixOf n &&
        (s.message dir n).any fun m => m.readAt.isNone && decide (m.sentAt ≤ cutoff) then
      some (s.go l.call (.reading n cutoff todo))
    else some (s.go l.call (.looking cutoff todo))
  | .reading n cutoff todo =>
    match s.links n with
    | none => some (s.go l.call .over)
    | some i =>
      if markedText (calls l.call).when (s.data i) = universalNewlines (s.data i) then
        some (s.go l.call (.looking cutoff todo))
      else
        some (s.go l.call
          (.opening n (markedText (calls l.call).when (s.data i)) cutoff todo))
  | .opening n newText cutoff todo =>
    if !h.accepts (tmpName n) then some (s.go l.call .over)
    else
      match s.links (tmpName n) with
      | some i =>
        some ({ s with data := Function.update s.data i [] }.go l.call
          (.writing n i newText cutoff todo))
      | none =>
        some ({ s with
          links := Function.update s.links (tmpName n) (some ⟨n, s.next⟩)
          data := Function.update s.data ⟨n, s.next⟩ []
          next := s.next + 1 }.go l.call (.writing n ⟨n, s.next⟩ newText cutoff todo))
  | .writing n i newText cutoff todo =>
    -- from the beginning on, over what is there
    some ({ s with
      data := Function.update s.data i (newText ++ (s.data i).drop newText.length) }.go l.call
        (.replacing n cutoff todo))
  | .replacing n cutoff todo =>
    match s.links (tmpName n) with
    | none => some (s.go l.call .over)
    | some i =>
      some ({ s with
        links := Function.update (Function.update s.links (tmpName n) none) n (some i) }.go
          l.call (.looking cutoff todo))
  | .over => none

/-! ### What a step can do -/

variable {h : Host} {dir : Place Text} {calls : T → Request} {s s' : State T}

/-- The steps, by what they do. -/
inductive Step (h : Host) (dir : Place Text) (calls : T → Request) (s : State T) :
    Label T → State T → Prop
  /-- A call looks at something, lists the directory, or ends. -/
  | move {l : Label T} {p : Phase} (hheld : (s.phase l.call).held = none)
      (hp : p = .over ∨ (∃ cutoff, p = .listing cutoff) ∨ ∃ cutoff todo, p = .looking cutoff todo) :
      Step h dir calls s l (s.go l.call p)
  | choose {l : Label T} {n cutoff : Text} {todo : List Text} {i : Inode}
      (hheld : (s.phase l.call).held = none) (hmd : lit ".md" <:+ n) (hi : s.links n = some i) :
      Step h dir calls s l (s.go l.call (.reading n cutoff todo))
  | change {l : Label T} {n cutoff : Text} {todo : List Text} {i : Inode}
      (hphase : s.phase l.call = .reading n cutoff todo) (hi : s.links n = some i)
      (hne : markedText (calls l.call).when (s.data i) ≠ universalNewlines (s.data i)) :
      Step h dir calls s l (s.go l.call
        (.opening n (markedText (calls l.call).when (s.data i)) cutoff todo))
  | truncate {l : Label T} {n newText cutoff : Text} {todo : List Text} {i : Inode}
      (hphase : s.phase l.call = .opening n newText cutoff todo)
      (hi : s.links (tmpName n) = some i) :
      Step h dir calls s l ({ s with data := Function.update s.data i [] }.go l.call
        (.writing n i newText cutoff todo))
  | create {l : Label T} {n newText cutoff : Text} {todo : List Text}
      (hphase : s.phase l.call = .opening n newText cutoff todo)
      (hfree : s.links (tmpName n) = none) :
      Step h dir calls s l ({ s with
        links := Function.update s.links (tmpName n) (some ⟨n, s.next⟩)
        data := Function.update s.data ⟨n, s.next⟩ []
        next := s.next + 1 }.go l.call (.writing n ⟨n, s.next⟩ newText cutoff todo))
  | write {l : Label T} {n newText cutoff : Text} {todo : List Text} {i : Inode}
      (hphase : s.phase l.call = .writing n i newText cutoff todo) :
      Step h dir calls s l ({ s with
        data := Function.update s.data i (newText ++ (s.data i).drop newText.length) }.go l.call
          (.replacing n cutoff todo))
  | replace {l : Label T} {n cutoff : Text} {todo : List Text} {i : Inode}
      (hphase : s.phase l.call = .replacing n cutoff todo) (hi : s.links (tmpName n) = some i) :
      Step h dir calls s l ({ s with
        links := Function.update (Function.update s.links (tmpName n) none) n (some i) }.go
          l.call (.looking cutoff todo))

omit [DecidableEq T] in
theorem exists_link_of_message {n : Text} {m : StoredMessage}
    (hm : s.message dir n = some m) : ∃ i, s.links n = some i := by
  obtain ⟨i, hi, -⟩ := Option.bind_eq_some_iff.mp hm
  exact ⟨i, hi⟩

/-- **Every step is one of these.** -/
theorem Step.of_step {l : Label T} (hs : step h dir calls s l = some s') :
    Step h dir calls s l s' := by
  unfold step at hs
  split at hs
  next hphase =>
    have hheld : (s.phase l.call).held = none := by
      rw [hphase]
      rfl
    simp only at hs
    split at hs
    · obtain rfl := Option.some.inj hs
      exact .move hheld (.inl rfl)
    next target hm =>
      split_ifs at hs
      · obtain rfl := Option.some.inj hs
        exact .move hheld (.inr (.inl ⟨_, rfl⟩))
      · obtain rfl := Option.some.inj hs
        obtain ⟨i, hi⟩ := exists_link_of_message hm
        exact .choose hheld (List.suffix_append _ _) hi
      · obtain rfl := Option.some.inj hs
        exact .move hheld (.inl rfl)
  next cutoff hphase =>
    obtain rfl := Option.some.inj hs
    exact .move (by rw [hphase]; rfl) (.inr (.inr ⟨_, _, rfl⟩))
  next hphase =>
    obtain rfl := Option.some.inj hs
    exact .move (by rw [hphase]; rfl) (.inl rfl)
  next cutoff n todo hphase =>
    have hheld : (s.phase l.call).held = none := by
      rw [hphase]
      rfl
    split_ifs at hs with hchosen
    · obtain rfl := Option.some.inj hs
      rw [Bool.and_eq_true, Option.any_eq_true] at hchosen
      obtain ⟨hmd, m, hm, -⟩ := hchosen
      obtain ⟨i, hi⟩ := exists_link_of_message hm
      exact .choose hheld (List.isSuffixOf_iff_suffix.mp hmd) hi
    · obtain rfl := Option.some.inj hs
      exact .move hheld (.inr (.inr ⟨_, _, rfl⟩))
  next n cutoff todo hphase =>
    split at hs
    · obtain rfl := Option.some.inj hs
      exact .move (by rw [hphase]; rfl) (.inl rfl)
    next i hi =>
      split_ifs at hs with hsame
      · obtain rfl := Option.some.inj hs
        exact .move (by rw [hphase]; rfl) (.inr (.inr ⟨_, _, rfl⟩))
      · obtain rfl := Option.some.inj hs
        exact .change hphase hi hsame
  next n newText cutoff todo hphase =>
    split_ifs at hs
    · obtain rfl := Option.some.inj hs
      exact .move (by rw [hphase]; rfl) (.inl rfl)
    · split at hs
      next i hi =>
        obtain rfl := Option.some.inj hs
        exact .truncate hphase hi
      next hfree =>
        obtain rfl := Option.some.inj hs
        exact .create hphase hfree
  next n i newText cutoff todo hphase =>
    obtain rfl := Option.some.inj hs
    exact .write hphase
  next n cutoff todo hphase =>
    split at hs
    · obtain rfl := Option.some.inj hs
      exact .move (by rw [hphase]; rfl) (.inl rfl)
    next i hi =>
      obtain rfl := Option.some.inj hs
      exact .replace hphase hi
  · exact absurd hs (by simp)

end Step

/-! ### The invariant -/

section Invariant

variable {T : Type*} {h : Host} {disk : Disk} {dir : Place Text} {calls : T → Request}
  {s s' : State T} {n t : Text}

/-- A file that was there from the beginning. -/
def IsFile (disk : Disk) (dir : Place Text) (n : Text) : Prop :=
  ∃ content, disk.read (n :: dir) = some content

/-- A text that one of the calls makes of the text of a message file. -/
def Marked (calls : T → Request) (disk : Disk) (dir : Place Text) (n t : Text) : Prop :=
  Headed (textAt disk dir n) ∧ ∃ c, t = markedText (calls c).when (textAt disk dir n)

/-- A call is at work on a file that was there, with a text it may have. -/
def PhaseOk (calls : T → Request) (disk : Disk) (dir : Place Text) : Phase → Prop
  | .reading n _ _ => IsFile disk dir n
  | .opening n newText _ _ => IsFile disk dir n ∧ Marked calls disk dir n newText
  | .writing n i newText _ _ => IsFile disk dir n ∧ Marked calls disk dir n newText ∧
      i.name = n ∧ 0 < i.number
  | .replacing n _ _ => IsFile disk dir n
  | _ => True

/-- **The invariant of the calls.** -/
structure Inv (calls : T → Request) (disk : Disk) (dir : Place Text) (s : State T) : Prop where
  pos : 0 < s.next
  /-- The files are there, each with data that was made for it. -/
  files : ∀ n, IsFile disk dir n → ∃ i, s.links n = some i ∧ i.name = n
  names : ∀ n i, s.links n = some i → IsFile disk dir n ∨ ∃ n', n = tmpName n'
  beside : ∀ n i, s.links (tmpName n) = some i → i.name = n ∧ 0 < i.number
  /-- No two names have the same data. -/
  single : ∀ a b i, s.links a = some i → s.links b = some i → a = b
  fresh : ∀ a i, s.links a = some i → i.number < s.next
  /-- The first data of a file does not change. -/
  first : ∀ i, i.number = 0 → s.data i = textAt disk dir i.name
  later : ∀ i, 0 < i.number → s.data i = [] ∨ Marked calls disk dir i.name (s.data i)
  phases : ∀ t, PhaseOk calls disk dir (s.phase t)
  /-- Data that is empty, and was not so, has been opened, and will be written. -/
  opened : ∀ a i, s.links a = some i → s.data i = [] →
    textAt disk dir i.name = [] ∨ ∃ t, (s.phase t).held = some i

/-- What is known of the inbox: its files are message files, and those that are not empty have
a header; and the times are of one length. -/
structure Setting (calls : T → Request) (disk : Disk) (dir : Place Text) : Prop where
  md : ∀ n, IsFile disk dir n → lit ".md" <:+ n
  headed : ∀ n, textAt disk dir n = [] ∨ Headed (textAt disk dir n)
  length : ∀ c, (calls c).when.length = 20

theorem Request.oneLine (r : Request) : OneLine r.when := (stamp_iso _).oneLine

theorem Setting.not_tmp (hset : Setting calls disk dir) {n' : Text} (hn : IsFile disk dir n) :
    n ≠ tmpName n' := by
  rintro rfl
  exact not_md_tmpName n' (hset.md _ hn)

theorem tmpName_injective : Function.Injective tmpName :=
  fun _ _ h => List.append_cancel_right h

theorem Marked.ne_nil (hm : Marked calls disk dir n t) : t ≠ [] := by
  obtain ⟨hhead, c, rfl⟩ := hm
  exact (hhead.marked (calls c).oneLine).ne_nil

/-- One text written over another that is not longer is all there is. -/
theorem Setting.overwrite (hset : Setting calls disk dir) (hm : Marked calls disk dir n t)
    {old : Text} (hold : old = [] ∨ Marked calls disk dir n old) :
    t ++ old.drop t.length = t := by
  have hle : old.length ≤ t.length := by
    rcases hold with rfl | ⟨-, c', rfl⟩
    · exact Nat.zero_le _
    · obtain ⟨-, c, rfl⟩ := hm
      refine (length_markedText ?_ _).le
      rw [hset.length, hset.length]
  rw [List.drop_eq_nil_of_le hle, List.append_nil]

theorem Setting.inv_start (hset : Setting calls disk dir) :
    Inv calls disk dir (start T disk dir) where
  pos := Nat.one_pos
  files n hn := by
    obtain ⟨content, hread⟩ := hn
    exact ⟨⟨n, 0⟩, by simp [start, hread], rfl⟩
  names n i hi := by
    obtain ⟨content, hread, -⟩ := Option.map_eq_some_iff.mp hi
    exact .inl ⟨content, hread⟩
  beside n i hi := by
    obtain ⟨content, hread, -⟩ := Option.map_eq_some_iff.mp hi
    exact absurd rfl (hset.not_tmp ⟨content, hread⟩)
  single a b i ha hb := by
    obtain ⟨-, -, rfl⟩ := Option.map_eq_some_iff.mp ha
    obtain ⟨-, -, heq⟩ := Option.map_eq_some_iff.mp hb
    exact (congrArg Inode.name heq).symm
  fresh a i ha := by
    obtain ⟨-, -, rfl⟩ := Option.map_eq_some_iff.mp ha
    exact Nat.one_pos
  first i hi := if_pos hi
  later i hi := .inl (if_neg hi.ne')
  phases _ := trivial
  opened a i ha hnil := by
    obtain ⟨-, -, rfl⟩ := Option.map_eq_some_iff.mp ha
    exact .inl hnil

variable [DecidableEq T]

/-- The data that is open stays so, where another call goes on. -/
theorem exists_held_go {c : T} {p : Phase} {i : Inode} (hne : (s.phase c).held ≠ some i)
    (hex : ∃ t, (s.phase t).held = some i) : ∃ t, ((s.go c p).phase t).held = some i := by
  obtain ⟨t, ht⟩ := hex
  refine ⟨t, ?_⟩
  rw [State.phase_go_of_ne]
  · exact ht
  · rintro rfl
    exact hne ht

theorem Inv.phases_go (hinv : Inv calls disk dir s) (c : T) (p : Phase)
    (hp : PhaseOk calls disk dir p) (t : T) : PhaseOk calls disk dir ((s.go c p).phase t) := by
  rcases eq_or_ne t c with rfl | hne
  · rwa [State.phase_go_self]
  · rw [State.phase_go_of_ne hne]
    exact hinv.phases t

/-- A call that has nothing open goes on. -/
theorem Inv.go (hinv : Inv calls disk dir s) {c : T} {p : Phase}
    (hheld : (s.phase c).held = none) (hp : PhaseOk calls disk dir p) :
    Inv calls disk dir (s.go c p) where
  pos := hinv.pos
  files := hinv.files
  names := hinv.names
  beside := hinv.beside
  single := hinv.single
  fresh := hinv.fresh
  first := hinv.first
  later := hinv.later
  phases := hinv.phases_go c p hp
  opened a i ha hnil :=
    (hinv.opened a i ha hnil).imp_right (exists_held_go (by rw [hheld]; simp))

omit [DecidableEq T] in
/-- The text that a call makes of what it reads. -/
theorem Inv.marked (hinv : Inv calls disk dir s) (hset : Setting calls disk dir)
    (hn : IsFile disk dir n) {i : Inode} (hi : s.links n = some i) {c : T}
    (hne : markedText (calls c).when (s.data i) ≠ universalNewlines (s.data i)) :
    Marked calls disk dir n (markedText (calls c).when (s.data i)) := by
  obtain ⟨j, hj, rfl⟩ := hinv.files n hn
  obtain rfl := Option.some.inj (hj.symm.trans hi)
  -- nothing is made of a text that is empty
  have hnil : s.data j ≠ [] := by
    intro hnil
    rw [hnil] at hne
    exact hne rfl
  rcases Nat.eq_zero_or_pos j.number with hzero | hpos
  · rw [hinv.first j hzero] at hnil ⊢
    exact ⟨(hset.headed _).resolve_left hnil, c, rfl⟩
  · obtain ⟨hhead, c', heq⟩ := (hinv.later j hpos).resolve_left hnil
    rw [heq, markedText_markedText (calls c').oneLine]
    exact ⟨hhead, c, rfl⟩

/-- A call opens the file beside a message file, which empties it. -/
theorem Inv.truncate (hinv : Inv calls disk dir s) {c : T} {newText cutoff : Text}
    {todo : List Text} {i : Inode} (hphase : s.phase c = .opening n newText cutoff todo)
    (hi : s.links (tmpName n) = some i) :
    Inv calls disk dir ({ s with data := Function.update s.data i [] }.go c
      (.writing n i newText cutoff todo)) := by
  have hok := hinv.phases c
  rw [hphase] at hok
  obtain ⟨hname, hpos⟩ := hinv.beside n i hi
  refine {
    pos := hinv.pos
    files := hinv.files
    names := hinv.names
    beside := hinv.beside
    single := hinv.single
    fresh := hinv.fresh
    first := fun j hj => ?_
    later := fun j hj => ?_
    phases := hinv.phases_go c (.writing n i newText cutoff todo) ⟨hok.1, hok.2, hname, hpos⟩
    opened := fun a j ha hnil => ?_ }
  · refine (Function.update_of_ne ?_ _ _).trans (hinv.first j hj)
    rintro rfl
    omega
  · rcases eq_or_ne j i with rfl | hne
    · exact .inl (Function.update_self _ _ _)
    · show Function.update s.data i [] j = [] ∨ Marked _ _ _ _ (Function.update s.data i [] j)
      rw [Function.update_of_ne hne]
      exact hinv.later j hj
  · rcases eq_or_ne j i with rfl | hne
    · refine .inr ⟨c, ?_⟩
      rw [State.phase_go_self]
      rfl
    · refine (hinv.opened a j ha ((Function.update_of_ne hne _ _).symm.trans hnil)).imp_right
        fun hex => ?_
      exact exists_held_go (by rw [hphase]; simp [Phase.held]) hex

/-- A call makes the file beside a message file. -/
theorem Inv.create (hinv : Inv calls disk dir s) (hset : Setting calls disk dir) {c : T}
    {newText cutoff : Text} {todo : List Text}
    (hphase : s.phase c = .opening n newText cutoff todo) :
    Inv calls disk dir ({ s with
      links := Function.update s.links (tmpName n) (some ⟨n, s.next⟩)
      data := Function.update s.data ⟨n, s.next⟩ []
      next := s.next + 1 }.go c (.writing n ⟨n, s.next⟩ newText cutoff todo)) := by
  have hok := hinv.phases c
  rw [hphase] at hok
  have hlinks : ∀ {a j}, Function.update s.links (tmpName n) (some ⟨n, s.next⟩) a = some j →
      a = tmpName n ∧ j = ⟨n, s.next⟩ ∨ a ≠ tmpName n ∧ s.links a = some j := by
    intro a j ha
    rcases Lts.update_eq_some ha with ⟨rfl, heq⟩ | hold
    · exact .inl ⟨rfl, (Option.some.inj heq).symm⟩
    · exact .inr hold
  have hother : ∀ {a j}, s.links a = some j → j ≠ ⟨n, s.next⟩ := by
    rintro a j ha rfl
    exact absurd (hinv.fresh a _ ha) (lt_irrefl _)
  refine {
    pos := Nat.succ_pos _
    files := fun x hx => ?_
    names := fun a j ha => ?_
    beside := fun x j hx => ?_
    single := fun a b j ha hb => ?_
    fresh := fun a j ha => ?_
    first := fun j hj => ?_
    later := fun j hj => ?_
    phases := hinv.phases_go c (.writing n ⟨n, s.next⟩ newText cutoff todo)
      ⟨hok.1, hok.2, rfl, hinv.pos⟩
    opened := fun a j ha hnil => ?_ }
  · obtain ⟨j, hj, hname⟩ := hinv.files x hx
    exact ⟨j, (Function.update_of_ne (hset.not_tmp hx) _ _).trans hj, hname⟩
  · rcases hlinks ha with ⟨rfl, -⟩ | ⟨-, ha⟩
    · exact .inr ⟨n, rfl⟩
    · exact hinv.names a j ha
  · rcases hlinks hx with ⟨heq, rfl⟩ | ⟨-, hx⟩
    · exact ⟨(tmpName_injective heq).symm, hinv.pos⟩
    · exact hinv.beside x j hx
  · rcases hlinks ha with ⟨rfl, rfl⟩ | ⟨-, ha⟩
    · rcases hlinks hb with ⟨rfl, -⟩ | ⟨-, hb⟩
      · rfl
      · exact absurd rfl (hother hb)
    · rcases hlinks hb with ⟨-, rfl⟩ | ⟨-, hb⟩
      · exact absurd rfl (hother ha)
      · exact hinv.single a b j ha hb
  · rcases hlinks ha with ⟨-, rfl⟩ | ⟨-, ha⟩
    · exact Nat.lt_succ_self _
    · exact (hinv.fresh a j ha).trans (Nat.lt_succ_self _)
  · refine (Function.update_of_ne ?_ _ _).trans (hinv.first j hj)
    rintro rfl
    exact absurd hinv.pos hj.not_gt
  · rcases eq_or_ne j ⟨n, s.next⟩ with rfl | hne
    · exact .inl (Function.update_self _ _ _)
    · show Function.update s.data _ [] j = [] ∨ Marked _ _ _ _ (Function.update s.data _ [] j)
      rw [Function.update_of_ne hne]
      exact hinv.later j hj
  · rcases hlinks ha with ⟨-, rfl⟩ | ⟨-, ha⟩
    · refine .inr ⟨c, ?_⟩
      rw [State.phase_go_self]
      rfl
    · refine (hinv.opened a j ha
        ((Function.update_of_ne (hother ha) _ _).symm.trans hnil)).imp_right fun hex => ?_
      exact exists_held_go (by rw [hphase]; simp [Phase.held]) hex

/-- A call writes its text. -/
theorem Inv.write (hinv : Inv calls disk dir s) (hset : Setting calls disk dir) {c : T}
    {newText cutoff : Text} {todo : List Text} {i : Inode}
    (hphase : s.phase c = .writing n i newText cutoff todo) :
    Inv calls disk dir ({ s with
      data := Function.update s.data i (newText ++ (s.data i).drop newText.length) }.go c
        (.replacing n cutoff todo)) := by
  have hok := hinv.phases c
  rw [hphase] at hok
  obtain ⟨hfile, hmarked, rfl, hpos⟩ := hok
  rw [hset.overwrite hmarked (hinv.later i hpos)]
  refine {
    pos := hinv.pos
    files := hinv.files
    names := hinv.names
    beside := hinv.beside
    single := hinv.single
    fresh := hinv.fresh
    first := fun j hj => ?_
    later := fun j hj => ?_
    phases := hinv.phases_go c (.replacing i.name cutoff todo) hfile
    opened := fun a j ha hnil => ?_ }
  · refine (Function.update_of_ne ?_ _ _).trans (hinv.first j hj)
    rintro rfl
    omega
  · show Function.update s.data i newText j = [] ∨
      Marked _ _ _ _ (Function.update s.data i newText j)
    rcases eq_or_ne j i with rfl | hne
    · rw [Function.update_self]
      exact .inr hmarked
    · rw [Function.update_of_ne hne]
      exact hinv.later j hj
  · rcases eq_or_ne j i with rfl | hne
    · exact absurd ((Function.update_self _ _ _).symm.trans hnil) hmarked.ne_nil
    · refine (hinv.opened a j ha ((Function.update_of_ne hne _ _).symm.trans hnil)).imp_right
        fun hex => ?_
      refine exists_held_go ?_ hex
      rw [hphase]
      exact fun heq => hne (Option.some.inj heq).symm

/-- A call gives the file beside a message file its name. -/
theorem Inv.replace (hinv : Inv calls disk dir s) (hset : Setting calls disk dir) {c : T}
    {cutoff : Text} {todo : List Text} {i : Inode}
    (hphase : s.phase c = .replacing n cutoff todo) (hi : s.links (tmpName n) = some i) :
    Inv calls disk dir ({ s with
      links := Function.update (Function.update s.links (tmpName n) none) n (some i) }.go c
        (.looking cutoff todo)) := by
  have hok := hinv.phases c
  rw [hphase] at hok
  have hfile : IsFile disk dir n := hok
  have hlinks : ∀ a j, Function.update (Function.update s.links (tmpName n) none) n (some i) a =
      some j → a = n ∧ j = i ∨ a ≠ n ∧ a ≠ tmpName n ∧ s.links a = some j := by
    intro a j ha
    rcases Lts.update_eq_some ha with ⟨rfl, heq⟩ | ⟨hne, ha⟩
    · exact .inl ⟨rfl, (Option.some.inj heq).symm⟩
    · rcases Lts.update_eq_some ha with ⟨-, hnone⟩ | hold
      · exact absurd hnone (by simp)
      · exact .inr ⟨hne, hold⟩
  refine {
    pos := hinv.pos
    files := fun x hx => ?_
    names := fun a j ha => ?_
    beside := fun x j hx => ?_
    single := fun a b j ha hb => ?_
    fresh := fun a j ha => ?_
    first := hinv.first
    later := hinv.later
    phases := hinv.phases_go c (.looking cutoff todo) trivial
    opened := fun a j ha hnil => ?_ }
  · rcases eq_or_ne x n with rfl | hne
    · exact ⟨i, Function.update_self _ _ _, (hinv.beside x i hi).1⟩
    · obtain ⟨j, hj, hname⟩ := hinv.files x hx
      refine ⟨j, ?_, hname⟩
      exact (Function.update_of_ne hne _ _).trans
        ((Function.update_of_ne (hset.not_tmp hx) _ _).trans hj)
  · rcases hlinks a j ha with ⟨rfl, -⟩ | ⟨-, -, ha⟩
    · exact .inl hfile
    · exact hinv.names a j ha
  · rcases hlinks _ j hx with ⟨heq, -⟩ | ⟨-, -, hx⟩
    · exact absurd heq.symm (hset.not_tmp hfile)
    · exact hinv.beside x j hx
  · rcases hlinks a j ha with ⟨rfl, rfl⟩ | ⟨-, hne, ha'⟩
    · rcases hlinks b j hb with ⟨rfl, -⟩ | ⟨-, hne, hb'⟩
      · rfl
      · exact absurd (hinv.single b _ j hb' hi) hne
    · rcases hlinks b j hb with ⟨-, rfl⟩ | ⟨-, -, hb'⟩
      · exact absurd (hinv.single a _ j ha' hi) hne
      · exact hinv.single a b j ha' hb'
  · rcases hlinks a j ha with ⟨-, rfl⟩ | ⟨-, -, ha⟩
    · exact hinv.fresh _ j hi
    · exact hinv.fresh a j ha
  · have hold : ∃ b, s.links b = some j := by
      rcases hlinks a j ha with ⟨-, rfl⟩ | ⟨-, -, ha⟩
      · exact ⟨_, hi⟩
      · exact ⟨a, ha⟩
    obtain ⟨b, hb⟩ := hold
    exact (hinv.opened b j hb hnil).imp_right
      (exists_held_go (by rw [hphase]; simp [Phase.held]))

/-- **Every step keeps the invariant.** -/
theorem Inv.step (hinv : Inv calls disk dir s) (hset : Setting calls disk dir) {l : Label T}
    (hs : Step h dir calls s l s') : Inv calls disk dir s' := by
  cases hs with
  | move hheld hp =>
    refine hinv.go hheld ?_
    rcases hp with rfl | ⟨cutoff, rfl⟩ | ⟨cutoff, todo, rfl⟩ <;> trivial
  | choose hheld hmd hi =>
    refine hinv.go hheld ((hinv.names _ _ hi).resolve_right ?_)
    rintro ⟨n', rfl⟩
    exact not_md_tmpName n' hmd
  | change hphase hi hne =>
    have hok := hinv.phases l.call
    rw [hphase] at hok
    exact hinv.go (by rw [hphase]; rfl) ⟨hok, hinv.marked hset hok hi hne⟩
  | truncate hphase hi => exact hinv.truncate hphase hi
  | create hphase hfree => exact hinv.create hset hphase
  | write hphase => exact hinv.write hset hphase
  | replace hphase hi => exact hinv.replace hset hphase hi

/-! ### What becomes of the message files -/

/-- No message file is lost or truncated: each has the text it had, or this with the line
written over. -/
def Whole (calls : T → Request) (disk : Disk) (dir : Place Text) (s : State T) : Prop :=
  ∀ n raw, disk.read (n :: dir) = some (.text raw) → ∃ i, s.links n = some i ∧
    (s.data i = raw ∨ ∃ c, s.data i = markedText (calls c).when raw)

/-- **The condition on a step**: a call that renames the file beside a message file finds text
in it. No other call has opened this file since, unless it has written, too. -/
def Settled (s : State T) (l : Label T) : Prop :=
  ∀ n ∈ (s.phase l.call).replaces, ∀ i ∈ s.links (tmpName n), s.data i ≠ []

instance (s : State T) (l : Label T) : Decidable (Settled s l) :=
  inferInstanceAs (Decidable (∀ n ∈ (s.phase l.call).replaces, ∀ i ∈ s.links (tmpName n),
    s.data i ≠ []))

/-- A message file is empty only if it was so. -/
def Full (disk : Disk) (dir : Place Text) (s : State T) : Prop :=
  ∀ n i, IsFile disk dir n → s.links n = some i → s.data i = [] → textAt disk dir n = []

omit [DecidableEq T] in
theorem textAt_of_read {raw : Text} (hread : disk.read (n :: dir) = some (.text raw)) :
    textAt disk dir n = raw := by
  rw [textAt, hread]

omit [DecidableEq T] in
theorem Inv.whole (hinv : Inv calls disk dir s) (hfull : Full disk dir s) :
    Whole calls disk dir s := by
  intro n raw hread
  have htext := textAt_of_read hread
  obtain ⟨i, hi, rfl⟩ := hinv.files n ⟨_, hread⟩
  refine ⟨i, hi, ?_⟩
  rcases Nat.eq_zero_or_pos i.number with hzero | hpos
  · exact .inl ((hinv.first i hzero).trans htext)
  · rcases hinv.later i hpos with hnil | ⟨-, c, hmarked⟩
    · have := hfull i.name i ⟨_, hread⟩ hi hnil
      exact .inl (by rw [hnil, ← htext, this])
    · rw [htext] at hmarked
      exact .inr ⟨c, hmarked⟩

omit [DecidableEq T] in
theorem full_start : Full disk dir (start T disk dir) := by
  intro n i _ hi hnil
  obtain ⟨-, -, rfl⟩ := Option.map_eq_some_iff.mp hi
  exact hnil

/-- **A step that meets the condition** truncates no message file. -/
theorem Full.step (hfull : Full disk dir s) (hinv : Inv calls disk dir s)
    (hset : Setting calls disk dir) {l : Label T} (hsettled : Settled s l)
    (hs : Step h dir calls s l s') : Full disk dir s' := by
  cases hs with
  | move hheld hp => exact hfull
  | choose hheld hmd hi => exact hfull
  | change hphase hi hne => exact hfull
  | truncate hphase hi =>
    intro x j hx hj hnil
    refine hfull x j hx hj ((Function.update_of_ne ?_ _ _).symm.trans hnil)
    rintro rfl
    exact hset.not_tmp hx (hinv.single _ _ _ hj hi)
  | create hphase hfree =>
    intro x j hx hj hnil
    have hj' : s.links x = some j := (Function.update_of_ne (hset.not_tmp hx) _ _).symm.trans hj
    refine hfull x j hx hj' ((Function.update_of_ne ?_ _ _).symm.trans hnil)
    rintro rfl
    exact absurd (hinv.fresh x _ hj') (lt_irrefl _)
  | @write n newText cutoff todo i hphase =>
    intro x j hx hj hnil
    have hok := hinv.phases l.call
    rw [hphase] at hok
    obtain ⟨-, hmarked, rfl, hpos⟩ := hok
    refine hfull x j hx hj ((Function.update_of_ne ?_ _ _).symm.trans hnil)
    rintro rfl
    have hwritten : Function.update s.data j (newText ++ (s.data j).drop newText.length) j =
        [] := hnil
    rw [Function.update_self, hset.overwrite hmarked (hinv.later j hpos)] at hwritten
    exact hmarked.ne_nil hwritten
  | @replace n cutoff todo i hphase hi =>
    intro x j hx hj hnil
    rcases Lts.update_eq_some hj with ⟨rfl, heq⟩ | ⟨-, hj⟩
    · obtain rfl := Option.some.inj heq
      have hreplaces : (s.phase l.call).replaces = some x := by
        rw [hphase]
        rfl
      exact absurd hnil (hsettled x hreplaces i hi)
    · exact hfull x j hx ((Function.update_of_ne (hset.not_tmp hx) _ _).symm.trans hj) hnil

theorem Setting.inv (hset : Setting calls disk dir) {ls : List (Label T)}
    (hrun : Lts.Run (Lts.ofStep (Race.step h dir calls)) (start T disk dir) ls s) :
    Inv calls disk dir s :=
  Lts.Run.inv_state (I := Inv calls disk dir) hset.inv_start
    (fun _ _ _ hinv hs => hinv.step hset (Step.of_step hs)) hrun

/-- **No message file is lost or truncated**, whatever the order of the steps, if none of them
renames a file that another call has emptied. -/
theorem Setting.whole_of_settled (hset : Setting calls disk dir) {ls : List (Label T)}
    (hrun : Lts.Run (Lts.Under Settled (Lts.ofStep (Race.step h dir calls))) (start T disk dir)
      ls s) : Whole calls disk dir s := by
  have hboth : Inv calls disk dir s ∧ Full disk dir s := by
    refine Lts.Run.inv_state (I := fun s => Inv calls disk dir s ∧ Full disk dir s)
      ⟨hset.inv_start, full_start⟩ ?_ hrun
    rintro s l s' ⟨hinv, hfull⟩ ⟨hsettled, hs⟩
    have hstep := Step.of_step hs
    exact ⟨hinv.step hset hstep, hfull.step hinv hset hsettled hstep⟩
  exact hboth.1.whole hboth.2

/-- **Where all calls have written what they have opened**, no message file is lost or
truncated, whatever the order of the steps was. -/
theorem Setting.whole_of_written (hset : Setting calls disk dir) {ls : List (Label T)}
    (hrun : Lts.Run (Lts.ofStep (Race.step h dir calls)) (start T disk dir) ls s)
    (hwritten : ∀ c, (s.phase c).held = none) : Whole calls disk dir s := by
  have hinv := hset.inv hrun
  refine hinv.whole fun n i hn hi hnil => ?_
  obtain ⟨j, hj, rfl⟩ := hinv.files n hn
  obtain rfl := Option.some.inj (hi.symm.trans hj)
  refine (hinv.opened _ i hi hnil).resolve_right ?_
  rintro ⟨c, hc⟩
  exact absurd ((hwritten c).symm.trans hc) (by simp)

end Invariant

end Race

end Inbox

end OtamanBridge
