import OtamanBridge.Bus.RoundTrip
import OtamanBridge.Lib.FilePaths

/-!
# Where the bridge writes

A file name is put together from a time stamp and from what a message says of its sender and
of its change, and joined to a directory as it is. So a separator in these texts makes a path
of the name, with hops down and up, and some of the writers make the directories of this
path before they open it.

The files of a message are where they belong when the path of their name keeps to its
directory (`OtamanBridge.Bus.Inside`). On some file system, any other path leads out of it
(`OtamanBridge.Bus.contained_iff`), and a request for a review leads out of it on every one.
-/

namespace OtamanBridge

namespace Bus

open Py Posix

open Inbox (Content Disk Encodable hops)

/-! ### The writers and their paths -/

/-- The directories the bridge writes to. -/
structure Site where
  /-- `.agents/bus/active`. -/
  active : Place Text
  /-- `openspec/changes`. -/
  changes : Place Text

/-- What Python and the file system take for a name. -/
structure System where
  /-- Python can hand the name to the system: it is no `ValueError`. -/
  encodes : Text → Bool
  /-- The system makes an entry of that name. -/
  accepts : Text → Bool

/-- Whether a path can be handed to the system. -/
def System.takes (sys : System) (path : List (Hop Text)) : Bool :=
  path.all fun
    | .up => true
    | .down n => sys.encodes n

/-- A message some writer writes. -/
inductive Sent
  | written (w : Writing)
  | pm (i : Instant) (msgType recipient subject body priority : Text)
  | review (ts prefixed : Instant) (r : ReviewRequest)

namespace Sent

/-- The file. -/
def file (py : Python) : Sent → MessageFile
  | written w => w.file py
  | pm i msgType recipient subject body priority =>
    pmMessage py i msgType recipient subject body priority
  | review ts prefixed r => reviewMessage ts prefixed r

/-- Whether the writer makes the directory of the file, `out.parent`, or only `active/`. -/
def makesParent : Sent → Bool
  | written (.lifecycle ..) => true
  | review .. => true
  | _ => false

variable (py : Python) (site : Site) (s : Sent)

/-- The path of the file. -/
def path : List (Hop Text) := hopsTo site.active ++ hops (s.file py).name

/-- The path of the directory that is made. -/
def dirPath : List (Hop Text) :=
  if s.makesParent then (s.path py site).dropLast else hopsTo site.active

/-- What `write_text` leaves in the file. -/
def content : Content := .text (s.file py).written

/-- `mkdir` and `write_text`: the disk after it, and the file that was opened. -/
def write (sys : System) (disk : Disk) : Disk × Option (Place Text) :=
  if sys.takes (s.dirPath py site) then
    let made := disk.mkdirsAlong sys.accepts [] (s.dirPath py site)
    if sys.takes (s.path py site) then
      made.writeAt sys.accepts [] (s.path py site) (s.content py)
    else (made, none)
  else (disk, none)

end Sent

/-- A call of `_write_pm_sync_yaml`, for a change and an issue. -/
structure PmSync where
  change : Text
  /-- The text of a new file. -/
  text : Text
  /-- And the text that keeps the tasks of the file there is, unless reading them raises. -/
  update : Content → Option Text

namespace PmSync

variable (site : Site) (p : PmSync)

/-- `_pm_sync_file`: the directory of the change, which may be an absolute path. -/
def dirPath : List (Hop Text) :=
  if p.change.head? = some '/'.toNat then hops p.change else hopsTo site.changes ++ hops p.change

/-- And the file. -/
def path : List (Hop Text) := p.dirPath site ++ [.down (lit ".pm-sync.yaml")]

/-- `_write_pm_sync_yaml`. There is nothing to read where the directory is not there, and
nothing is written. -/
def write (sys : System) (disk : Disk) : Disk × Option (Place Text) :=
  let text := match disk.read (place [] (p.path site)) with
    | none => some p.text
    | some c => p.update c
  match text with
  | some t =>
    if sys.takes (p.path site) then disk.writeAt sys.accepts [] (p.path site) (.text t)
    else (disk, none)
  | none => (disk, none)

end PmSync

/-- What the bridge writes of its own accord when it acts on a message. -/
inductive Act
  | send (s : Sent)
  | sync (p : PmSync)

/-- The disk after it. -/
def Act.run (py : Python) (site : Site) (sys : System) (disk : Disk) : Act → Disk
  | send s => (s.write py site sys disk).1
  | sync p => (p.write site sys disk).1

/-! ### Where that should be -/

/-- **A place where the file of an act belongs**: directly in the active directory, which is
made if need be, or in the directory of a change. -/
def InPlace (site : Site) : Act → Place Text → Prop
  | .send _, q => q <:+ site.active ∨ ∃ n, q = n :: site.active
  | .sync _, q => ∃ n, q = lit ".pm-sync.yaml" :: n :: site.changes

/-- **An act is contained**: it changes no other place, whatever is on the disk. -/
def Contained (py : Python) (site : Site) (a : Act) : Prop :=
  ∀ (sys : System) (disk : Disk) (q : Place Text),
    (a.run py site sys disk).node q ≠ disk.node q → InPlace site a q

/-- **A path ends inside**: in place, or where it cannot be opened because it crosses
this end on its way. -/
def EndsInside (site : Site) (a : Act) (path : List (Hop Text)) : Prop :=
  InPlace site a (place [] path) ∨ Crosses [] path.dropLast (place [] path)

/-- **The paths of an act keep to its directory**: they end inside, and where the
directories on the way are made, all of them are in place as well. -/
def Inside (py : Python) (site : Site) : Act → Prop
  | .send s =>
    if s.makesParent then ∀ q, Crosses [] (s.path py site) q → InPlace site (.send s) q
    else EndsInside site (.send s) (s.path py site)
  | .sync p => EndsInside site (.sync p) (p.path site)

/-! ### Names of messages -/

variable {py : Python} {site : Site} {sys : System} {disk : Disk}

/-- Every message file is called something ending with `.md`. -/
theorem Sent.name_eq (py : Python) (s : Sent) : ∃ t, (s.file py).name = t ++ lit ".md" := by
  have hmd : ∀ w : String, (lit w).drop ((lit w).length - 3) = lit ".md" → ∀ t : Text,
      ∃ t', t ++ lit w = t' ++ lit ".md" := by
    intro w hw t
    refine ⟨t ++ (lit w).take ((lit w).length - 3), ?_⟩
    rw [List.append_assoc, ← hw, List.take_append_drop]
  rcases s with (⟨m, i, responder, comment, v | v⟩ | ⟨m, i, responder, text⟩ | ⟨ts, prefixed, e⟩) |
    ⟨i, msgType, recipient, subject, body, priority⟩ | ⟨ts, prefixed, r⟩
  · exact hmd _ (by decide) _
  · exact hmd _ (by decide) _
  · exact hmd _ (by decide) _
  · exact ⟨_, rfl⟩
  · exact ⟨_, rfl⟩
  · exact ⟨_, rfl⟩

/-- So the path of a message file ends with a name. -/
theorem Sent.path_eq (py : Python) (site : Site) (s : Sent) : ∃ init n,
    s.path py site = hopsTo site.active ++ init ++ [.down n] := by
  obtain ⟨t, ht⟩ := s.name_eq py
  obtain ⟨init, n, h⟩ := Inbox.hops_md t
  exact ⟨init, n, by rw [Sent.path, ht, h, List.append_assoc]⟩

/-! ### Which acts are contained -/

theorem inside_of_makesParent {s : Sent} (hm : s.makesParent) : Inside py site (.send s) ↔
    ∀ q, Crosses [] (s.path py site) q → InPlace site (.send s) q := by
  simp [Inside, hm]

theorem inside_of_not_makesParent {s : Sent} (hm : ¬s.makesParent) : Inside py site (.send s) ↔
    EndsInside site (.send s) (s.path py site) := by
  simp [Inside, hm]

/-- The directories that are made are those on the way to the file. -/
theorem Sent.crosses_dirPath {s : Sent} {q : Place Text} (h : Crosses [] (s.dirPath py site) q) :
    Crosses [] (s.path py site).dropLast q := by
  obtain ⟨init, n, hpath⟩ := s.path_eq py site
  unfold Sent.dirPath at h
  split_ifs at h
  · exact h
  · rw [hpath, List.dropLast_concat]
    exact crosses_append.mpr (.inl h)

/-- What is written to the end of a path is in place, if the path ends inside. -/
theorem EndsInside.inPlace {a : Act} {init : List (Hop Text)} {n : Text} {c : Content}
    {q : Place Text} (h : EndsInside site a (init ++ [.down n]))
    (hq : (disk.writeAt sys.accepts [] (init ++ [.down n]) c).1.node q ≠ disk.node q) :
    InPlace site a q := by
  obtain rfl : q = n :: place [] init := by
    by_contra hne
    exact hq (Fs.node_writeAt_of_ne hne)
  have hw : Fs.Writable sys.accepts disk [] init n := by
    by_contra hw
    exact hq (by rw [Fs.writeAt_of_not_writable hw])
  rw [EndsInside, List.dropLast_concat, place_concat] at h
  refine h.resolve_right fun hpass => ?_
  exact absurd (hw.dirs _ hpass) (by simp [hw.free])

theorem Inside.contained {a : Act} (h : Inside py site a) : Contained py site a := by
  intro sys disk q hq
  cases a with
  | sync p =>
    simp only [Act.run, PmSync.write] at hq
    split at hq
    · split_ifs at hq
      · exact EndsInside.inPlace h hq
      · exact absurd rfl hq
    · exact absurd rfl hq
  | send s =>
    obtain ⟨init, n, hpath⟩ := s.path_eq py site
    have hends : EndsInside site (.send s) (s.path py site) := by
      by_cases hm : s.makesParent
      · exact .inl ((inside_of_makesParent hm).mp h _ crosses_end)
      · exact (inside_of_not_makesParent hm).mp h
    -- the directories that are made are on the way to the file
    have hmade : (disk.mkdirsAlong sys.accepts [] (s.dirPath py site)).node q ≠ disk.node q →
        InPlace site (.send s) q := by
      intro hne
      obtain ⟨-, -, hpass⟩ := (Fs.node_mkdirsAlong _ _ _ _ q).resolve_left hne
      by_cases hm : s.makesParent
      · refine (inside_of_makesParent hm).mp h q ?_
        have := Sent.crosses_dirPath hpass
        rw [hpath, List.dropLast_concat] at this
        rw [hpath]
        exact crosses_concat.mpr (.inl this)
      · rw [Sent.dirPath, if_neg hm, crosses_hopsTo] at hpass
        exact .inl hpass
    simp only [Act.run, Sent.write] at hq
    split_ifs at hq
    · by_cases hwrite : (disk.mkdirsAlong sys.accepts [] (s.dirPath py site)).node q = disk.node q
      · rw [← hwrite] at hq
        rw [hpath] at hends hq
        exact hends.inPlace hq
      · exact hmade hwrite
    · exact hmade hq
    · exact absurd rfl hq

/-- A system that takes every name. -/
def openSystem : System where
  encodes _ := true
  accepts _ := true

theorem takes_openSystem (path : List (Hop Text)) : openSystem.takes path := by
  refine List.all_eq_true.mpr fun hop _ => ?_
  cases hop <;> rfl

/-- **Only what ends inside is contained**: else there is a disk on which the file can be
opened. -/
theorem Contained.endsInside {a : Act} {init : List (Hop Text)} {n : Text}
    (h : Contained py site a)
    (hrun : ∀ disk : Disk, Fs.Writable openSystem.accepts disk [] init n →
      disk.node (n :: place [] init) = none → ∃ c,
        a.run py site openSystem disk = disk.put (n :: place [] init) (.file c)) :
    EndsInside site a (init ++ [.down n]) := by
  by_contra hnot
  rw [EndsInside, List.dropLast_concat, place_concat, not_or] at hnot
  obtain ⟨disk, hw, hnone⟩ :=
    Fs.exists_writable (α := Content) (show ∀ n, openSystem.accepts n from fun _ => rfl) hnot.2
  obtain ⟨c, hc⟩ := hrun disk hw hnone
  refine hnot.1 (h openSystem disk _ ?_)
  rw [hc, Fs.node_put_self (List.cons_ne_nil n _), hnone]
  exact Option.some_ne_none _

theorem Sent.write_of_writable {s : Sent} {init : List (Hop Text)} {n : Text}
    (hpath : s.path py site = init ++ [.down n])
    (hw : Fs.Writable openSystem.accepts disk [] init n) : s.write py site openSystem disk =
      (disk.put (n :: place [] init) (.file (s.content py)), some (n :: place [] init)) := by
  have hmade : disk.mkdirsAlong openSystem.accepts [] (s.dirPath py site) = disk := by
    refine Fs.mkdirsAlong_eq_self fun q hq => hw.dirs q ?_
    have := Sent.crosses_dirPath hq
    rwa [hpath, List.dropLast_concat] at this
  rw [Sent.write, if_pos (takes_openSystem _), if_pos (takes_openSystem _), hmade, hpath,
    Fs.writeAt_of_writable hw]

/-- Where nothing is, all directories on the way are made. -/
theorem Sent.node_write_of_crosses {s : Sent} (hm : s.makesParent) {q : Place Text}
    (hq : Crosses [] (s.path py site).dropLast q) :
    (s.write py site openSystem ⟨∅⟩).1.node q ≠ none := by
  obtain ⟨init, n, hpath⟩ := s.path_eq py site
  have hdir : (Fs.mkdirsAlong openSystem.accepts (⟨∅⟩ : Disk) [] (s.dirPath py site)).isDir q := by
    rw [Sent.dirPath, if_pos hm]
    exact Fs.bare_empty.isDir_of_crosses rfl (fun _ => rfl) hq
  rw [Sent.write, if_pos (takes_openSystem _), if_pos (takes_openSystem _), hpath]
  by_cases hend : q = n :: place [] (hopsTo site.active ++ init)
  · have hnot : ¬Fs.Writable openSystem.accepts
        (Fs.mkdirsAlong openSystem.accepts (⟨∅⟩ : Disk) [] (s.dirPath py site)) []
        (hopsTo site.active ++ init) n := fun hw => by
      rw [hend, hw.free] at hdir
      exact absurd hdir (by simp)
    rw [Fs.writeAt_of_not_writable hnot]
    intro hnone
    rw [Fs.isDir, hnone] at hdir
    exact absurd hdir (by simp)
  · rw [Fs.node_writeAt_of_ne hend]
    intro hnone
    rw [Fs.isDir, hnone] at hdir
    exact absurd hdir (by simp)

/-- **Which acts are contained**: those whose paths keep to their directory. -/
theorem contained_iff (py : Python) (site : Site) (a : Act) :
    Contained py site a ↔ Inside py site a := by
  refine ⟨fun h => ?_, Inside.contained⟩
  cases a with
  | sync p =>
    refine h.endsInside fun disk hw hnone => ⟨.text p.text, ?_⟩
    have hread : disk.read (place [] (p.path site)) = none := by
      rw [PmSync.path, place_concat, Fs.read, hnone]
      rfl
    simp only [Act.run, PmSync.write, hread, takes_openSystem, if_true]
    rw [PmSync.path, Fs.writeAt_of_writable hw]
  | send s =>
    obtain ⟨init, n, hpath⟩ := s.path_eq py site
    have hends : EndsInside site (.send s) (s.path py site) := by
      rw [hpath]
      refine h.endsInside fun disk hw _ => ?_
      exact ⟨s.content py, by rw [Act.run, Sent.write_of_writable hpath hw]⟩
    by_cases hm : s.makesParent
    · refine (inside_of_makesParent hm).mpr fun q hq => ?_
      have hway : ∀ q, Crosses [] (s.path py site).dropLast q → InPlace site (.send s) q := by
        intro q hq
        rcases eq_or_ne q [] with rfl | hne
        · exact .inl List.nil_suffix
        · refine h openSystem ⟨∅⟩ q ?_
          have hnone : (⟨∅⟩ : Disk).node q = none := by simp [Fs.node, hne]
          rw [hnone]
          exact Sent.node_write_of_crosses hm hq
      rw [hpath, crosses_concat, ← hpath] at hq
      rcases hq with hq | rfl
      · refine hway q ?_
        rwa [hpath, List.dropLast_concat]
      · exact hends.elim id (hway _)
    · exact (inside_of_not_makesParent hm).mpr hends

/-! ### Names without a separator -/

/-- A name without a separator is one hop. -/
theorem Sent.path_of_no_separator (site : Site) {s : Sent} (h : '/'.toNat ∉ (s.file py).name) :
    s.path py site = hopsTo site.active ++ [.down (s.file py).name] := by
  obtain ⟨t, ht⟩ := s.name_eq py
  obtain ⟨init, n, hconcat⟩ := Inbox.hops_md t
  rw [← ht, Inbox.hops_of_single h] at hconcat
  rw [Sent.path, Inbox.hops_of_single h]
  rcases hhop : Inbox.toHop (s.file py).name with _ | hop
  · exact absurd (hhop ▸ hconcat) (by simp)
  · rw [hhop] at hconcat
    obtain ⟨-, hlast⟩ := (List.append_eq_singleton_iff.mp hconcat.symm).resolve_right (by simp)
    unfold Inbox.toHop at hhop
    split_ifs at hhop
    · exact absurd ((Option.some.inj hhop).trans (List.singleton_inj.mp hlast).symm) (by simp)
    · rw [← Option.some.inj hhop]
      rfl

/-- **A name without a separator** is a name in the active directory. -/
theorem inside_of_no_separator {s : Sent} (h : '/'.toNat ∉ (s.file py).name) :
    Inside py site (.send s) := by
  have hpath := Sent.path_of_no_separator site h
  have hend : InPlace site (.send s) (place [] (s.path py site)) := by
    rw [hpath, place_concat, place_hopsTo]
    exact .inr ⟨_, rfl⟩
  by_cases hm : s.makesParent
  · refine (inside_of_makesParent hm).mpr fun q hq => ?_
    rw [hpath, crosses_concat, crosses_hopsTo, ← hpath] at hq
    rcases hq with hq | rfl
    · exact .inl hq
    · exact hend
  · exact (inside_of_not_makesParent hm).mpr (.inl hend)

/-- **Every approval is contained**: nothing of the message is in its name. -/
theorem contained_approval (m : BusMessage) (i : Instant) (responder comment : Text) :
    Contained py site (.send (.written (.decision m i responder comment .approved))) :=
  Inside.contained (inside_of_no_separator (no_separator_approval py m i responder comment))

/-! ### A review that is asked for elsewhere -/

/-- The request for a review that `handle_bus_event` makes of a message: it is for the
sender. -/
def reviewOf (py : Python) (m : BusMessage) (thisAgent agentId dedup : Text) : ReviewRequest where
  fromAgent := thisAgent
  humanId := m.field py "from" "human"
  sessionId := dedup
  agentId := agentId
  changeId := py.text (((m.get "change").filter Value.truthy).getD
    ((m.get "id").getD (.str m.stem)))
  messageName := m.stem ++ lit ".md"

/-- The directories of a project. -/
def someSite : Site where
  active := ["active", "bus", ".agents", "project"].map lit
  changes := ["changes", "openspec", "project"].map lit

/-- A task from a sender with a path for a name. -/
def climbingTask : BusMessage where
  stem := lit "task"
  frontmatter := [(.str (lit "type"), .str (lit "task-assignment")),
    (.str (lit "from"), .str (lit "x/../../../../notes")), (.str (lit "to"), .str (lit "infra"))]
  body := []

/-- **A message makes the bridge write elsewhere**: the review is asked for next to
`.agents`. -/
theorem not_contained : ¬∀ (py : Python) (site : Site) (m : BusMessage)
    (thisAgent agentId dedup : Text) (ts prefixed : Instant),
    Contained py site (.send (.review ts prefixed (reviewOf py m thisAgent agentId dedup))) := by
  intro h
  have hmade : ((Act.run plainPython someSite openSystem ⟨∅⟩ (.send (.review ⟨0, 0⟩ ⟨0, 0⟩
      (reviewOf plainPython climbingTask (lit "bridge-agent") (lit "infra")
        (lit "0123abcd"))))).node [lit "notes-review-0123abcd.md", lit "project"]).isSome := by
    decide +kernel
  have hempty : ((⟨∅⟩ : Disk).node [lit "notes-review-0123abcd.md", lit "project"]) = none := by
    simp [Fs.node]
  rcases h plainPython someSite climbingTask (lit "bridge-agent") (lit "infra") (lit "0123abcd")
    ⟨0, 0⟩ ⟨0, 0⟩ openSystem ⟨∅⟩ [lit "notes-review-0123abcd.md", lit "project"]
    (fun heq => by simp [heq, hempty] at hmade) with hsuffix | ⟨n, hn⟩
  · exact absurd hsuffix (by decide)
  · have hlength := congrArg List.length hn
    exact absurd hlength (by simp [someSite])

end Bus

end OtamanBridge
