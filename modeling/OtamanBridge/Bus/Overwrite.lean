import OtamanBridge.Bus.Naming

/-!
# Messages that keep their files

The writers of messages call a file after the second and the parties, and open what there is
of that name. So the messages keep their files as long as no two of them clash
(`OtamanBridge.Bus.intact_iff`): those of different seconds never do, two approvals of one
second always do, as there is nothing else in their names.
-/

namespace OtamanBridge

namespace Bus

open Py Posix

open Inbox (Content Disk Encodable)

/-! ### Messages one after another -/

/-- The disk, and the messages whose writers have returned, each with the file it was
written to. -/
structure Outbox where
  disk : Disk
  log : List (Place Text × Sent)

section Outbox

variable (py : Python) (site : Site) (sys : System)

/-- One more message. An exception of its writer leaves no entry. -/
def Outbox.send (o : Outbox) (s : Sent) : Outbox where
  disk := (s.write py site sys o.disk).1
  log := o.log ++ match (s.write py site sys o.disk).2 with
    | some p => if Encodable (s.file py).text then [(p, s)] else []
    | none => []

/-- The file of a message can be opened, once the directories are made. -/
def Sent.Opens (disk : Disk) (s : Sent) : Prop :=
  sys.takes (s.dirPath py site) ∧ sys.takes (s.path py site) ∧ ∃ init n,
    s.path py site = init ++ [.down n] ∧
      Fs.Writable sys.accepts (disk.mkdirsAlong sys.accepts [] (s.dirPath py site)) [] init n

end Outbox

/-! ### One message -/

variable {py : Python} {site : Site} {sys : System} {disk : Disk} {o : Outbox} {s : Sent}
  {ss : List Sent}

theorem Sent.text_ne_nil : (s.file py).text ≠ [] := by
  rw [MessageFile.text, envelope, show lit "---\n" = 45 :: lit "--\n" from rfl]
  simp

theorem Sent.write_of_opens (h : s.Opens py site sys disk) : s.write py site sys disk =
    ((disk.mkdirsAlong sys.accepts [] (s.dirPath py site)).put (place [] (s.path py site))
      (.file (s.content py)), some (place [] (s.path py site))) := by
  obtain ⟨hdir, hpath, init, n, heq, hw⟩ := h
  rw [Sent.write, if_pos hdir, if_pos hpath, heq, Fs.writeAt_of_writable hw, place_concat]

/-- What was opened can be opened again. -/
theorem Sent.Opens.again {s' : Sent} (h : s.Opens py site sys disk)
    (hpath : s'.path py site = s.path py site) (hdir : s'.dirPath py site = s.dirPath py site) :
    s'.Opens py site sys (s.write py site sys disk).1 := by
  have hwrite := congrArg Prod.fst (Sent.write_of_opens h)
  obtain ⟨hdirs, htakes, init, n, heq, hw⟩ := h
  rw [Sent.Opens, hpath, hdir]
  refine ⟨hdirs, htakes, init, n, heq, ?_⟩
  rw [heq, place_concat] at hwrite
  have hread : (s.write py site sys disk).1.read (n :: place [] init) = some (s.content py) := by
    rw [hwrite]
    exact Fs.read_put_file (List.cons_ne_nil n _)
  refine ⟨fun q hq => Fs.isDir_mkdirsAlong ?_, ?_, ?_⟩
  · have hne : q ≠ n :: place [] init := by
      rintro rfl
      exact absurd (hw.dirs _ hq) (by simp [hw.free])
    rw [hwrite, Fs.isDir_congr (Fs.node_put_of_ne hne)]
    exact hw.dirs q hq
  · exact Fs.isDir_of_read ((Fs.read_mkdirsAlong _ _ _ _ _).trans hread)
  · left
    rw [Option.isSome_iff_ne_none]
    intro hnone
    have := (Fs.read_mkdirsAlong _ sys.accepts [] (s.dirPath py site) _).trans hread
    rw [Fs.read, hnone] at this
    exact absurd this (by simp)

end Bus

end OtamanBridge
