import Mathlib.Data.List.Induction
import OtamanBridge.Lib.FileSystem

/-!
# Writing the file a path names

What a program does that opens a path for writing, with or without making the directories
on the way first. The path is followed hop by hop, so which places it crosses depends
on its hops alone (`OtamanBridge.Posix.Crosses`), and whether it can be written depends on
what is there (`OtamanBridge.Posix.Fs.Writable`). Conversely, unless a path crosses
its own end, there is a tree of directories on which it can be written
(`OtamanBridge.Posix.Fs.exists_writable`): what keeps a program inside a directory has to
be in its paths.
-/

namespace OtamanBridge

namespace Posix

variable {ν α : Type*}

/-! ### The places of a path -/

/-- Where a path leads from a place. -/
def place (p : Place ν) (hops : List (Hop ν)) : Place ν := hops.foldl (fun p hop => hop.go p) p

/-- **A path crosses a place**, its start and its end included. -/
def Crosses (p : Place ν) (hops : List (Hop ν)) (q : Place ν) : Prop :=
  ∃ pre, pre <+: hops ∧ place p pre = q

/-- The path from the root directory to a place. -/
def hopsTo (p : Place ν) : List (Hop ν) := p.reverse.map .down

variable {p q : Place ν} {hops hops' init : List (Hop ν)} {hop : Hop ν}

theorem place_append (p : Place ν) (hops hops' : List (Hop ν)) :
    place p (hops ++ hops') = place (place p hops) hops' := List.foldl_append

theorem place_hopsTo (p : Place ν) : place [] (hopsTo p) = p := by
  induction p with
  | nil => rfl
  | cons n p ih =>
    rw [hopsTo, List.reverse_cons, List.map_append, place_append, ← hopsTo, ih]
    rfl

theorem crosses_nil : Crosses p [] q ↔ p = q := by
  constructor
  · rintro ⟨pre, hpre, rfl⟩
    obtain rfl := List.prefix_nil.mp hpre
    rfl
  · rintro rfl
    exact ⟨[], List.prefix_refl _, rfl⟩

theorem crosses_cons : Crosses p (hop :: hops) q ↔ p = q ∨ Crosses (hop.go p) hops q := by
  constructor
  · rintro ⟨pre, hpre, rfl⟩
    cases pre with
    | nil => exact .inl rfl
    | cons hop' pre =>
      obtain ⟨rfl, hpre'⟩ := List.cons_prefix_cons.mp hpre
      exact .inr ⟨pre, hpre', rfl⟩
  · rintro (rfl | ⟨pre, hpre, rfl⟩)
    · exact ⟨[], List.nil_prefix, rfl⟩
    · exact ⟨hop :: pre, List.cons_prefix_cons.mpr ⟨rfl, hpre⟩, rfl⟩

theorem crosses_start : Crosses p hops p := ⟨[], List.nil_prefix, rfl⟩

theorem crosses_end : Crosses p hops (place p hops) := ⟨hops, List.prefix_refl _, rfl⟩

theorem crosses_append : Crosses p (hops ++ hops') q ↔
    Crosses p hops q ∨ Crosses (place p hops) hops' q := by
  induction hops generalizing p with
  | nil =>
    rw [List.nil_append, crosses_nil]
    refine ⟨.inr, fun h => h.elim (fun h => ?_) id⟩
    exact h ▸ crosses_start
  | cons hop hops ih => rw [List.cons_append, crosses_cons, crosses_cons, ih, or_assoc]; rfl

theorem crosses_concat : Crosses p (init ++ [hop]) q ↔
    Crosses p init q ∨ place p (init ++ [hop]) = q := by
  rw [crosses_append, crosses_cons, crosses_nil, place_append]
  refine ⟨?_, Or.imp_right .inr⟩
  rintro (h | rfl | h)
  · exact .inl h
  · exact .inl crosses_end
  · exact .inr h

theorem place_concat (p : Place ν) (init : List (Hop ν)) (n : ν) :
    place p (init ++ [.down n]) = n :: place p init := place_append ..

/-- The path to a place crosses the directories above it. -/
theorem crosses_hopsTo : Crosses [] (hopsTo p) q ↔ q <:+ p := by
  induction p with
  | nil => rw [hopsTo, List.reverse_nil, List.map_nil, crosses_nil, List.suffix_nil, eq_comm]
  | cons n p ih =>
    have hsplit : hopsTo (n :: p) = hopsTo p ++ [.down n] := by simp [hopsTo]
    rw [hsplit, crosses_concat, ih, ← hsplit, place_hopsTo, List.suffix_cons_iff, or_comm, eq_comm]

namespace Fs

variable [DecidableEq ν] {fs fs' : Fs ν α} {accepts : ν → Bool} {a : α}

/-! ### Following a path -/

/-- A path can be followed if every place it leaves is a directory. -/
theorem walk_eq_some_iff : fs.walk p hops = some q ↔
    q = place p hops ∧ ∀ pre hop, pre ++ [hop] <+: hops → fs.isDir (place p pre) := by
  induction hops generalizing p with
  | nil =>
    constructor
    · intro h
      refine ⟨(Option.some.inj h).symm, fun pre hop hpre => ?_⟩
      exact absurd (List.prefix_nil.mp hpre) (by simp)
    · rintro ⟨rfl, -⟩
      rfl
  | cons hop hops ih =>
    unfold walk
    constructor
    · intro h
      split_ifs at h with hp
      obtain ⟨hq, hdirs⟩ := ih.mp h
      refine ⟨hq, fun pre hop' hpre => ?_⟩
      cases pre with
      | nil => exact hp
      | cons hop₂ pre =>
        obtain ⟨rfl, hpre'⟩ := List.cons_prefix_cons.mp hpre
        exact hdirs pre hop' hpre'
    · rintro ⟨hq, hdirs⟩
      have hp : fs.isDir p := hdirs [] hop (by simp)
      rw [if_pos hp]
      refine ih.mpr ⟨hq, fun pre hop' hpre => ?_⟩
      exact hdirs (hop :: pre) hop' (List.cons_prefix_cons.mpr ⟨rfl, hpre⟩)

/-- It leads to a directory if all it crosses are directories. -/
theorem walk_and_isDir_iff : (∃ q, fs.walk p hops = some q ∧ fs.isDir q) ↔
    ∀ q, Crosses p hops q → fs.isDir q := by
  simp only [walk_eq_some_iff]
  constructor
  · rintro ⟨_, ⟨rfl, hdirs⟩, hend⟩ q ⟨pre, ⟨rest, rfl⟩, rfl⟩
    cases rest with
    | nil => rwa [List.append_nil] at hend
    | cons hop rest => exact hdirs pre hop ⟨rest, by simp⟩
  · intro h
    refine ⟨_, ⟨rfl, fun pre hop hpre => ?_⟩, h _ crosses_end⟩
    exact h _ ⟨pre, (List.prefix_append pre [hop]).trans hpre, rfl⟩

/-! ### Writing -/

/-- `open` for writing, of the file a path names, and the write: the file system after it,
and the place of the file. -/
def writeAt (accepts : ν → Bool) (fs : Fs ν α) (p : Place ν) (hops : List (Hop ν)) (a : α) :
    Fs ν α × Option (Place ν) :=
  match hops.getLast? with
  | some (.down n) =>
    match fs.walk p hops.dropLast with
    | some q =>
      if fs.isDir q && !fs.isDir (n :: q) && ((fs.node (n :: q)).isSome || accepts n) then
        (fs.put (n :: q) (.file a), some (n :: q))
      else (fs, none)
    | none => (fs, none)
  | _ => (fs, none)

/-- **A path can be written**: it ends with a name, all it crosses before are
directories, and there is no directory of that name but a file, or a name that the system
takes. -/
structure Writable (accepts : ν → Bool) (fs : Fs ν α) (p : Place ν) (init : List (Hop ν)) (n : ν) :
    Prop where
  dirs : ∀ q, Crosses p init q → fs.isDir q
  free : fs.isDir (n :: place p init) = false
  takes : (fs.node (n :: place p init)).isSome ∨ accepts n

theorem writeAt_of_writable {n : ν} (h : Writable accepts fs p init n) :
    fs.writeAt accepts p (init ++ [.down n]) a =
      (fs.put (n :: place p init) (.file a), some (n :: place p init)) := by
  obtain ⟨q, hwalk, hdir⟩ := walk_and_isDir_iff.mpr h.dirs
  obtain rfl := (walk_eq_some_iff.mp hwalk).1
  have hok : (fs.isDir (place p init) && !fs.isDir (n :: place p init) &&
      ((fs.node (n :: place p init)).isSome || accepts n)) = true := by
    simpa [hdir, h.free] using h.takes
  rw [writeAt, List.getLast?_append_of_ne_nil _ (by simp), List.dropLast_concat]
  simp only [List.getLast?_singleton, hwalk, hok, if_true]

theorem writeAt_of_not_writable {n : ν} (h : ¬Writable accepts fs p init n) :
    fs.writeAt accepts p (init ++ [.down n]) a = (fs, none) := by
  rw [writeAt, List.getLast?_append_of_ne_nil _ (by simp), List.dropLast_concat]
  simp only [List.getLast?_singleton]
  split
  next q hwalk =>
    split_ifs with hok
    · simp only [Bool.and_eq_true, Bool.not_eq_true', Bool.or_eq_true] at hok
      refine absurd ⟨walk_and_isDir_iff.mp ⟨q, hwalk, hok.1.1⟩, ?_, ?_⟩ h
      · rw [← (walk_eq_some_iff.mp hwalk).1]
        exact hok.1.2
      · rw [← (walk_eq_some_iff.mp hwalk).1]
        exact hok.2
    · rfl
  · rfl

/-- Writing the file a path names changes nothing but this file. -/
theorem node_writeAt_of_ne {n : ν} (h : q ≠ n :: place p init) :
    (fs.writeAt accepts p (init ++ [.down n]) a).1.node q = fs.node q := by
  by_cases hw : Writable accepts fs p init n
  · rw [writeAt_of_writable hw]
    exact node_put_of_ne h
  · rw [writeAt_of_not_writable hw]

/-! ### Making directories on the way -/

/-- `mkdir` with parents, of the directory a path names: hop by hop, up to the first place
that is no directory and cannot be made one. -/
def mkdirsAlong (accepts : ν → Bool) (fs : Fs ν α) (p : Place ν) : List (Hop ν) → Fs ν α
  | [] => fs
  | hop :: hops =>
    if fs.isDir (hop.go p) then fs.mkdirsAlong accepts (hop.go p) hops
    else match hop with
      | .up => fs
      | .down n =>
        if (fs.node (n :: p)).isNone && accepts n then
          (fs.put (n :: p) .dir).mkdirsAlong accepts (n :: p) hops
        else fs

/-- What there is afterwards: what was there, and directories the path crosses. -/
theorem node_mkdirsAlong (fs : Fs ν α) (accepts : ν → Bool) (p : Place ν) (hops : List (Hop ν))
    (q : Place ν) :
    (fs.mkdirsAlong accepts p hops).node q = fs.node q ∨ (fs.node q = none ∧
      (fs.mkdirsAlong accepts p hops).node q = some .dir ∧ Crosses p hops q) := by
  induction hops generalizing fs p with
  | nil => exact .inl rfl
  | cons hop hops ih =>
    have hlift : ∀ {q}, Crosses (hop.go p) hops q → Crosses p (hop :: hops) q := fun h =>
      crosses_cons.mpr (.inr h)
    unfold mkdirsAlong
    split_ifs
    · exact (ih fs (hop.go p)).imp_right fun h => ⟨h.1, h.2.1, hlift h.2.2⟩
    · cases hop with
      | up => exact .inl rfl
      | down n =>
        simp only
        split_ifs with hnew
        · simp only [Bool.and_eq_true, Option.isNone_iff_eq_none] at hnew
          have hput : (fs.put (n :: p) .dir).node (n :: p) = some .dir :=
            node_put_self (List.cons_ne_nil n p)
          rcases eq_or_ne q (n :: p) with rfl | hne
          · refine .inr ⟨hnew.1, ?_, hlift crosses_start⟩
            rcases ih (fs.put (n :: p) .dir) (n :: p) with h | h
            · rw [h, hput]
            · exact h.2.1
          · have := ih (fs.put (n :: p) .dir) (n :: p)
            rw [node_put_of_ne hne] at this
            exact this.imp_right fun h => ⟨h.1, h.2.1, hlift h.2.2⟩
        · exact .inl rfl

/-- Making directories changes no file. -/
theorem read_mkdirsAlong (fs : Fs ν α) (accepts : ν → Bool) (p : Place ν) (hops : List (Hop ν))
    (q : Place ν) :
    (fs.mkdirsAlong accepts p hops).read q = fs.read q := by
  rcases node_mkdirsAlong fs accepts p hops q with h | h
  · exact read_congr h
  · rw [read, read, h.1, h.2.1]
    rfl

theorem isDir_mkdirsAlong (h : fs.isDir q) : (fs.mkdirsAlong accepts p hops).isDir q := by
  rcases node_mkdirsAlong fs accepts p hops q with h' | h'
  · rwa [isDir_congr h']
  · rw [isDir, h'.2.1]
    rfl

/-- Where all directories are there, none is made. -/
theorem mkdirsAlong_eq_self (h : ∀ q, Crosses p hops q → fs.isDir q) :
    fs.mkdirsAlong accepts p hops = fs := by
  induction hops generalizing p with
  | nil => rfl
  | cons hop hops ih =>
    have hrest : ∀ q, Crosses (hop.go p) hops q → fs.isDir q := fun q hq =>
      h q (crosses_cons.mpr (.inr hq))
    unfold mkdirsAlong
    rw [if_pos (hrest _ crosses_start), ih hrest]

/-! ### A tree made for a path -/

/-- A file system of directories, each of them in one. -/
def Bare (fs : Fs ν α) : Prop := ∀ q, fs.node q = none ∨ (fs.isDir q ∧ fs.isDir q.tail)

theorem bare_empty : Bare (⟨∅⟩ : Fs ν α) := by
  intro q
  rcases eq_or_ne q [] with rfl | hq
  · exact .inr ⟨rfl, rfl⟩
  · exact .inl (by simp [node, hq])

theorem Bare.put (h : Bare fs) {n : ν} (hp : fs.isDir p) : Bare (fs.put (n :: p) .dir) := by
  have hdir : ∀ q, fs.isDir q → (fs.put (n :: p) .dir).isDir q := fun q hq => by
    rcases eq_or_ne q (n :: p) with rfl | hne
    · rw [isDir, node_put_self (List.cons_ne_nil n p)]
      rfl
    · rwa [isDir_congr (node_put_of_ne hne)]
  intro q
  rcases eq_or_ne q (n :: p) with rfl | hne
  · refine .inr ⟨?_, hdir p hp⟩
    rw [isDir, node_put_self (List.cons_ne_nil n p)]
    rfl
  · rw [node_put_of_ne hne]
    exact (h q).imp_right fun h => ⟨hdir q h.1, hdir _ h.2⟩

/-- **Where nothing stands in the way**, all the places a path crosses become
directories. -/
theorem Bare.isDir_of_crosses (h : Bare fs) (hp : fs.isDir p) (hall : ∀ n, accepts n)
    (hq : Crosses p hops q) : (fs.mkdirsAlong accepts p hops).isDir q := by
  induction hops generalizing fs p with
  | nil =>
    obtain rfl := crosses_nil.mp hq
    exact hp
  | cons hop hops ih =>
    rcases crosses_cons.mp hq with rfl | hq'
    · exact isDir_mkdirsAlong hp
    · unfold mkdirsAlong
      split_ifs with hdir
      · exact ih h hdir hq'
      · cases hop with
        | up =>
          rcases h p with hnone | hboth
          · exact absurd hp (by simp [isDir, hnone])
          · exact absurd hboth.2 hdir
        | down n =>
          have hnone : fs.node (n :: p) = none := (h (n :: p)).resolve_right fun h => hdir h.1
          have hput : (fs.put (n :: p) .dir).isDir (n :: p) := by
            rw [isDir, node_put_self (List.cons_ne_nil n p)]
            rfl
          simp only [hnone, hall n, Option.isNone_none, Bool.and_self, if_true]
          exact ih (h.put hp) hput hq'

/-- **A path that does not cross its own end can be written** on some tree of
directories, on which there is nothing at its end yet. -/
theorem exists_writable {n : ν} (hall : ∀ n, accepts n)
    (h : ¬Crosses [] init (n :: place [] init)) :
    ∃ fs : Fs ν α, Writable accepts fs [] init n ∧ fs.node (n :: place [] init) = none := by
  have hnone : ((⟨∅⟩ : Fs ν α).mkdirsAlong accepts [] init).node (n :: place [] init) = none := by
    rcases node_mkdirsAlong (⟨∅⟩ : Fs ν α) accepts [] init (n :: place [] init) with heq | hmade
    · rw [heq]
      simp [node]
    · exact absurd hmade.2.2 h
  refine ⟨_, ⟨fun q hq => bare_empty.isDir_of_crosses rfl hall hq, ?_, .inr (hall n)⟩, hnone⟩
  rw [isDir, hnone]
  rfl

end Fs

end Posix

end OtamanBridge
