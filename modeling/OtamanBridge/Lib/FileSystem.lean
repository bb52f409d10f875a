import Mathlib.Data.List.AList

/-!
# A file system without links

Directories and files in one tree, as a program that opens paths sees them. An entry
stands at a **place**: its name, the name of its directory, and so on up to the root
directory, which is the empty place. A path is a list of **hops** from some directory,
down to an entry or up to the parent; the system follows it hop by hop, and every place
it passes has to be a directory (`OtamanBridge.Posix.Fs.walk`). So a path with hops up in
it may end anywhere in the tree, and where it ends depends on the directories alone
(`OtamanBridge.Posix.Fs.walk_congr`).

Names and contents are arbitrary types. Which names the system takes is a parameter of
the operations that make entries.
-/

namespace OtamanBridge

namespace Posix

variable {ν α : Type*}

/-- A place in the tree: the names from the entry up to the root directory. -/
abbrev Place (ν : Type*) := List ν

/-- What stands at a place. -/
inductive Node (α : Type*)
  | dir
  | file (content : α)

/-- Whether a node is a directory. -/
def Node.isDir : Node α → Bool
  | .dir => true
  | .file _ => false

/-- The content of a file. -/
def Node.content : Node α → Option α
  | .dir => none
  | .file a => some a

/-- A component of a path. -/
inductive Hop (ν : Type*)
  | up
  | down (name : ν)

/-- Where a hop leads from a directory. The parent of the root directory is itself. -/
def Hop.go : Hop ν → Place ν → Place ν
  | .up, p => p.tail
  | .down n, p => n :: p

/-- A file system: what stands at which place. -/
structure Fs (ν α : Type*) where
  entries : AList fun _ : Place ν => Node α

namespace Fs

variable [DecidableEq ν]

/-- What stands at a place. -/
def node (fs : Fs ν α) (p : Place ν) : Option (Node α) :=
  if p = [] then some .dir else fs.entries.lookup p

/-- `is_dir`. -/
def isDir (fs : Fs ν α) (p : Place ν) : Bool := (fs.node p).any Node.isDir

/-- The content of the file at a place, if there is one. -/
def read (fs : Fs ν α) (p : Place ν) : Option α := (fs.node p).bind Node.content

/-- The name a place has in a directory, if it is an entry of it. -/
def nameIn (p : Place ν) : Place ν → Option ν
  | [] => none
  | n :: q => if q = p then some n else none

/-- The names in a directory, in the order the system keeps them. -/
def names (fs : Fs ν α) (p : Place ν) : List ν := fs.entries.keys.filterMap (nameIn p)

/-- Follow a path from a place. -/
def walk (fs : Fs ν α) : Place ν → List (Hop ν) → Option (Place ν)
  | p, [] => some p
  | p, h :: hs => if fs.isDir p then fs.walk (h.go p) hs else none

/-- Let a node stand at a place. -/
def put (fs : Fs ν α) (p : Place ν) (x : Node α) : Fs ν α := ⟨fs.entries.insert p x⟩

/-- Let nothing stand at a place. -/
def erase (fs : Fs ν α) (p : Place ν) : Fs ν α := ⟨fs.entries.erase p⟩

/-- `mkdir` with parents, which may be there already. -/
def mkdirs (accepts : ν → Bool) (fs : Fs ν α) : Place ν → Option (Fs ν α)
  | [] => some fs
  | n :: p =>
    match fs.node (n :: p) with
    | some .dir => some fs
    | some (.file _) => none
    | none => if accepts n then (mkdirs accepts fs p).map (·.put (n :: p) .dir) else none

/-- What `open` with `O_CREAT | O_EXCL` comes to. -/
inductive Opening (ν : Type*)
  /-- A new file, at this place. -/
  | made (p : Place ν)
  /-- There is an entry of that name. -/
  | taken
  /-- There is no directory to make it in, or the name is not one the system takes. -/
  | failed

/-- `open` with `O_CREAT | O_EXCL`, of the entry `n` of the directory a path leads to. -/
def openNew (accepts : ν → Bool) (fs : Fs ν α) (p : Place ν) (hops : List (Hop ν)) (n : ν) :
    Opening ν :=
  match fs.walk p hops with
  | none => .failed
  | some q =>
    if !fs.isDir q then .failed
    else if (fs.node (n :: q)).isSome then .taken
    else if accepts n then .made (n :: q)
    else .failed

/-! ### Writing to one place -/

variable {fs fs' : Fs ν α} {p q : Place ν} {x : Node α}

theorem node_put_self (hp : p ≠ []) : (fs.put p x).node p = some x := by
  simp [node, put, hp]

theorem node_put_of_ne (h : q ≠ p) : (fs.put p x).node q = fs.node q := by
  simp [node, put, AList.lookup_insert_ne h]

/-- What is put last at a place stays there. -/
theorem put_put (x' : Node α) : (fs.put p x).put p x' = fs.put p x' :=
  congrArg Fs.mk (AList.insert_insert ..)

theorem node_erase_self (hp : p ≠ []) : (fs.erase p).node p = none := by
  simp [node, erase, hp]

theorem node_erase_of_ne (h : q ≠ p) : (fs.erase p).node q = fs.node q := by
  simp [node, erase, AList.lookup_erase_ne h]

theorem read_congr (h : fs'.node p = fs.node p) : fs'.read p = fs.read p := by
  rw [read, h, read]

theorem isDir_congr (h : fs'.node p = fs.node p) : fs'.isDir p = fs.isDir p := by
  rw [isDir, h, isDir]

theorem read_put_file {a : α} (hp : p ≠ []) : (fs.put p (.file a)).read p = some a := by
  rw [read, node_put_self hp]
  rfl

/-- A place is not a directory and a file. -/
theorem isDir_of_read {a : α} (h : fs.read p = some a) : fs.isDir p = false := by
  unfold read at h
  unfold isDir
  rcases hn : fs.node p with _ | (_ | b)
  · rfl
  · simp [hn, Node.content] at h
  · rfl

theorem read_of_isDir (h : fs.isDir p = true) : fs.read p = none := by
  by_contra hne
  obtain ⟨a, ha⟩ := Option.ne_none_iff_exists'.mp hne
  simp [isDir_of_read ha] at h

theorem ne_nil_of_read {a : α} (h : fs.read p = some a) : p ≠ [] := by
  rintro rfl
  simp [read, node, Node.content] at h

/-! ### Directories -/

/-- **Where a path leads depends on the directories alone.** -/
theorem walk_congr (h : ∀ q, fs'.isDir q = fs.isDir q) (p : Place ν) (hops : List (Hop ν)) :
    fs'.walk p hops = fs.walk p hops := by
  induction hops generalizing p with
  | nil => rfl
  | cons hop hops ih => rw [walk, walk, h, ih]

/-- A new file leaves the directories as they are. -/
theorem isDir_put_file {a : α} (h : fs.isDir p = false) (q : Place ν) :
    (fs.put p (.file a)).isDir q = fs.isDir q := by
  rcases eq_or_ne q p with rfl | hne
  · rcases eq_or_ne q [] with rfl | hq
    · simp [isDir, node, Node.isDir] at h
    · rw [h, isDir, node_put_self hq]
      rfl
  · exact isDir_congr (node_put_of_ne hne)

theorem isDir_erase (h : fs.isDir p = false) (q : Place ν) :
    (fs.erase p).isDir q = fs.isDir q := by
  rcases eq_or_ne q p with rfl | hne
  · rcases eq_or_ne q [] with rfl | hq
    · simp [isDir, node, Node.isDir] at h
    · rw [h, isDir, node_erase_self hq]
      rfl
  · exact isDir_congr (node_erase_of_ne hne)

/-- Making directories changes no file. -/
theorem read_mkdirs {accepts : ν → Bool} (h : fs.mkdirs accepts p = some fs') (q : Place ν) :
    fs'.read q = fs.read q := by
  induction p generalizing fs' with
  | nil =>
    obtain rfl := Option.some.inj h
    rfl
  | cons n p ih =>
    unfold mkdirs at h
    split at h
    · obtain rfl := Option.some.inj h
      rfl
    · exact absurd h (by simp)
    next hn =>
      split_ifs at h
      obtain ⟨fs₁, h₁, rfl⟩ := Option.map_eq_some_iff.mp h
      rcases eq_or_ne q (n :: p) with rfl | hne
      · rw [read, node_put_self (List.cons_ne_nil n p), read, hn]
        rfl
      · rw [read_congr (node_put_of_ne hne), ih h₁]

/-- What there is after making directories: what was there, and the directories on the
way to the place, each of them the place itself or above it. -/
theorem node_mkdirs {accepts : ν → Bool} (h : fs.mkdirs accepts p = some fs') (q : Place ν) :
    fs'.node q = fs.node q ∨ (fs.node q = none ∧ fs'.node q = some .dir ∧ q <:+ p) := by
  induction p generalizing fs' with
  | nil =>
    obtain rfl := Option.some.inj h
    exact .inl rfl
  | cons n p ih =>
    unfold mkdirs at h
    split at h
    · obtain rfl := Option.some.inj h
      exact .inl rfl
    · exact absurd h (by simp)
    next hn =>
      split_ifs at h
      obtain ⟨fs₁, h₁, rfl⟩ := Option.map_eq_some_iff.mp h
      rcases eq_or_ne q (n :: p) with rfl | hne
      · exact .inr ⟨hn, node_put_self (List.cons_ne_nil n p), List.suffix_rfl⟩
      · rw [node_put_of_ne hne]
        refine (ih h₁).imp_right ?_
        rintro ⟨hq, hq', hsuf⟩
        exact ⟨hq, hq', hsuf.trans (List.suffix_cons n p)⟩

/-- Where a new file is made: under a free name of the directory the path leads to. -/
theorem openNew_eq_made {accepts : ν → Bool} {hops : List (Hop ν)} {n : ν}
    (h : fs.openNew accepts p hops n = .made q) :
    ∃ d, fs.walk p hops = some d ∧ fs.isDir d ∧ q = n :: d ∧ fs.node q = none := by
  unfold openNew at h
  split at h
  · exact absurd h (by simp)
  next d hd =>
    split_ifs at h with hdir htaken
    obtain rfl := (Opening.made.injEq _ _).mp h
    exact ⟨d, hd, by simpa using hdir, rfl, by simpa using htaken⟩

/-! ### Listing a directory -/

theorem filterMap_erase {β γ : Type*} [DecidableEq β] {f : β → Option γ} {b : β}
    (hb : f b = none) (l : List β) : (l.erase b).filterMap f = l.filterMap f := by
  induction l with
  | nil => rfl
  | cons c l ih =>
    rcases eq_or_ne c b with rfl | hne
    · rw [List.erase_cons_head, List.filterMap_cons_none hb]
    · rw [List.erase_cons_tail (by simpa using hne), List.filterMap_cons, List.filterMap_cons, ih]

theorem nameIn_eq_some {n : ν} : nameIn p q = some n ↔ q = n :: p := by
  rcases q with _ | ⟨m, r⟩
  · exact iff_of_false (by simp [nameIn]) (by simp)
  · rw [nameIn, List.cons.injEq]
    split_ifs with hr
    · rw [Option.some.injEq, and_iff_left hr]
    · exact iff_of_false (by simp) fun hand => hr hand.2

/-- **What a listing shows.** -/
theorem mem_names {n : ν} : n ∈ fs.names p ↔ (fs.node (n :: p)).isSome := by
  rw [names, List.mem_filterMap, node, if_neg (List.cons_ne_nil n p), AList.lookup_isSome,
    AList.mem_keys]
  simp only [nameIn_eq_some, exists_eq_right]

theorem nodup_names (fs : Fs ν α) (p : Place ν) : (fs.names p).Nodup := by
  refine List.Nodup.filterMap (fun q q' n hq hq' => ?_) fs.entries.keys_nodup
  rw [nameIn_eq_some.mp hq, nameIn_eq_some.mp hq']

/-- A file outside a directory does not show in its listing. -/
theorem names_put_of_ne (h : ∀ n, p ≠ n :: q) : (fs.put p x).names q = fs.names q := by
  have hp : nameIn q p = none := by
    cases p with
    | nil => rfl
    | cons n r => exact if_neg fun hr => h n (by rw [hr])
  rw [names, put, AList.keys_insert, List.filterMap_cons_none hp, filterMap_erase hp, names]

/-! ### File systems that agree on what is taken -/

/-- The same directories; and at these places, something stands in both or in none. -/
structure SameTaken (S : Set (Place ν)) (fs fs' : Fs ν α) : Prop where
  dirs : ∀ p, fs'.isDir p = fs.isDir p
  taken : ∀ p ∈ S, (fs'.node p).isSome = (fs.node p).isSome

variable {S : Set (Place ν)}

theorem isDir_put (hp : p ≠ []) (x : Node α) (q : Place ν) :
    (fs.put p x).isDir q = if q = p then x.isDir else fs.isDir q := by
  split_ifs with heq
  · subst heq
    simp [isDir, node_put_self hp]
  · exact isDir_congr (node_put_of_ne heq)

theorem SameTaken.put (h : SameTaken S fs fs') (hp : p ≠ []) (x : Node α) :
    SameTaken S (fs.put p x) (fs'.put p x) := by
  refine ⟨fun q => ?_, fun q hq => ?_⟩
  · rw [isDir_put hp, isDir_put hp, h.dirs]
  · rcases eq_or_ne q p with rfl | hne
    · rw [node_put_self hp, node_put_self hp]
    · rw [node_put_of_ne hne, node_put_of_ne hne, h.taken q hq]

/-- **Making directories** goes the same way on file systems that agree on the way there. -/
theorem SameTaken.mkdirs (h : SameTaken S fs fs') (accepts : ν → Bool) (p : Place ν)
    (hS : ∀ q, q <:+ p → q ∈ S) :
    Option.Rel (SameTaken S) (fs.mkdirs accepts p) (fs'.mkdirs accepts p) := by
  induction p with
  | nil => exact .some h
  | cons n p ih =>
    have hn := h.taken (n :: p) (hS _ (List.suffix_refl _))
    have hd := h.dirs (n :: p)
    have ih := ih fun q hq => hS q (hq.trans (List.suffix_cons n p))
    unfold Fs.mkdirs
    unfold Fs.isDir at hd
    rcases hx : fs.node (n :: p) with _ | x <;> rcases hx' : fs'.node (n :: p) with _ | x'
    -- taken on neither: the parents decide, and then the new directory is put on both
    · simp only
      split_ifs
      · rcases hm : fs.mkdirs accepts p with _ | fs₁ <;>
          rcases hm' : fs'.mkdirs accepts p with _ | fs₁'
        · exact .none
        · rw [hm, hm'] at ih
          cases ih
        · rw [hm, hm'] at ih
          cases ih
        · rw [hm, hm'] at ih
          cases ih with
          | some ih => exact .some (ih.put (List.cons_ne_nil n p) _)
      · exact .none
    · simp [hx, hx'] at hn
    · simp [hx, hx'] at hn
    -- taken on both: directories on both, or something in the way on both
    · have hd : x'.isDir = x.isDir := by simpa [hx, hx'] using hd
      cases x <;> cases x'
      · exact .some h
      · cases hd
      · cases hd
      · exact .none

/-- **Opening a new file** comes to the same on file systems that agree on its place. -/
theorem SameTaken.openNew (h : SameTaken S fs fs') (accepts : ν → Bool) {hops : List (Hop ν)}
    {n : ν} (hS : ∀ q, fs.walk p hops = some q → fs.isDir q → n :: q ∈ S) :
    fs'.openNew accepts p hops n = fs.openNew accepts p hops n := by
  unfold Fs.openNew
  rw [walk_congr h.dirs]
  rcases hw : fs.walk p hops with _ | q
  · rfl
  · simp only [h.dirs]
    by_cases hdir : fs.isDir q
    · rw [h.taken _ (hS q hw hdir)]
    · rw [Bool.not_eq_true] at hdir
      simp [hdir]

end Fs

end Posix

end OtamanBridge
