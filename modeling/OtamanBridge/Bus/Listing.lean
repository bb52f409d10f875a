import Mathlib.Data.List.Sort
import OtamanBridge.Bus.Envelope
import OtamanBridge.Bus.Step
import OtamanBridge.Lib.Utf8

/-!
# Reading the directory

`iter_bus_messages`: every `*.md` file of `active/` is read in the order of the names, and
what does not parse is skipped. What a scan looks at, and what the bridge recovers its cards
from when it starts, is this list.

`parse_bus_file` skips a file it cannot open, a text without front matter, one that YAML
rejects, and one whose front matter is no mapping. It does not catch the exception of the
decoder, nor those that PyYAML passes on from its constructors, such as the `ValueError` for
a date that is none. So the list is what it should be exactly if no file raises one of these
(`OtamanBridge.Bus.lists_iff`), and one file that does stops the scan for all of them
(`OtamanBridge.Bus.exec_reads`).
-/

namespace OtamanBridge

namespace Bus

open Py

/-! ### The directory -/

/-- What a name of the directory leads to. -/
inductive Entry
  /-- A file with these bytes. -/
  | file (bytes : List ℕ)
  /-- Something that cannot be opened and read as a file. -/
  | unreadable

/-- What `read_text` finds there. -/
def Entry.content : Entry → Option Inbox.Content
  | .file bytes =>
    match Utf8.decode bytes with
    | some t => some (.text t)
    | none => some (.undecodable [])
  | .unreadable => none

/-- The entries of a directory: a name leads to one thing. -/
structure Directory where
  entries : List (Text × Entry)
  nodup : (entries.map Prod.fst).Nodup

/-- A name that `*.md` matches. -/
def isMessageFile (name : Text) : Bool := (lit ".md").isSuffixOf name

/-- `Path.stem` of such a name: a name that is all suffix has none. -/
def stemOfPath (name : Text) : Text := if name = lit ".md" then name else stemOf name

/-- `sorted(active.glob("*.md"))`. -/
def Directory.sorted (dir : Directory) : List (Text × Entry) :=
  (dir.entries.filter fun e => isMessageFile e.1).insertionSort fun a b => a.1 ≤ b.1

variable (py : Python)

/-- The loop over the files, by their stems and contents: the first exception ends it. -/
def parseFiles : List (Text × Option Inbox.Content) → Except Unit (List BusMessage)
  | [] => .ok []
  | (stem, content) :: files =>
    match parseBusFile py stem content with
    | .error () => .error ()
    | .ok none => parseFiles files
    | .ok (some m) => (parseFiles files).map (m :: ·)

/-- A file as the loop sees it. -/
def Entry.toFile (e : Text × Entry) : Text × Option Inbox.Content :=
  (stemOfPath e.1, e.2.content)

/-- `iter_bus_messages`, of a directory that may not be there. -/
def iterBusMessages : Option Directory → Except Unit (List BusMessage)
  | none => .ok []
  | some dir => parseFiles py (dir.sorted.map Entry.toFile)

/-! ### What it should return -/

/-- **The file holds the message**: it is UTF-8 text whose front matter block loads to a
mapping, or to an empty value, which counts as the empty mapping. -/
def Holds (e : Text × Entry) (m : BusMessage) : Prop :=
  ∃ bytes t fm body v items, e.2 = .file bytes ∧ Utf8.decode bytes = some t ∧
    frontmatterMatch (universalNewlines t) = some (fm, body) ∧ py.safeLoad fm = .ok v ∧
    (v = .dict items ∨ v.truthy = false ∧ items = []) ∧ m = ⟨stemOfPath e.1, items, body⟩

/-- **The messages are those of the well-formed files**, one for each, in the order of the
file names. -/
def Lists (dir : Directory) (msgs : List BusMessage) : Prop :=
  ∃ files : List (Text × Entry), files.Pairwise (fun a b => a.1 < b.1) ∧
    (∀ e, e ∈ files ↔ e ∈ dir.entries ∧ isMessageFile e.1 ∧ ∃ m, Holds py e m) ∧
    List.Forall₂ (Holds py) files msgs

/-- **The reader chokes on the file**: it is no UTF-8, or PyYAML raises something else than a
`YAMLError` for its front matter. -/
def Chokes (e : Text × Entry) : Prop :=
  ∃ bytes, e.2 = .file bytes ∧ (Utf8.decode bytes = none ∨
    ∃ t fm body, Utf8.decode bytes = some t ∧
      frontmatterMatch (universalNewlines t) = some (fm, body) ∧ py.safeLoad fm = .error .other)

/-! ### One file -/

variable {py}

theorem content_of_decode {bytes : List ℕ} {t : Text} (h : Utf8.decode bytes = some t) :
    (Entry.file bytes).content = some (.text t) := by
  simp only [Entry.content, h]

theorem content_of_decode_none {bytes : List ℕ} (h : Utf8.decode bytes = none) :
    (Entry.file bytes).content = some (.undecodable []) := by
  simp only [Entry.content, h]

variable {e : Text × Entry} {m : BusMessage}

/-- A well-formed file is read as its message. -/
theorem Holds.parse (h : Holds py e m) :
    parseBusFile py (stemOfPath e.1) e.2.content = .ok (some m) := by
  obtain ⟨bytes, t, fm, body, v, items, hfile, hdecode, hmatch, hload, hv, rfl⟩ := h
  rw [hfile, content_of_decode hdecode]
  simp only [parseBusFile, hmatch, hload]
  rcases hv with rfl | ⟨hv, rfl⟩
  · by_cases htruthy : (Value.dict items).truthy
    · simp [htruthy]
    · -- an empty mapping is an empty value
      obtain rfl : items = [] := by simpa [Value.truthy] using htruthy
      rfl
  · simp [hv]

/-- A file that the reader chokes on raises. -/
theorem Chokes.parse (h : Chokes py e) :
    parseBusFile py (stemOfPath e.1) e.2.content = .error () := by
  obtain ⟨bytes, hfile, hdecode | ⟨t, fm, body, hdecode, hmatch, hload⟩⟩ := h
  · rw [hfile, content_of_decode_none hdecode]
    rfl
  · rw [hfile, content_of_decode hdecode]
    simp only [parseBusFile, hmatch, hload]

/-- Any other file is skipped. -/
theorem parse_eq_none (hchokes : ¬Chokes py e) (hholds : ∀ m, ¬Holds py e m) :
    parseBusFile py (stemOfPath e.1) e.2.content = .ok none := by
  rcases e with ⟨name, bytes | _⟩
  · rcases hdecode : Utf8.decode bytes with _ | t
    · exact absurd ⟨bytes, rfl, .inl hdecode⟩ hchokes
    rw [content_of_decode hdecode]
    rcases hmatch : frontmatterMatch (universalNewlines t) with _ | ⟨fm, body⟩
    · simp only [parseBusFile, hmatch]
    rcases hload : py.safeLoad fm with _ | v
    · rename_i error
      cases error with
      | yaml => simp only [parseBusFile, hmatch, hload]
      | other => exact absurd ⟨bytes, rfl, .inr ⟨t, fm, body, hdecode, hmatch, hload⟩⟩ hchokes
    · simp only [parseBusFile, hmatch, hload]
      by_cases hv : v.truthy
      · rw [if_pos hv]
        cases v with
        | dict items =>
          exact absurd ⟨bytes, t, fm, body, _, items, rfl, hdecode, hmatch, hload, .inl rfl, rfl⟩
            (hholds _)
        | _ => rfl
      · exact absurd ⟨bytes, t, fm, body, v, [], rfl, hdecode, hmatch, hload,
          .inr ⟨Bool.eq_false_iff.mpr hv, rfl⟩, rfl⟩ (hholds _)
  · rfl

/-- A file holds one message. -/
theorem Holds.unique {m' : BusMessage} (h : Holds py e m) (h' : Holds py e m') : m = m' :=
  Option.some.inj (Except.ok.inj (h.parse.symm.trans h'.parse))

/-! ### The list -/

open Classical in
/-- **Without a file that chokes it**, the loop returns the messages of the well-formed files. -/
theorem parseFiles_of_calm {files : List (Text × Entry)} (h : ∀ e ∈ files, ¬Chokes py e) :
    ∃ msgs, parseFiles py (files.map Entry.toFile) = .ok msgs ∧
      List.Forall₂ (Holds py) (files.filter fun e => ∃ m, Holds py e m) msgs := by
  induction files with
  | nil => exact ⟨[], rfl, .nil⟩
  | cons e files ih =>
    obtain ⟨msgs, hparse, hall⟩ := ih fun e he => h e (List.mem_cons_of_mem _ he)
    by_cases hholds : ∃ m, Holds py e m
    · obtain ⟨m, hm⟩ := hholds
      refine ⟨m :: msgs, ?_, ?_⟩
      · simp only [List.map_cons, Entry.toFile, parseFiles, hm.parse]
        rw [hparse]
        rfl
      · rw [List.filter_cons_of_pos (by simpa using ⟨m, hm⟩)]
        exact .cons hm hall
    · refine ⟨msgs, ?_, ?_⟩
      · have hnone := parse_eq_none (h e List.mem_cons_self) (not_exists.mp hholds)
        simpa only [List.map_cons, Entry.toFile, parseFiles, hnone] using hparse
      · rwa [List.filter_cons_of_neg (by simpa using hholds)]

/-- **One file that chokes the reader** takes everything with it. -/
theorem parseFiles_of_chokes {files : List (Text × Entry)} (hmem : e ∈ files)
    (h : Chokes py e) : parseFiles py (files.map Entry.toFile) = .error () := by
  induction files with
  | nil => exact absurd hmem List.not_mem_nil
  | cons e' files ih =>
    simp only [List.map_cons, Entry.toFile, parseFiles]
    rcases List.mem_cons.mp hmem with rfl | hmem
    · rw [h.parse]
    · rcases hparse : parseBusFile py (stemOfPath e'.1) e'.2.content with _ | _ | m
      · rfl
      · exact ih hmem
      · simp only [ih hmem]
        rfl

/-- The names are read in their order, each of them once. -/
theorem Directory.pairwise_sorted (dir : Directory) :
    dir.sorted.Pairwise fun a b => a.1 < b.1 := by
  have hperm := List.perm_insertionSort (fun a b : Text × Entry => a.1 ≤ b.1)
    (dir.entries.filter fun e => isMessageFile e.1)
  have hsorted : dir.sorted.Pairwise fun a b => a.1 ≤ b.1 :=
    haveI : Std.Total fun a b : Text × Entry => a.1 ≤ b.1 := ⟨fun a b => le_total a.1 b.1⟩
    haveI : IsTrans (Text × Entry) fun a b => a.1 ≤ b.1 := ⟨fun a b c => le_trans⟩
    List.pairwise_insertionSort _ _
  have hnodup : (dir.sorted.map Prod.fst).Nodup :=
    (hperm.map Prod.fst).nodup_iff.mpr (dir.nodup.sublist (List.filter_sublist.map Prod.fst))
  exact (hsorted.and (List.pairwise_map.mp hnodup)).imp fun h => lt_of_le_of_ne h.1 h.2

theorem Directory.mem_sorted {dir : Directory} :
    e ∈ dir.sorted ↔ e ∈ dir.entries ∧ isMessageFile e.1 := by
  rw [Directory.sorted, List.mem_insertionSort, List.mem_filter]

open Classical in
/-- **Malformed files are isolated, but for those that choke the reader.** The directory is
read to the messages of its well-formed files, in the order of the file names, exactly if it
has no message file that is no UTF-8 text or whose front matter makes PyYAML raise something
else than a `YAMLError`. -/
theorem lists_iff (py : Python) (dir : Directory) :
    (∃ msgs, iterBusMessages py (some dir) = .ok msgs ∧ Lists py dir msgs) ↔
      ∀ e ∈ dir.entries, isMessageFile e.1 → ¬Chokes py e := by
  constructor
  · rintro ⟨msgs, hok, -⟩ e hmem hname hchokes
    rw [iterBusMessages, parseFiles_of_chokes (Directory.mem_sorted.mpr ⟨hmem, hname⟩) hchokes]
      at hok
    exact absurd hok (by simp)
  · intro h
    have hcalm : ∀ e ∈ dir.sorted, ¬Chokes py e := fun e he =>
      h e (Directory.mem_sorted.mp he).1 (Directory.mem_sorted.mp he).2
    obtain ⟨msgs, hok, hall⟩ := parseFiles_of_calm hcalm
    refine ⟨msgs, hok, _, dir.pairwise_sorted.sublist List.filter_sublist, fun e => ?_, hall⟩
    rw [List.mem_filter, Directory.mem_sorted, decide_eq_true_eq, and_assoc]

/-- Two files: one in Latin-1, and one that is as it should be. -/
def latin : Directory where
  entries := [(lit "a-latin.md", .file (lit "---\nsubject: caf" ++ [0xe9] ++ lit "\n---\n")),
    (lit "b-good.md", .file (lit "---\nid: good\n---\n"))]
  nodup := by decide

/-- **A file in Latin-1 hides the others**: the good file is well-formed, but the directory
is not read at all. -/
theorem not_lists_latin :
    (∃ e ∈ latin.entries, isMessageFile e.1 ∧ ∃ m, Holds plainPython e m) ∧
      ¬∃ msgs, iterBusMessages plainPython (some latin) = .ok msgs ∧
        Lists plainPython latin msgs := by
  constructor
  · have hload : plainPython.safeLoad (lit "id: good") =
        .ok (.dict [(.str (lit "id"), .str (lit "good"))]) := by rfl
    exact ⟨_, List.mem_cons_of_mem _ List.mem_cons_self, by decide, _, _, _, lit "id: good", [], _,
      _, rfl, Utf8.decode_encode (Utf8.encode_of_ascii (by decide)), by decide +kernel, hload,
      .inl rfl, rfl⟩
  · rintro ⟨msgs, hok, -⟩
    have hraises : (iterBusMessages plainPython (some latin)).toOption.isNone := by
      decide +kernel
    rw [hok] at hraises
    exact absurd hraises (by simp [Except.toOption])

/-! ### The scan -/

/-- The files that a scan still has to read, as they are now. -/
def filesOf (s : State) (stems : List Text) : List (Text × Option Inbox.Content) :=
  stems.map fun stem => (stem, s.active.lookup stem)

/-- A scan moves on while no tap is handled. -/
theorem step_read_eq {cfg : Config} {s : State} (htap : s.tap = none) (phase : Phase) :
    step cfg { s with phase } .read = readStep cfg { s with phase } :=
  if_neg (by simp [htap])

/-- What reading one file does to a scan. -/
theorem step_read (cfg : Config) {s : State} (htap : s.tap = none) (scan : Scan) (stem : Text)
    (stems : List Text) (parsed : List Parsed) :
    (parseBusFile cfg.py stem (s.active.lookup stem) = .error () ∧
      step cfg { s with phase := .reading scan (stem :: stems) parsed } .read =
        some { s with phase := .idle }) ∨
    (parseBusFile cfg.py stem (s.active.lookup stem) = .ok none ∧
      step cfg { s with phase := .reading scan (stem :: stems) parsed } .read =
        some { s with phase := .reading scan stems parsed }) ∨
    ∃ p : Parsed, parseBusFile cfg.py stem (s.active.lookup stem) = .ok (some p.msg) ∧
      step cfg { s with phase := .reading scan (stem :: stems) parsed } .read =
        some { s with phase := .reading scan stems (parsed ++ [p]) } := by
  rcases hparse : parseBusFile cfg.py stem (s.active.lookup stem) with _ | _ | m
  · refine .inl ⟨rfl, ?_⟩
    simp only [step_read_eq htap, readStep, readMessage, hparse, Except.map]
  · refine .inr (.inl ⟨rfl, ?_⟩)
    simp only [step_read_eq htap, readStep, readMessage, hparse, Except.map,
      Option.map_none]
  · obtain ⟨p, hp, rfl⟩ : ∃ p, readMessage cfg s stem = .ok (some p) ∧ p.msg = m :=
      ⟨_, by rw [readMessage, hparse]; rfl, rfl⟩
    have hread : readMessage cfg { s with phase := .reading scan (stem :: stems) parsed } stem =
        .ok (some p) := hp
    refine .inr (.inr ⟨p, rfl, ?_⟩)
    simp only [step_read_eq htap, readStep, hread]

/-- **A scan reads the list or ends**: while nobody touches the directory, reading the files
that are left brings the scan to its loop with the messages of the list, or, if a file
raises, ends it before it has looked at any message. -/
theorem exec_reads {cfg : Config} {s : State} (htap : s.tap = none) (scan : Scan)
    (stems : List Text) (parsed : List Parsed) :
    (∃ ps, parseFiles cfg.py (filesOf s stems) = .ok (ps.map Parsed.msg) ∧
      ∃ n, Lts.exec (step cfg) { s with phase := .reading scan stems parsed }
        (List.replicate n .read) =
          some { s with
            phase := .looping { scan with read := parsed ++ ps } (parsed ++ ps) }) ∨
    parseFiles cfg.py (filesOf s stems) = .error () ∧
      ∃ n, Lts.exec (step cfg) { s with phase := .reading scan stems parsed }
        (List.replicate n .read) = some { s with phase := .idle } := by
  induction stems generalizing parsed with
  | nil =>
    refine .inl ⟨[], rfl, 1, ?_⟩
    simp only [List.replicate_one, Lts.exec, List.foldlM_cons, List.foldlM_nil,
      step_read_eq htap, readStep, List.append_nil]
    rfl
  | cons stem stems ih =>
    rcases step_read cfg htap scan stem stems parsed with
      ⟨hparse, hstep⟩ | ⟨hparse, hstep⟩ | ⟨p, hparse, hstep⟩
    · -- the file raises, which ends the scan and the list
      refine .inr ⟨?_, 1, ?_⟩
      · simp only [filesOf, List.map_cons, parseFiles, hparse]
      · rw [List.replicate_one, Lts.exec_cons hstep]
        rfl
    · -- a file that is skipped is in neither
      have hfiles : parseFiles cfg.py (filesOf s (stem :: stems)) =
          parseFiles cfg.py (filesOf s stems) := by
        simp only [filesOf, List.map_cons, parseFiles, hparse]
      rw [hfiles]
      refine (ih parsed).imp ?_ ?_
      · rintro ⟨ps, hps, n, hn⟩
        refine ⟨ps, hps, n + 1, ?_⟩
        rw [List.replicate_succ, Lts.exec_cons hstep, hn]
      · rintro ⟨herror, n, hn⟩
        refine ⟨herror, n + 1, ?_⟩
        rw [List.replicate_succ, Lts.exec_cons hstep, hn]
    · -- a file that is read joins the list on both sides
      have hfiles : parseFiles cfg.py (filesOf s (stem :: stems)) =
          (parseFiles cfg.py (filesOf s stems)).map (p.msg :: ·) := by
        simp only [filesOf, List.map_cons, parseFiles, hparse]
      rw [hfiles]
      refine (ih (parsed ++ [p])).imp ?_ ?_
      · rintro ⟨ps, hps, n, hn⟩
        refine ⟨p :: ps, by rw [hps]; rfl, n + 1, ?_⟩
        rw [List.append_assoc, List.singleton_append] at hn
        rw [List.replicate_succ, Lts.exec_cons hstep, hn]
      · rintro ⟨herror, n, hn⟩
        refine ⟨by rw [herror]; rfl, n + 1, ?_⟩
        rw [List.replicate_succ, Lts.exec_cons hstep, hn]

end Bus

end OtamanBridge
