import OtamanBridge.Bus.Envelope
import OtamanBridge.Bus.Project

/-!
# The name of a project, three times

A message goes to the topic that its project is the name of. The daemon and the approval hook
ask `resolve_project_name` for it, which says of itself that this is the only place where that
is decided; but `_session_project` of `stop_notify.py` and that of `ping.py` scan
`platform.yaml` themselves. They take whatever stands behind `project:` at the beginning of a
line, as it stands there, where `resolve_project_name` takes a plain word only and leaves the
rest to YAML. So they agree if YAML reads the line as they do
(`OtamanBridge.Notify.sameName_iff`), which it does not if there is a comment on it.
-/

namespace OtamanBridge

namespace Notify

open Py

open Bus (File Python loadedProject resolveProjectName isSimple stripChar)

/-! ### The scan of the helpers -/

/-- The value of a line that begins with `project:`; quotes of either kind are taken off. -/
def projectValue (line : Text) : Text := stripChar 34 (stripChar 39 (strip (line.drop 8)))

/-- The values behind `project:` at the beginning of a line, in their order. -/
def projectValues (t : Text) : List Text :=
  ((splitlines t).filter (lit "project:").isPrefixOf).map projectValue

/-- The scan of `_session_project`, which passes over empty values. -/
def scanSession (t : Text) : Option Text := (projectValues t).find? (· ≠ [])

/-- `_session_project` of a root with this name; it may raise. -/
def sessionProject (name : Text) : File → Except Unit Text
  | .missing | .unreadable => .ok name
  | .unsearchable | .undecodable => .error ()
  | .text t => .ok ((scanSession (universalNewlines t)).getD name)

/-- `_session_project` of `stop_notify.py`. -/
def stopProject (name : Text) (f : File) : Except Unit Text := sessionProject name f

/-- `_session_project` of `ping.py`, which may be called without a root. -/
def pingProject : Option (Text × File) → Except Unit Text
  | none => .ok (lit "(no project)")
  | some (name, f) => sessionProject name f

/-! ### What is asked of them -/

section

variable (py : Python) (name : Text)

/-- **There is one name**, whoever asks for it. -/
def SameName (f : File) : Prop :=
  ∃ topic, resolveProjectName py name f = .ok topic ∧ stopProject name f = .ok topic ∧
    pingProject (some (name, f)) = .ok topic

/-- The first value that is not empty. -/
def FirstValue (t value : Text) : Prop := (projectValues t).find? (· ≠ []) = some value

/-- The first value is a plain word. -/
def PlainWord (t : Text) : Prop := ∃ value ∈ (projectValues t).head?, isSimple value

/-- YAML reads this name of the project in the text. -/
def YamlNames (t value : Text) : Prop :=
  ∃ data, py.safeLoad t = .ok data ∧ loadedProject data = some value

/-- YAML reads no name of the project in the text, or no YAML. -/
def YamlNamesNone (t : Text) : Prop :=
  py.safeLoad t = .error .yaml ∨ ∃ data, py.safeLoad t = .ok data ∧ loadedProject data = none

/-- **The text reads alike**: the first value is a plain word; or YAML reads the name that
stands on the line, which is that of the directory if none does. -/
def ReadsAlike (t : Text) : Prop :=
  PlainWord t ∨
    (∃ value, YamlNames py t value ∧
      (FirstValue t value ∨ value = name ∧ ∀ v ∈ projectValues t, v = [])) ∨
    YamlNamesNone py t ∧ ∀ value, FirstValue t value → value = name

/-- The file is not there or cannot be read, or its text reads alike. -/
def FileReadsAlike : File → Prop
  | .missing | .unreadable => True
  | .unsearchable | .undecodable => False
  | .text t => ReadsAlike py name (universalNewlines t)

end

variable {py : Python} {name t : Text}

/-! ### The two scans -/

/-- The scan of `resolve_project_name` is for the first value. -/
theorem scanProject_eq : Bus.scanProject t = (projectValues t).head?.filter isSimple := by
  rw [Bus.scanProject, projectValues, List.head?_map, List.head?_filter]
  rcases (splitlines t).find? (lit "project:").isPrefixOf with _ | line
  · rfl
  · rw [Option.bind_some, Option.map_some, Option.filter_some]
    rfl

theorem ne_nil_of_isSimple {value : Text} (h : isSimple value) : value ≠ [] := by
  rintro rfl
  exact absurd h (by decide)

/-- A plain word is found by both. -/
theorem scans_of_plainWord (h : PlainWord t) :
    ∃ value, Bus.scanProject t = some value ∧ scanSession t = some value := by
  obtain ⟨value, hhead, hsimple⟩ := h
  refine ⟨value, ?_, ?_⟩
  · rw [scanProject_eq, hhead, Option.filter_some, if_pos hsimple]
  · obtain ⟨values, heq⟩ := List.head?_eq_some_iff.mp hhead
    rw [scanSession, heq, List.find?_cons_of_pos (by simpa using ne_nil_of_isSimple hsimple)]

theorem scanProject_of_not_plainWord (h : ¬PlainWord t) : Bus.scanProject t = none := by
  rw [scanProject_eq, Option.filter_eq_none_iff]
  exact fun value hhead hsimple => h ⟨value, hhead, hsimple⟩

/-- The scan of the helpers finds the first value, if there is one. -/
theorem scanSession_getD_iff {value : Text} : (scanSession t).getD name = value ↔
    FirstValue t value ∨ value = name ∧ ∀ v ∈ projectValues t, v = [] := by
  unfold FirstValue scanSession
  rcases hfind : (projectValues t).find? (· ≠ []) with _ | first
  · have hnil : ∀ v ∈ projectValues t, v = [] := by simpa using hfind
    simp only [Option.getD_none, reduceCtorEq, false_or]
    exact ⟨fun h => ⟨h.symm, hnil⟩, fun h => h.1.symm⟩
  · have hne : ¬∀ v ∈ projectValues t, v = [] := fun hnil => by
      have hfirst := List.find?_some hfind
      rw [hnil first (List.mem_of_find?_eq_some hfind)] at hfirst
      exact absurd hfirst (by simp)
    simp [hne]

/-- And the name of the directory if that is the first value, or there is none. -/
theorem scanSession_getD_eq_name_iff :
    (scanSession t).getD name = name ↔ ∀ value, FirstValue t value → value = name := by
  unfold FirstValue scanSession
  rcases (projectValues t).find? (· ≠ []) with _ | first
  · simp
  · simp

/-! ### When there is one name -/

/-- The helpers always find a name in a text. -/
theorem sameName_text_iff : SameName py name (.text t) ↔
    resolveProjectName py name (.text t) =
      .ok ((scanSession (universalNewlines t)).getD name) := by
  constructor
  · rintro ⟨topic, hresolve, hstop, -⟩
    rw [hresolve, ← hstop]
    rfl
  · exact fun h => ⟨_, h, rfl, rfl⟩

/-- What `resolve_project_name` finds where it leaves the text to YAML. -/
theorem resolveProjectName_eq_ok_iff (hplain : ¬PlainWord (universalNewlines t)) {topic : Text} :
    resolveProjectName py name (.text t) = .ok topic ↔
      YamlNames py (universalNewlines t) topic ∨
        YamlNamesNone py (universalNewlines t) ∧ topic = name := by
  unfold YamlNames YamlNamesNone
  rw [resolveProjectName, scanProject_of_not_plainWord hplain]
  rcases hload : py.safeLoad (universalNewlines t) with (_ | _) | data
  · simp [eq_comm]
  · simp
  · rcases hname : loadedProject data with _ | value
    · simp [hname, eq_comm]
    · simp [hname]

/-- **When there is one name of a project**, for every file and every root: just when the file
is not there or cannot be read, or its text reads alike. -/
theorem sameName_iff {f : File} : SameName py name f ↔ FileReadsAlike py name f := by
  cases f with
  | missing => exact iff_of_true ⟨name, rfl, rfl, rfl⟩ trivial
  | unreadable => exact iff_of_true ⟨name, rfl, rfl, rfl⟩ trivial
  | unsearchable =>
    refine iff_of_false ?_ id
    rintro ⟨topic, h, -⟩
    exact absurd h (by simp [resolveProjectName])
  | undecodable =>
    refine iff_of_false ?_ id
    rintro ⟨topic, h, -⟩
    exact absurd h (by simp [resolveProjectName])
  | text t =>
    rw [sameName_text_iff]
    change _ ↔ ReadsAlike py name (universalNewlines t)
    by_cases hplain : PlainWord (universalNewlines t)
    · refine iff_of_true ?_ (.inl hplain)
      obtain ⟨value, hproject, hsession⟩ := scans_of_plainWord hplain
      rw [resolveProjectName, hproject, hsession]
      rfl
    · rw [resolveProjectName_eq_ok_iff hplain]
      unfold ReadsAlike
      simp only [hplain, false_or, scanSession_getD_eq_name_iff]
      refine or_congr ⟨fun h => ?_, ?_⟩ Iff.rfl
      · exact ⟨_, h, scanSession_getD_iff.mp rfl⟩
      · rintro ⟨value, hyaml, hvalue⟩
        rw [scanSession_getD_iff.mpr hvalue]
        exact hyaml

/-! ### A comment -/

/-- The name of the project, and a comment on its line. -/
def commented : Text := lit "project: otaman # the bridge\n"

/-- YAML that leaves the comment out. -/
def commentPython : Python :=
  { Bus.plainPython with
    safeLoad := fun t =>
      if t = commented then .ok (.dict [(.str (lit "project"), .str (lit "otaman"))])
      else Bus.plainPython.safeLoad t }

/-- **A comment on the line** is no part of the name for the daemon, and is for the helpers. -/
theorem not_sameName : ¬∀ (py : Python) (name : Text) (f : File), SameName py name f := by
  intro h
  have hsame := sameName_text_iff.mp (h commentPython (lit "bridge") (.text commented))
  exact absurd hsame (by decide +kernel)

end Notify

end OtamanBridge
