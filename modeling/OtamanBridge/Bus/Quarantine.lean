import Mathlib.Data.List.AList
import Mathlib.Data.List.DropRight
import OtamanBridge.Lib.Probe
import OtamanBridge.Lib.PyTime
import OtamanBridge.Lib.Run

/-!
# The quarantine

`quarantine_message` of `bus_provenance.py` moves a message that is not verified out of the
active directory. A name that is in use in the quarantine gets a number: the first one
under which `exists` finds nothing.

The search for it ends whatever is in the quarantine, since the numbered names are pairwise
different (`OtamanBridge.Bus.Quarantine.candidate_injective`). But `exists` follows links. To
it there is nothing under the name of a link that leads nowhere, and `rename` replaces what
is there; a message that is such a link once it is moved is lost to the next one of its
name. And a name may be too long with a number in it. Where neither comes up, nothing is
lost (`OtamanBridge.Bus.Quarantine.losesNothing_iff`).

Nobody else writes to the quarantine while the bridge runs. What is in the active directory,
and what the links lead to, is open at every call.
-/

namespace OtamanBridge

namespace Bus

namespace Quarantine

open Py

/-! ### Names -/

/-- The name up to its last period, with it, if `Path` splits the name there: the period
is neither the first nor the last character. -/
def split (name : Text) : Option Text :=
  let head := name.rdropWhile (· ≠ '.'.toNat)
  if 2 ≤ head.length ∧ head.length < name.length then some head else none

/-- `Path.stem`. -/
def stem (name : Text) : Text := ((split name).map List.dropLast).getD name

/-- `Path.suffix`. -/
def suffix (name : Text) : Text :=
  ((split name).map fun head => name.drop (head.length - 1)).getD []

/-- **The names that are tried**, in this order: the message's own, and it with a number
before the suffix. -/
def candidate (name : Text) : ℕ → Text
  | 0 => name
  | n + 1 => stem name ++ lit "." ++ decimal (n + 1) ++ suffix name

/-- A name is as long as its stem and its suffix. -/
theorem length_stem_add_suffix (name : Text) :
    (stem name).length + (suffix name).length = name.length := by
  rw [stem, suffix]
  cases h : split name with
  | none => rfl
  | some head =>
    rw [split] at h
    split_ifs at h with hhead
    obtain rfl := Option.some.inj h
    show (List.dropLast _).length + (List.drop _ _).length = _
    rw [List.length_dropLast, List.length_drop]
    omega

/-- **No name is tried twice.** -/
theorem candidate_injective (name : Text) : Function.Injective (candidate name) := by
  -- a number makes the name longer
  have hlong : ∀ n, candidate name (n + 1) ≠ name := by
    intro n h
    have hlen := congrArg List.length h
    simp only [candidate, List.length_append] at hlen
    have := length_stem_add_suffix name
    have : (lit ".").length = 1 := rfl
    omega
  intro m n h
  cases m with
  | zero =>
    cases n with
    | zero => rfl
    | succ n => exact absurd h.symm (hlong n)
  | succ m =>
    cases n with
    | zero => exact absurd h (hlong m)
    | succ n =>
      simp only [candidate, List.append_left_inj, List.append_right_inj] at h
      exact decimal_injective h

/-! ### The directories -/

/-- What a name of a directory leads to. -/
inductive Artifact
  | file (bytes : List ℕ)
  | directory
  /-- A symbolic link with this text. -/
  | link (text : Text)
  deriving DecidableEq

/-- The entries of a directory. One that is not there has none: `mkdir` makes it. -/
abbrev Folder := AList fun _ : Text => Artifact

/-- What the system says of names and links at one time. -/
structure Host where
  /-- The system makes an entry of that name. -/
  accepts : Text → Bool
  /-- A link of this text in the quarantine leads to something. -/
  resolves : Text → Bool

/-- `Path.exists`, in the quarantine: a link is followed, and a name the system does not
take raises. -/
def pathExists (host : Host) (quarantine : Folder) (name : Text) : Except Unit Bool :=
  match quarantine.lookup name with
  | some (.link text) => .ok (host.resolves text)
  | some _ => .ok true
  | none => if host.accepts name then .ok false else .error ()

/-- The two directories of the bus. -/
structure Dirs where
  active : Folder
  quarantine : Folder

/-- `msg.path.rename(target)`: what is under the target's name is replaced, unless it is a
directory. -/
def rename (d : Dirs) (name target : Text) : Except Unit Dirs :=
  match d.active.lookup name with
  | none => .error ()
  | some artifact =>
    if d.quarantine.lookup target = some .directory then .error ()
    else .ok ⟨d.active.erase name, d.quarantine.insert target artifact⟩

/-- What comes after the search: the move, unless an exception was raised. -/
def moveTo (d : Dirs) (name : Text) : Except Unit Text → Dirs × Except Unit Text
  | .error () => (d, .error ())
  | .ok target =>
    match rename d name target with
    | .error () => (d, .error ())
    | .ok d' => (d', .ok target)

/-- `quarantine_message`: the directories after it, and the path or that it raises. There
is no result if the fuel is used up in the search for a name. -/
def quarantineMessage (host : Host) (d : Dirs) (name : Text) (fuel : ℕ) :
    Option (Dirs × Except Unit Text) :=
  (Probe.firstFree (pathExists host d.quarantine) (candidate name) fuel 0).map (moveTo d name)

/-- The fuel that is enough for any search in a directory. -/
def enough (quarantine : Folder) : ℕ := quarantine.keys.length + 1

/-- The result of `quarantine_message`, with enough fuel. -/
def outcome (host : Host) (d : Dirs) (name : Text) : Dirs × Except Unit Text :=
  (quarantineMessage host d name (enough d.quarantine)).getD (d, .error ())

variable {host : Host} {d : Dirs} {name target : Text} {fuel : ℕ}

/-- A name that the search can rely on: it leads to something, or it is free and the system
takes it. -/
def Sound (host : Host) (quarantine : Folder) (n : Text) : Prop :=
  match quarantine.lookup n with
  | some (.link text) => host.resolves text
  | some _ => True
  | none => host.accepts n

/-- What `exists` finds is there, and what is there it finds, unless it is a link that leads
nowhere. -/
theorem pathExists_eq_true_iff {quarantine : Folder} {n : Text} :
    pathExists host quarantine n = .ok true ↔ n ∈ quarantine ∧ Sound host quarantine n := by
  rw [← AList.lookup_isSome]
  unfold pathExists Sound
  cases quarantine.lookup n with
  | none => by_cases h : host.accepts n <;> simp [h]
  | some artifact => cases artifact <;> simp

/-- Where `exists` finds nothing there is nothing, unless it is a link that leads nowhere. -/
theorem pathExists_eq_false_iff {quarantine : Folder} {n : Text} (h : Sound host quarantine n) :
    pathExists host quarantine n = .ok false ↔ n ∉ quarantine := by
  rw [← AList.lookup_eq_none]
  unfold Sound at h
  unfold pathExists
  cases hn : quarantine.lookup n with
  | none =>
    rw [hn] at h
    simpa using h
  | some artifact =>
    rw [hn] at h
    cases artifact with
    | file bytes => simp
    | directory => simp
    | link text => simpa using h

/-- **The search ends**, whatever is in the quarantine. -/
theorem firstFree_isSome (host : Host) (d : Dirs) (name : Text)
    (hfuel : enough d.quarantine ≤ fuel) :
    (Probe.firstFree (pathExists host d.quarantine) (candidate name) fuel 0).isSome :=
  Probe.firstFree_isSome (candidate_injective name) 
    (fun _ h => AList.mem_keys.mp (pathExists_eq_true_iff.mp h).1) hfuel

/-- **`quarantine_message` terminates**: with enough fuel there is a result, and more fuel
does not change it. -/
theorem quarantineMessage_eq_outcome (hfuel : enough d.quarantine ≤ fuel) :
    quarantineMessage host d name fuel = some (outcome host d name) := by
  obtain ⟨r, hr⟩ := Option.isSome_iff_exists.mp
    (firstFree_isSome host d name le_rfl)
  rw [outcome, quarantineMessage, quarantineMessage, hr, Probe.firstFree_mono hfuel hr]
  rfl

/-- What a call does, from where its search ends. -/
theorem exists_outcome_eq (host : Host) (d : Dirs) (name : Text) :
    ∃ k, Probe.Reaches (pathExists host d.quarantine) (candidate name) 0 k ∧
      pathExists host d.quarantine (candidate name k) ≠ .ok true ∧
      outcome host d name = moveTo d name
        ((pathExists host d.quarantine (candidate name k)).map fun _ => candidate name k) := by
  obtain ⟨r, hr⟩ := Option.isSome_iff_exists.mp
    (firstFree_isSome host d name le_rfl)
  obtain ⟨k, hk, -, hnot, rfl⟩ := Probe.firstFree_eq_some_iff.mp hr
  refine ⟨k, hk, hnot, ?_⟩
  rw [outcome, quarantineMessage, hr]
  rfl

/-! ### One call -/

/-- **The names of a call are clear** if the search comes to sound ones only. -/
def ClearNames (host : Host) (quarantine : Folder) (name : Text) : Prop :=
  ∀ k, Probe.Reaches (pathExists host quarantine) (candidate name) 0 k →
    Sound host quarantine (candidate name k)

/-- **The file is moved to a free name**, and nothing else happens in the directories. -/
def MovedTo (d d' : Dirs) (name : Text) (artifact : Artifact) (target : Text) : Prop :=
  target ∉ d.quarantine ∧ d.active.lookup name = some artifact ∧
    d'.active = d.active.erase name ∧ d'.quarantine = d.quarantine.insert target artifact

variable {artifact : Artifact}

/-- Nothing is in the way of a free name. -/
theorem moveTo_of_notMem (hname : d.active.lookup name = some artifact)
    (htarget : target ∉ d.quarantine) :
    moveTo d name (.ok target) =
      (⟨d.active.erase name, d.quarantine.insert target artifact⟩, .ok target) := by
  simp only [moveTo, rename, hname, AList.lookup_eq_none.mpr htarget, reduceCtorEq, if_false]

/-- A move that returns has found a name. -/
theorem eq_of_moveTo {r : Except Unit Text} (h : (moveTo d name r).2 = .ok target) :
    r = .ok target := by
  cases r with
  | error e => cases h
  | ok t =>
    rw [moveTo] at h
    cases hd : rename d name t with
    | error e =>
      rw [hd] at h
      cases h
    | ok d' =>
      rw [hd] at h
      exact h

/-- **A call with clear names moves the file.** -/
theorem exists_movedTo (hname : d.active.lookup name = some artifact)
    (h : ClearNames host d.quarantine name) :
    ∃ target, (outcome host d name).2 = .ok target ∧
      MovedTo d (outcome host d name).1 name artifact target := by
  obtain ⟨k, hk, hnot, hout⟩ := exists_outcome_eq host d name
  have hsound := h k hk
  have hfree : candidate name k ∉ d.quarantine := fun hmem =>
    hnot (pathExists_eq_true_iff.mpr ⟨hmem, hsound⟩)
  rw [(pathExists_eq_false_iff hsound).mpr hfree] at hout
  rw [hout, Except.map, moveTo_of_notMem hname hfree]
  exact ⟨_, rfl, hfree, hname, rfl, rfl⟩

/-- **A call that moves the file to a free name has clear names.** -/
theorem clearNames_of_notMem (h : (outcome host d name).2 = .ok target)
    (htarget : target ∉ d.quarantine) : ClearNames host d.quarantine name := by
  obtain ⟨k, hk, hnot, hout⟩ := exists_outcome_eq host d name
  rw [hout] at h
  have hend := eq_of_moveTo h
  intro j hj
  rcases eq_or_lt_of_le (hj.le hk.1 hnot) with rfl | hlt
  · -- the name is free, so the system was asked whether it takes it
    cases hpath : pathExists host d.quarantine (candidate name j) with
    | error e =>
      rw [hpath] at hend
      cases hend
    | ok b =>
      rw [hpath] at hend
      obtain rfl : candidate name j = target := Except.ok.inj hend
      have hnone := AList.lookup_eq_none.mpr htarget
      rw [pathExists, hnone] at hpath
      rw [Sound, hnone]
      by_contra haccepts
      simp [haccepts] at hpath
  · exact (pathExists_eq_true_iff.mp (hk.2 j (by omega) hlt)).2

/-! ### Calls in sequence -/

/-- A call: the active directory and the system as it finds them, and the name of the
message. -/
structure Call where
  active : Folder
  name : Text
  host : Host

/-- What a call has done. -/
structure Done where
  call : Call
  /-- The message's file. -/
  artifact : Artifact
  before : Dirs
  after : Dirs
  result : Except Unit Text

/-- The quarantine, and what was done to it, the last call first. -/
structure State where
  quarantine : Folder
  done : List Done

/-- A call, if there is a file that the message can have been read from. -/
def step (s : State) (c : Call) : Option State :=
  match c.active.lookup c.name with
  | none | some .directory => none
  | some artifact =>
    let d : Dirs := ⟨c.active, s.quarantine⟩
    let r := outcome c.host d c.name
    some ⟨r.1.quarantine, ⟨c, artifact, d, r.1, r.2⟩ :: s.done⟩

/-- The call has ended with its result, and would with any more fuel. -/
def Done.Ends (x : Done) : Prop :=
  ∀ fuel, enough x.before.quarantine ≤ fuel →
    quarantineMessage x.call.host x.before x.call.name fuel = some (x.after, x.result)

/-- The call has moved its file, as it is, to a name that was free, and returned this name. -/
def Done.Moves (x : Done) : Prop :=
  ∃ target, x.result = .ok target ∧ MovedTo x.before x.after x.call.name x.artifact target

/-- **The quarantine loses nothing**: every call moves its file to a free name, what was
there is there, and what was moved is where it was moved to, and there are as many more
files as calls. -/
structure LosesNothing (quarantine : Folder) (s : State) : Prop where
  moves : ∀ x ∈ s.done, x.Moves
  keeps : ∀ n artifact, quarantine.lookup n = some artifact →
    s.quarantine.lookup n = some artifact
  holds : ∀ x ∈ s.done, ∀ target, x.result = .ok target →
    s.quarantine.lookup target = some x.artifact
  more : s.quarantine.keys.length = quarantine.keys.length + s.done.length

/-- The names of the call are clear. -/
def Clear (s : State) (c : Call) : Prop := ClearNames c.host s.quarantine c.name

variable {s s' : State} {c : Call} {quarantine : Folder}

/-- **What a step does.** -/
theorem step_cases (h : step s c = some s') : ∃ artifact, c.active.lookup c.name = some artifact ∧
    s' = ⟨(outcome c.host ⟨c.active, s.quarantine⟩ c.name).1.quarantine,
      ⟨c, artifact, ⟨c.active, s.quarantine⟩, (outcome c.host ⟨c.active, s.quarantine⟩ c.name).1,
        (outcome c.host ⟨c.active, s.quarantine⟩ c.name).2⟩ :: s.done⟩ := by
  rw [step] at h
  cases hname : c.active.lookup c.name with
  | none =>
    rw [hname] at h
    cases h
  | some artifact =>
    rw [hname] at h
    cases artifact with
    | directory => cases h
    | file bytes => exact ⟨_, rfl, (Option.some.inj h).symm⟩
    | link text => exact ⟨_, rfl, (Option.some.inj h).symm⟩

/-- A call with clear names loses nothing. -/
theorem LosesNothing.step (hs : LosesNothing quarantine s) (hc : Clear s c)
    (h : step s c = some s') : LosesNothing quarantine s' := by
  obtain ⟨artifact, hname, rfl⟩ := step_cases h
  obtain ⟨target, hresult, hmoved⟩ := exists_movedTo (d := ⟨c.active, s.quarantine⟩) hname hc
  obtain ⟨hfree, -, -, hafter⟩ := id hmoved
  have hkeep : ∀ n artifact', s.quarantine.lookup n = some artifact' →
      (s.quarantine.insert target artifact).lookup n = some artifact' := by
    intro n artifact' hn
    have hne : n ≠ target := by
      rintro rfl
      exact hfree (AList.lookup_isSome.mp (by rw [hn]; rfl))
    rw [AList.lookup_insert_ne hne, hn]
  refine ⟨?_, ?_, ?_, ?_⟩
  · intro x hx
    rcases List.mem_cons.mp hx with rfl | hx
    · exact ⟨target, hresult, hmoved⟩
    · exact hs.moves x hx
  · intro n artifact' hn
    rw [hafter]
    exact hkeep n artifact' (hs.keeps n artifact' hn)
  · intro x hx target' hx'
    rw [hafter]
    rcases List.mem_cons.mp hx with rfl | hx
    · obtain rfl : target = target' := Except.ok.inj (hresult.symm.trans hx')
      exact AList.lookup_insert _
    · exact hkeep _ _ (hs.holds x hx target' hx')
  · have hlen : (s.quarantine.insert target artifact).keys.length =
        s.quarantine.keys.length + 1 := by
      rw [AList.keys, AList.entries_insert_of_notMem hfree]
      rfl
    have hmore := hs.more
    rw [hafter, hlen, List.length_cons]
    omega

/-- A call whose names are not clear does not move its file to a free name. -/
theorem not_moves_of_not_clear (hc : ¬Clear s c) (h : step s c = some s') :
    ∃ x ∈ s'.done, ¬x.Moves := by
  obtain ⟨artifact, -, rfl⟩ := step_cases h
  refine ⟨_, List.mem_cons_self, ?_⟩
  rintro ⟨target, hresult, hfree, -⟩
  exact hc (clearNames_of_notMem (d := ⟨c.active, s.quarantine⟩) hresult hfree)

/-- **When the quarantine loses nothing**: every call ends, and in a sequence of calls nothing
is lost exactly if the names of all its calls are clear. -/
theorem losesNothing_iff {cs : List Call}
    (hrun : Lts.Run (Lts.ofStep step) ⟨quarantine, []⟩ cs s) :
    (s.done.map Done.call = cs.reverse ∧ ∀ x ∈ s.done, x.Ends) ∧
      (LosesNothing quarantine s ↔
        Lts.Run (Lts.Under Clear (Lts.ofStep step)) ⟨quarantine, []⟩ cs s) := by
  constructor
  · have hdone := Lts.Run.inv (I := fun ls s => s.done.map Done.call = ls.reverse ∧
      ∀ x ∈ s.done, x.Ends) ⟨rfl, fun x hx => absurd hx (List.not_mem_nil)⟩ ?_ hrun
    · exact hdone
    rintro ls s c s' - ⟨hcalls, hends⟩ h
    obtain ⟨artifact, -, rfl⟩ := step_cases h
    refine ⟨by rw [List.map_cons, hcalls, List.reverse_append]; rfl, fun x hx => ?_⟩
    rcases List.mem_cons.mp hx with rfl | hx
    · exact fun fuel hfuel => quarantineMessage_eq_outcome hfuel
    · exact hends x hx
  · refine Lts.Run.iff_under (B := fun s => ∃ x ∈ s.done, ¬x.Moves) ?_ ?_ ?_ ?_ ?_ hrun
    · exact ⟨fun x hx => absurd hx (List.not_mem_nil), fun _ _ h => h,
        fun x hx => absurd hx (List.not_mem_nil), rfl⟩
    · exact fun s c s' hs hc h => hs.step hc h
    · exact fun s c s' _ hc h => not_moves_of_not_clear hc h
    · rintro s c s' ⟨x, hx, hnot⟩ h
      obtain ⟨artifact, -, rfl⟩ := step_cases h
      exact ⟨x, List.mem_cons_of_mem _ hx, hnot⟩
    · rintro s ⟨x, hx, hnot⟩ hs
      exact hnot (hs.moves x hx)

/-- A host that takes names of up to 255 characters, where no link leads anywhere. -/
def plainHost : Host := ⟨fun name => name.length ≤ 255, fun _ => false⟩

/-- Whether a call has clear names, by its outcome. -/
def checkClear (s : State) (c : Call) : Bool :=
  match (outcome c.host ⟨c.active, s.quarantine⟩ c.name).2 with
  | .ok target => s.quarantine.lookup target = none
  | .error () => false

theorem clear_of_checkClear (h : checkClear s c) : Clear s c := by
  rw [checkClear] at h
  cases hr : (outcome c.host ⟨c.active, s.quarantine⟩ c.name).2 with
  | error e =>
    rw [hr] at h
    cases h
  | ok target =>
    rw [hr] at h
    exact clearNames_of_notMem (d := ⟨c.active, s.quarantine⟩) hr
      (AList.lookup_eq_none.mp (of_decide_eq_true h))

/-- Two messages of a name, where the first number is in use already: all three are kept. -/
theorem losesNothing_repeated : ∃ cs s, Lts.Run (Lts.ofStep step)
    ⟨AList.singleton (lit "a.1.md") (.file [0]), []⟩ cs s ∧ cs.length = 2 ∧
      s.quarantine.lookup (lit "a.2.md") = some (.file [2]) ∧
      LosesNothing (AList.singleton (lit "a.1.md") (.file [0])) s := by
  let call (bytes : List ℕ) : Call :=
    ⟨AList.singleton (lit "a.md") (.file bytes), lit "a.md", plainHost⟩
  obtain ⟨s, hrun, hs⟩ := Lts.exists_under_run_of_exec step checkClear
    (fun _ _ => clear_of_checkClear) ⟨AList.singleton (lit "a.1.md") (.file [0]), []⟩
    [call [1], call [2]] (fun s => s.quarantine.lookup (lit "a.2.md") = some (.file [2]))
    (by decide +kernel)
  exact ⟨_, s, hrun.of_under, rfl, of_decide_eq_true hs,
    (losesNothing_iff hrun.of_under).2.mpr hrun⟩

/-- **A link that leads nowhere is replaced**: of two messages of a name, the first one a link
to the file beside it, one is left. -/
theorem not_losesNothing : ¬∀ quarantine cs s,
    Lts.Run (Lts.ofStep step) ⟨quarantine, []⟩ cs s → LosesNothing quarantine s := by
  intro h
  let call (artifact : Artifact) : Call :=
    ⟨(AList.singleton (lit "b.md") (.file [0])).insert (lit "a.md") artifact, lit "a.md",
      plainHost⟩
  obtain ⟨s, hrun, hs⟩ := Lts.exists_run_of_exec step ⟨∅, []⟩
    [call (.link (lit "b.md")), call (.file [1])]
    (fun s => s.quarantine.keys.length = 1 ∧ s.done.length = 2) (by decide +kernel)
  obtain ⟨hkeys, hdone⟩ := of_decide_eq_true hs
  have hmore := (h _ _ _ hrun).more
  rw [hkeys, hdone] at hmore
  exact absurd hmore (by decide)

end Quarantine

end Bus

end OtamanBridge
