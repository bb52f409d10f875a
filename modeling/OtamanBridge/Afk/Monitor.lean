import OtamanBridge.Afk.File
import OtamanBridge.Lib.Run

/-!
# The idle monitor and its reference machine

`_check_once` of `idle_afk.py`, step by step: it looks at the lifecycle, the activity and
which AFK file there is, then peeks into that file, then writes or unlinks. The commands of
`afk.py`, and whoever else reads the file, may come between any two of these, and time passes.

A tick is to act as a machine that asks `read_afk` (`OtamanBridge.Afk.Event.Acts`). It does
where the peek agrees with `read_afk` and where nothing happens to the file between the look
and the act (`OtamanBridge.Afk.acts_of_calm`). A command that comes in between has its entry
overwritten (`OtamanBridge.Afk.not_acts`).
-/

namespace OtamanBridge

namespace Afk

open Py Bus

/-! ### The monitor -/

/-- `idle_minutes`. -/
structure Config where
  idleMinutes : ℕ

/-- `threshold_seconds`, with `MIN_IDLE_MINUTES`. -/
def Config.threshold (cfg : Config) : Seconds := (max 1 cfg.idleMinutes : ℕ) * 60

/-- What a tick finds: the lifecycle may be inert, and there may be no activity to go by. -/
def Config.verdict (cfg : Config) (inert : Bool) (age : Option Seconds) : Option Bool :=
  if inert then none else age.map fun a => cfg.threshold ≤ a

/-- Where the monitor stands. -/
inductive Phase
  /-- Between two ticks. -/
  | resting
  /-- It has found whether the human is idle, and for how long, and which file there is; it
  peeks next. -/
  | looked (idle : Bool) (idleSeconds : Seconds) (place : Place)
  /-- Nothing holds AFK; which file there is comes next. -/
  | enabling (idleSeconds : Seconds)
  /-- The write comes next. -/
  | writing (idleSeconds : Seconds) (place : Place)
  /-- The unlink comes next. -/
  | clearing (place : Place)
  deriving DecidableEq

/-- A tick has come to its end: whether it found the human idle, if it came to that, and the
files before and after its last step. -/
structure Event where
  idle : Option Bool
  time : Seconds
  before : Files
  after : Files
  deriving DecidableEq

/-- The whole state. -/
structure State where
  now : Seconds
  files : Files
  phase : Phase
  log : List Event

/-- What a step is told: who moves, and what the environment answers. -/
inductive Label
  /-- Time passes. -/
  | pass (d : Seconds)
  /-- `afk on` writes this file. -/
  | on (content : Content)
  /-- `afk off`. -/
  | off
  /-- Someone calls `read_afk`. -/
  | read
  /-- A tick begins; `age` is how long ago the last activity was. -/
  | look (inert : Bool) (age : Option Seconds)
  /-- `_read_afk_source`. -/
  | peek
  /-- `_afk_file`, to write. -/
  | resolve
  /-- `write_text`, at this time by the clock, or its error. -/
  | write (i : Instant) (ok : Bool)
  /-- `unlink`, or its error. -/
  | unlink (ok : Bool)

namespace State

variable (s : State)

/-- The tick ends without an act. -/
def rest (idle : Option Bool) : State :=
  { s with phase := .resting, log := ⟨idle, s.now, s.files, s.files⟩ :: s.log }

/-- The tick ends with these files. -/
def act (idle : Bool) (files : Files) : State :=
  { s with phase := .resting, files := files, log := ⟨some idle, s.now, s.files, files⟩ :: s.log }

end State

variable (py : Python)

/-- `cmd_off`, which reads the file before it removes both. -/
def afterOff (f : Files) (now : Seconds) : Files :=
  match readAfk py f now with
  | .ok _ => ⟨none, none⟩
  | .error _ => f

/-- What the monitor does with what it has peeked. -/
def afterPeek (s : State) (idle : Bool) (idleSeconds : Seconds) (place : Place) : State :=
  match readAfkSource (s.files.get place), idle with
  | .ok none, true => { s with phase := .enabling idleSeconds }
  | .ok (some source), false =>
    if source = idleSource then { s with phase := .clearing place } else s.rest (some false)
  | _, idle => s.rest (some idle)

/-- One step. -/
def step (cfg : Config) (s : State) : Label → Option State
  | .pass d => if 0 ≤ d then some { s with now := s.now + d } else none
  | .on content => some { s with files := { s.files with preferred := some content } }
  | .off => some { s with files := afterOff py s.files s.now }
  | .read => some { s with files := afterRead py s.files s.now }
  | .look inert age =>
    match s.phase with
    | .resting =>
      some (match cfg.verdict inert age with
        | none => s.rest none
        | some idle => { s with phase := .looked idle (age.getD 0) s.files.place })
    | _ => none
  | .peek =>
    match s.phase with
    | .looked idle idleSeconds place => some (afterPeek s idle idleSeconds place)
    | _ => none
  | .resolve =>
    match s.phase with
    | .enabling idleSeconds => some { s with phase := .writing idleSeconds s.files.place }
    | _ => none
  | .write i ok =>
    match s.phase with
    | .writing idleSeconds place =>
      if ClockShows i then
        some (if ok then s.act true (s.files.set place (some (.text (idleText i idleSeconds))))
          else s.rest (some true))
      else none
    | _ => none
  | .unlink ok =>
    match s.phase with
    | .clearing place =>
      some (if ok then s.act false (s.files.set place none) else s.rest (some false))
    | _ => none

/-! ### The reference machine -/

/-- An entry of the monitor's is active. -/
def IdleActive (f : Files) (now : Seconds) : Prop :=
  ∃ st, readAfk py f now = .ok (some st) ∧ st.source = idleSource

/-- **The tick acts as the reference machine**: idle and nothing active, an entry of its own
becomes active; idle and an entry active, nothing happens; not idle and its own entry active,
that is cleared; else nothing happens. -/
def Event.Acts (e : Event) : Prop :=
  match e.idle with
  | none => e.after = e.before
  | some true =>
    (readAfk py e.before e.time = .ok none → IdleActive py e.after e.time) ∧
      ∀ st, readAfk py e.before e.time = .ok (some st) → e.after = e.before
  | some false =>
    (IdleActive py e.before e.time → readAfk py e.after e.time = .ok none) ∧
      (¬IdleActive py e.before e.time → e.after = e.before)

/-- The peek finds what the reader does, as far as the tick goes by it: nothing where nothing
is active, something where an entry is; and, where the human is not idle, the source of the
monitor just where its entry is active, with no other entry behind it. -/
def Agrees (f : Files) (now : Seconds) : Bool → Prop
  | true =>
    (readAfk py f now = .ok none → readAfkSource (f.get f.place) = .ok none) ∧
      ∀ st, readAfk py f now = .ok (some st) → readAfkSource (f.get f.place) ≠ .ok none
  | false =>
    (readAfkSource (f.get f.place) = .ok (some idleSource) ↔ IdleActive py f now) ∧
      (IdleActive py f now → readAfk py (f.set f.place none) now = .ok none)

/-- The peek agrees with the reader; between the look of a tick and its act no command comes
and no entry expires; and the act raises nothing. -/
def Calm (s : State) : Label → Prop
  | .pass d => s.phase = .resting ∨ readAfk py s.files (s.now + d) = readAfk py s.files s.now
  | .on _ | .off | .read => s.phase = .resting
  | .peek => ∀ idle idleSeconds place, s.phase = .looked idle idleSeconds place →
      Agrees py s.files s.now idle
  | .write _ ok | .unlink ok => ok = true
  | _ => True

section Decidable

variable (f : Files) (now : Seconds)

instance (p : AfkState → Prop) [DecidablePred p] :
    Decidable (∀ st, readAfk py f now = .ok (some st) → p st) :=
  match h : readAfk py f now with
  | .error _ => .isTrue (by simp)
  | .ok none => .isTrue (by simp)
  | .ok (some st) => decidable_of_iff (p st) (by simp)

instance : Decidable (IdleActive py f now) :=
  decidable_of_iff (¬∀ st, readAfk py f now = .ok (some st) → st.source ≠ idleSource)
    (by simp [IdleActive])

instance : (idle : Bool) → Decidable (Agrees py f now idle)
  | true => inferInstanceAs (Decidable ((_ → _) ∧ ∀ st, readAfk py f now = .ok (some st) → _ ≠ _))
  | false => inferInstanceAs (Decidable ((_ ↔ IdleActive py f now) ∧ (_ → _)))

instance (s : State) : (l : Label) → Decidable (Calm py s l)
  | .pass d => inferInstanceAs (Decidable (_ ∨ readAfk py _ _ = readAfk py _ _))
  | .on _ | .off | .read => inferInstanceAs (Decidable (s.phase = .resting))
  | .write _ ok | .unlink ok => inferInstanceAs (Decidable (ok = true))
  | .look _ _ | .resolve => .isTrue trivial
  | .peek =>
    match h : s.phase with
    | .looked idle _ _ => decidable_of_iff (Agrees py s.files s.now idle) (by simp [Calm, h])
    | .resting | .enabling _ | .writing _ _ | .clearing _ => .isTrue (by simp [Calm, h])

end Decidable

/-! ### The invariant -/

/-- What the monitor knows, where it stands. -/
def Known (f : Files) (now : Seconds) : Phase → Prop
  | .resting => True
  | .looked _ _ place => place = f.place
  | .enabling _ => ∀ st, readAfk py f now ≠ .ok (some st)
  | .writing _ place => place = f.place ∧ ∀ st, readAfk py f now ≠ .ok (some st)
  | .clearing place => place = f.place ∧ IdleActive py f now ∧
      readAfk py (f.set f.place none) now = .ok none

/-- The invariant: every tick so far has acted as it is to, and the one under way will. -/
structure Sound (s : State) : Prop where
  known : Known py s.files s.now s.phase
  acts : ∀ e ∈ s.log, e.Acts py

variable {py} {s s' : State} {l : Label}

/-- A tick that ends without an act. -/
theorem Sound.rest (h : Sound py s) {idle : Option Bool}
    (hacts : Event.Acts py ⟨idle, s.now, s.files, s.files⟩) : Sound py (s.rest idle) :=
  ⟨trivial, List.forall_mem_cons.mpr ⟨hacts, h.acts⟩⟩

/-- A tick that ends with an act. -/
theorem Sound.act (h : Sound py s) {idle : Bool} {files : Files}
    (hacts : Event.Acts py ⟨some idle, s.now, s.files, files⟩) : Sound py (s.act idle files) :=
  ⟨trivial, List.forall_mem_cons.mpr ⟨hacts, h.acts⟩⟩

/-- Time passes, and no entry expires that the tick goes by. -/
theorem Known.pass {f : Files} {now now' : Seconds} {phase : Phase} (h : Known py f now phase)
    (hle : now ≤ now') (hsame : phase = .resting ∨ readAfk py f now' = readAfk py f now) :
    Known py f now' phase := by
  rcases hsame with rfl | hsame
  · trivial
  · cases phase with
    | resting => trivial
    | looked idle idleSeconds place => exact h
    | enabling idleSeconds => exact fun st => hsame ▸ h st
    | writing idleSeconds place => exact ⟨h.1, fun st => hsame ▸ h.2 st⟩
    | clearing place =>
      obtain ⟨hplace, ⟨st, hst, hsource⟩, hnone⟩ := h
      exact ⟨hplace, ⟨st, hsame.trans hst, hsource⟩, readAfk_eq_none_mono hnone hle⟩

/-- The peek, where it agrees with the reader. -/
theorem Sound.peek (h : Sound py s) {idle : Bool} {idleSeconds : Seconds}
    (hagrees : Agrees py s.files s.now idle) :
    Sound py (afterPeek s idle idleSeconds s.files.place) := by
  unfold afterPeek
  cases idle with
  | true =>
    obtain ⟨hfree, hheld⟩ := hagrees
    rcases hsource : readAfkSource (s.files.get s.files.place) with _ | _ | source
    · refine h.rest ⟨fun hread => ?_, fun _ _ => rfl⟩
      exact absurd (hsource.symm.trans (hfree hread)) (by simp)
    · exact ⟨fun st hst => hheld st hst hsource, h.acts⟩
    · refine h.rest ⟨fun hread => ?_, fun _ _ => rfl⟩
      exact absurd (hsource.symm.trans (hfree hread)) (by simp)
  | false =>
    obtain ⟨hown, hlast⟩ := hagrees
    -- the monitor's entry is active just where the peek says so
    have hrest : readAfkSource (s.files.get s.files.place) ≠ .ok (some idleSource) →
        Sound py (s.rest (some false)) := fun hne =>
      h.rest ⟨fun hactive => absurd (hown.mpr hactive) hne, fun _ => rfl⟩
    rcases hsource : readAfkSource (s.files.get s.files.place) with _ | _ | source
    · exact hrest (by simp [hsource])
    · exact hrest (by simp [hsource])
    · dsimp only
      split_ifs with hidle
      · have hactive := hown.mp (hidle ▸ hsource)
        exact ⟨⟨rfl, hactive, hlast hactive⟩, h.acts⟩
      · exact hrest (by simp [hsource, hidle])

variable {cfg : Config} {scalar : Text → Except LoadError Value} {node : Text → Prop}

/-- What a step keeps. -/
theorem Sound.step (hpy : Conforms py scalar node) (h : Sound py s) (hg : Calm py s l)
    (hstep : step py cfg s l = some s') : Sound py s' := by
  obtain ⟨now, files, phase, log⟩ := s
  -- what is done between two ticks
  have hresting : ∀ files', phase = .resting → Sound py ⟨now, files', phase, log⟩ := by
    rintro files' rfl
    exact ⟨trivial, h.acts⟩
  cases l with
  | pass d =>
    simp only [Afk.step] at hstep
    split_ifs at hstep with hd
    obtain rfl := Option.some.inj hstep
    exact ⟨h.known.pass (le_add_of_nonneg_right hd) hg, h.acts⟩
  | on content =>
    obtain rfl := Option.some.inj hstep
    exact hresting _ hg
  | off =>
    obtain rfl := Option.some.inj hstep
    exact hresting _ hg
  | read =>
    obtain rfl := Option.some.inj hstep
    exact hresting _ hg
  | look inert age =>
    cases phase with
    | resting =>
      obtain rfl := Option.some.inj hstep
      split
      · exact h.rest rfl
      · exact ⟨rfl, h.acts⟩
    | _ => exact absurd hstep (by simp [Afk.step])
  | peek =>
    cases phase with
    | looked idle idleSeconds place =>
      obtain rfl := Option.some.inj hstep
      obtain rfl : place = files.place := h.known
      exact h.peek (hg idle idleSeconds _ rfl)
    | _ => exact absurd hstep (by simp [Afk.step])
  | resolve =>
    cases phase with
    | enabling idleSeconds =>
      obtain rfl := Option.some.inj hstep
      exact ⟨⟨rfl, h.known⟩, h.acts⟩
    | _ => exact absurd hstep (by simp [Afk.step])
  | write i ok =>
    cases phase with
    | writing idleSeconds place =>
      obtain rfl : ok = true := hg
      simp only [Afk.step] at hstep
      split_ifs at hstep with hi
      obtain rfl := Option.some.inj hstep
      obtain ⟨hplace, hnone⟩ : place = files.place ∧ _ := h.known
      subst hplace
      exact h.act ⟨fun _ => readAfk_idleText hpy files hi idleSeconds now,
        fun st hst => absurd hst (hnone st)⟩
    | _ => exact absurd hstep (by simp [Afk.step])
  | unlink ok =>
    cases phase with
    | clearing place =>
      obtain rfl : ok = true := hg
      obtain rfl := Option.some.inj hstep
      obtain ⟨hplace, hactive, hnone⟩ : place = files.place ∧ _ := h.known
      subst hplace
      exact h.act ⟨fun _ => hnone, fun hnot => absurd hactive hnot⟩
    | _ => exact absurd hstep (by simp [Afk.step])

/-- **The monitor refines its reference machine**, in every run in which its peeks agree with
`read_afk` and nothing happens to the file between the look and the act of a tick. -/
theorem acts_of_calm {now : Seconds} {files : Files} {s : State} {ls : List Label}
    (hpy : Conforms py scalar node)
    (h : Lts.Run (Lts.Under (Calm py) (Lts.ofStep (step py cfg)))
      ⟨now, files, .resting, []⟩ ls s) :
    ∀ e ∈ s.log, e.Acts py := by
  have h₀ : Sound py ⟨now, files, .resting, []⟩ :=
    ⟨trivial, fun _ he => absurd he List.not_mem_nil⟩
  exact (h.inv_state h₀ fun a l b ha hl => ha.step hpy hl.1 hl.2).acts

/-! ### Ticks -/

/-- The monitor of a daemon that waits half an hour. -/
def halfHour : Config := ⟨30⟩

/-- A tick of an idle human, and one of a human who is back. -/
def idleTick : List Label := [.look false (some 3600), .peek, .resolve, .write ⟨0, 0⟩ true]

/-- A tick that clears what the one before it has enabled. -/
def backTick : List Label := [.look false (some 0), .peek, .unlink true]

/-- AFK goes on, and off again. -/
theorem acts_of_calm_ticks : ∃ s : State, s.files = ⟨none, none⟩ ∧ s.log.length = 2 ∧
    ∀ e ∈ s.log, e.Acts afkPython := by
  obtain ⟨s, hrun, hs⟩ := Lts.exists_under_run_of_exec (step afkPython halfHour)
    (C := Calm afkPython) (fun s l => decide (Calm afkPython s l)) (fun _ _ => of_decide_eq_true)
    ⟨0, ⟨none, none⟩, .resting, []⟩ (idleTick ++ [.pass 60] ++ backTick)
    (fun s => s.files = ⟨none, none⟩ ∧ s.log.length = 2) (by decide +kernel)
  obtain ⟨hfiles, hlog⟩ := of_decide_eq_true hs
  exact ⟨s, hfiles, hlog, acts_of_calm conforms_afkPython hrun⟩

/-- What `afk on` writes. -/
def manualEntry : Content :=
  .text (lit "enabled_at: 2026-05-18T12:00:00+00:00\nsource: manual\n")

/-- `afk on` comes after the peek of an idle human's tick: its entry is overwritten. -/
theorem not_acts : ∃ (ls : List Label) (s : State),
    Lts.Run (Lts.ofStep (step afkPython halfHour)) ⟨0, ⟨none, none⟩, .resting, []⟩ ls s ∧
      ¬∀ e ∈ s.log, e.Acts afkPython := by
  obtain ⟨s, hrun, hs⟩ := Lts.exists_run_of_exec (step afkPython halfHour)
    ⟨0, ⟨none, none⟩, .resting, []⟩
    [.look false (some 3600), .peek, .on manualEntry, .resolve, .write ⟨0, 0⟩ true]
    (fun s => s.log = [⟨some true, 0, ⟨some manualEntry, none⟩,
      ⟨some (.text (idleText ⟨0, 0⟩ 3600)), none⟩⟩]) (by decide +kernel)
  refine ⟨_, s, hrun, fun h => ?_⟩
  have hacts := h _ (by rw [of_decide_eq_true hs]; exact List.mem_singleton_self _)
  have hread : readAfk afkPython ⟨some manualEntry, none⟩ 0 =
      .ok (some ⟨1779105600, none, lit "manual", []⟩) := by decide +kernel
  have hsame := hacts.2 _ hread
  exact absurd (congrArg Files.preferred hsame) (by decide +kernel)

end Afk

end OtamanBridge
