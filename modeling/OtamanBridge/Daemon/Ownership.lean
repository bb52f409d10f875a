import Mathlib.Data.Fintype.Basic
import OtamanBridge.Daemon.Process

/-!
# Whose endpoint file it is

The hook, the command line and the tools find the daemon of an account by the endpoint file, so
the file should name the daemon that serves. Each step of `start` and `stop` sees only the file
as it was: a daemon that stops removes whatever is there by then, and so does a command that has
found nobody. So it takes an order (`OtamanBridge.Daemon.Orderly`): a daemon gets past the check of
`start` while no other one is past it or serves, and neither a daemon that stops nor a command
removes the file while somebody writes it or serves. Daemons may die at any time, and files may
resist. Then at most one daemon serves, the file names it, with its port, and a command that
reports success leaves none behind (`OtamanBridge.Daemon.owned_of_run`). Without the order a daemon
may serve that nobody finds (`OtamanBridge.Daemon.exists_orphan`).
-/

namespace OtamanBridge

namespace Daemon

variable {D C : Type} {s s' : State D C} {l : Label D C} {d : D} {c : C}

/-! ### The order -/

namespace Phase

/-- In `start`, past the check: the daemon takes it that nobody else serves. -/
@[simp]
def claims : Phase D → Bool
  | .replacing => true
  | .binding => true
  | .bound _ => true
  | .writing _ => true
  | _ => false

/-- The daemon serves. -/
@[simp]
def serves : Phase D → Bool
  | .serving _ => true
  | _ => false

/-- The file that is there is the daemon's. -/
@[simp]
def holds : Phase D → Bool
  | .writing _ => true
  | .serving _ => true
  | _ => false

end Phase

/-- No daemon is at such a place. -/
def NoneAt (place : Phase D → Bool) (s : State D C) : Prop :=
  ∀ d p, s.daemons d = some p → place p = false

/-- The steps that are in order. -/
def Orderly (s : State D C) : Label D C → Prop
  | .read _ => s.file.read = none → NoneAt Phase.claims s
  | .probe _ live => live = false → NoneAt Phase.claims s ∧ NoneAt Phase.serves s
  | .remove _ ok | .clean _ ok => ok = true → NoneAt Phase.holds s
  | _ => True

/-! ### The invariant -/

/-- The daemon serves at this port. -/
def Serves (s : State D C) (d : D) (port : ℕ) : Prop := s.daemons d = some (.serving port)

/-- Nobody serves. -/
def NoneServes (s : State D C) : Prop := ∀ d port, ¬Serves s d port

/-- **The invariant.** -/
structure Owned (s : State D C) : Prop where
  file : ∀ d port, Serves s d port → s.file = .full port d
  alone : ∀ d d' p p', s.daemons d = some p → s.daemons d' = some p' → p.claims → p'.claims → d = d'
  claims : ∀ d p, s.daemons d = some p → p.claims → NoneServes s

/-- A daemon that serves has its file there. -/
theorem NoneAt.noneServes (h : NoneAt Phase.holds s) : NoneServes s :=
  fun d port hd => absurd (h d _ hd) (by simp)

/-- Without a file that names a daemon, nobody serves. -/
theorem Owned.noneServes_of_read (h : Owned s) (hfile : s.file.read = none) : NoneServes s := by
  intro d port hd
  rw [h.file d port hd] at hfile
  exact absurd hfile (by simp [EndpointFile.read])

/-- Beside one that is past the check, none is. -/
theorem Owned.others (h : Owned s) {p : Phase D} (hp : s.daemons d = some p) (hclaims : p.claims)
    (d' : D) (p' : Phase D) (hne : d' ≠ d) (hp' : s.daemons d' = some p') : ¬p'.claims :=
  fun hother => hne (h.alone d' d p' p hp' hp hother hclaims)

/-! ### One daemon moves -/

section Daemons

variable [DecidableEq D]

/-- A daemon that does not come to serve makes nobody serve. -/
theorem Serves.of_move {p : Phase D} (hp : ∀ port, p ≠ .serving port) {d' : D} {port : ℕ}
    (h : Serves (s.moveDaemon d p) d' port) : d' ≠ d ∧ Serves s d' port := by
  rcases Lts.update_eq_some h with ⟨-, heq⟩ | hold
  · exact absurd (Option.some.inj heq) (hp port)
  · exact hold

theorem NoneServes.move (h : NoneServes s) {q : Phase D} (hq : ∀ port, q ≠ .serving port) :
    NoneServes (s.moveDaemon d q) :=
  fun d' port hs => h d' port (Serves.of_move hq hs).2

/-- **A daemon that does not come to serve**: if it is past the check it is so alone, and it
leaves the file alone or knows that nobody serves. -/
theorem Owned.move (h : Owned s) {q : Phase D} (hq : ∀ port, q ≠ .serving port)
    (hclaims : q.claims → NoneServes s ∧
      ∀ d' p, d' ≠ d → s.daemons d' = some p → ¬p.claims)
    {f : EndpointFile D} (hfile : f = s.file ∨ NoneServes s) :
    Owned ((s.withFile f).moveDaemon d q) := by
  refine ⟨fun d' port hd => ?_, fun d' d'' p p' hp hp' hc hc' => ?_, fun d' p hp hc => ?_⟩
  · have hserves : Serves s d' port := (Serves.of_move (s := s) hq hd).2
    rcases hfile with rfl | hnone
    · exact h.file d' port hserves
    · exact absurd hserves (hnone d' port)
  · rcases Lts.update_eq_some hp with ⟨rfl, heq⟩ | ⟨hne, hold⟩ <;>
      rcases Lts.update_eq_some hp' with ⟨rfl, heq'⟩ | ⟨hne', hold'⟩
    · rfl
    · obtain rfl := Option.some.inj heq
      exact absurd hc' ((hclaims hc).2 d'' p' hne' hold')
    · obtain rfl := Option.some.inj heq'
      exact absurd hc ((hclaims hc').2 d' p hne hold)
    · exact h.alone d' d'' p p' hold hold' hc hc'
  · rcases Lts.update_eq_some hp with ⟨rfl, heq⟩ | ⟨-, hold⟩
    · obtain rfl := Option.some.inj heq
      exact (hclaims hc).1.move hq
    · exact (h.claims d' p hold hc).move hq

/-- A daemon that is past the check goes on. -/
theorem Owned.goesOn (h : Owned s) {p q : Phase D} (hp : s.daemons d = some p) (hclaims : p.claims)
    (hq : ∀ port, q ≠ .serving port) (f : EndpointFile D) :
    Owned ((s.withFile f).moveDaemon d q) :=
  have hnone : NoneServes s := h.claims d p hp hclaims
  h.move hq (fun _ => ⟨hnone, h.others hp hclaims⟩) (.inr hnone)

/-- **A daemon begins to start.** -/
theorem Owned.read (h : Owned s) (hl : s.file.read = none → NoneAt Phase.claims s) :
    Owned (s.moveDaemon d (afterRead s.file)) := by
  rcases hread : s.file.read with _ | ⟨port, owner⟩
  · simp only [afterRead, hread]
    exact h.move (f := s.file) (by simp) (fun _ => ⟨h.noneServes_of_read hread,
      fun d' p _ hp => Bool.eq_false_iff.mp (hl hread d' p hp)⟩) (.inl rfl)
  · simp only [afterRead, hread]
    exact h.move (f := s.file) (by simp) (by simp) (.inl rfl)

/-- **A daemon comes to serve**: nobody else serves, or is past the check. -/
theorem Owned.write (h : Owned s) {port : ℕ} (hat : s.daemons d = some (.writing port)) :
    Owned ((s.withFile (.full port d)).moveDaemon d (.serving port)) := by
  have hnone : NoneServes s := h.claims d _ hat rfl
  have hothers := h.others hat rfl
  refine ⟨fun d' port' hd => ?_, fun d' d'' p p' hp hp' hc hc' => ?_, fun d' p hp hc => ?_⟩
  · rcases Lts.update_eq_some hd with ⟨rfl, heq⟩ | ⟨-, hold⟩
    · obtain rfl : port = port' := by simpa using heq
      rfl
    · exact absurd hold (hnone d' port')
  · rcases Lts.update_eq_some hp with ⟨-, heq⟩ | ⟨hne, hold⟩
    · obtain rfl := Option.some.inj heq
      exact absurd hc (by simp)
    · exact absurd hc (hothers d' p hne hold)
  · rcases Lts.update_eq_some hp with ⟨-, heq⟩ | ⟨hne, hold⟩
    · obtain rfl := Option.some.inj heq
      exact absurd hc (by simp)
    · exact absurd hc (hothers d' p hne hold)

omit [DecidableEq D] in
theorem State.unlinked_eq (s : State D C) (ok : Bool) :
    s.unlinked ok = s.withFile (if ok then .absent else s.file) := by
  cases ok <;> rfl

/-- **Every step of a daemon keeps the invariant.** -/
theorem Owned.daemonStep (h : Owned s) (hstep : DaemonStep s d l s') (hl : Orderly s l) :
    Owned s' := by
  cases hstep with
  | read hnew => exact h.read hl
  | live hat => exact h.move (f := s.file) (by simp) (by simp) (.inl rfl)
  -- past the check: nobody else is past it or serves, so this daemon may claim the file
  | stale hat =>
    obtain ⟨hclaims, hserves⟩ := hl rfl
    exact h.move (f := s.file) (by simp) (fun _ => ⟨fun d' port hd => absurd (hserves d' _ hd)
      (by simp), fun d' p _ hp => Bool.eq_false_iff.mp (hclaims d' p hp)⟩) (.inl rfl)
  | replace hat =>
    rw [State.unlinked_eq]
    exact h.goesOn hat rfl (by simp) _
  | bind hat => exact h.goesOn hat rfl (by simp) s.file
  | truncate hat => exact h.goesOn hat rfl (by simp) _
  | write hat => exact h.write hat
  | stop hat | close hat | crash hat =>
    exact h.move (f := s.file) (by simp) (by simp) (.inl rfl)
  | @remove ok hat =>
    rw [State.unlinked_eq]
    refine h.move (by simp) (by simp) ?_
    cases ok with
    | false => exact .inl rfl
    | true => exact .inr (hl rfl).noneServes

end Daemons

/-! ### One command moves -/

section Commands

variable [DecidableEq C]

/-- **A command gets further**, and leaves the file alone or knows that nobody serves. -/
theorem Owned.moveStop (h : Owned s) {q : StopPhase D} {f : EndpointFile D}
    (hfile : f = s.file ∨ NoneServes s) : Owned ((s.withFile f).moveStop c q) := by
  refine ⟨fun d port hd => ?_, h.alone, h.claims⟩
  rcases hfile with rfl | hnone
  · exact h.file d port hd
  · exact absurd hd (hnone d port)

/-- **Every step of a command keeps the invariant.** -/
theorem Owned.commandStep (h : Owned s) (hstep : CommandStep s c l s') (hl : Orderly s l) :
    Owned s' := by
  cases hstep with
  | @clean ok hat =>
    unfold Daemon.clean
    split
    · exact h.moveStop (f := s.file) (.inl rfl)
    · exact h.moveStop (f := s.file) (.inl rfl)
    · exact h.moveStop (.inr (hl rfl).noneServes)
  | _ => exact h.moveStop (f := s.file) (.inl rfl)

/-- A command that comes to return 0 has read no daemon from the file, has seen the file gone,
or has removed it; and nobody serves. -/
theorem Owned.returned (h : Owned s) (hstep : CommandStep s c l s') (hl : Orderly s l) {c' : C}
    (hbefore : s.stops c' ≠ some (.returned 0)) (hafter : s'.stops c' = some (.returned 0)) :
    NoneServes s' := by
  have hmoved : ∀ {q : StopPhase D}, (s.moveStop c q).stops c' = some (.returned 0) →
      q = .returned 0 := by
    intro q hq
    rcases Lts.update_eq_some hq with ⟨-, heq⟩ | ⟨-, hold⟩
    · exact Option.some.inj heq
    · exact absurd hold hbefore
  cases hstep with
  -- a command that finds no file returns 0 at once
  | stopRead hnew =>
    rcases hread : s.file.read with _ | ⟨port, owner⟩
    · exact h.noneServes_of_read hread
    · have hq := hmoved hafter
      simp only [afterStopRead, hread] at hq
      exact absurd hq (by simp)
  | accept hat => exact absurd (hmoved hafter) (by simp)
  | miss hat => exact absurd (hmoved hafter) (by simp)
  | fail hat => exact absurd (hmoved hafter) (by simp)
  | gone hat hfile => exact h.noneServes_of_read (by rw [hfile]; rfl)
  | hung hat => exact absurd (hmoved hafter) (by simp)
  | left hat => exact absurd (hmoved hafter) (by simp)
  -- the unlink that ends a stop is only orderly where nobody serves
  | clean hat =>
    revert hafter
    unfold Daemon.clean
    split
    · exact fun hafter => absurd (hmoved hafter) (by simp)
    · exact fun hafter => absurd (hmoved hafter) (by simp)
    · exact fun _ => (hl rfl).noneServes

end Commands

/-! ### Runs -/

section Runs

variable [DecidableEq D] [DecidableEq C]

omit [DecidableEq D] [DecidableEq C] in
theorem owned_init : Owned (State.init : State D C) := ⟨nofun, nofun, nofun⟩

/-- **Every step that is in order keeps the invariant.** -/
theorem Owned.step (h : Owned s) (hl : Orderly s l) (hstep : step s l = some s') : Owned s' := by
  rcases step_cases hstep with ⟨d, hd⟩ | ⟨c, hc⟩
  · exact h.daemonStep hd hl
  · exact h.commandStep hc hl

/-- **The endpoint file is that of the daemon that serves.** In every run whose steps are in
order: no two daemons serve; the file names the one that does, with its port; and when a command
returns 0, nobody serves. -/
theorem owned_of_run {ls : List (Label D C)}
    (hrun : Lts.Run (Lts.Under Orderly (Lts.ofStep step)) State.init ls s) :
    (∀ d d' port port', Serves s d port → Serves s d' port' → d = d' ∧ port = port') ∧
      (∀ d port, Serves s d port → s.file = .full port d) ∧
      ∀ l s' c, Orderly s l → step s l = some s' → s.stops c ≠ some (.returned 0) →
        s'.stops c = some (.returned 0) → NoneServes s' := by
  have h : Owned s := hrun.inv_state owned_init fun _ _ _ hI hl => hI.step hl.1 hl.2
  refine ⟨fun d d' port port' hd hd' => ?_, h.file, fun l s' c hl hstep hbefore hafter => ?_⟩
  · have heq := (h.file d port hd).symm.trans (h.file d' port' hd')
    injection heq with hport howner
    exact ⟨howner, hport⟩
  · rcases step_cases hstep with ⟨d, hd⟩ | ⟨c', hc'⟩
    · -- the steps of the daemons leave the commands where they are
      have hstops : s'.stops = s.stops := by
        cases hd with
        | replace hat | remove hat =>
          rw [State.unlinked_eq]
          rfl
        | _ => rfl
      rw [hstops] at hafter
      exact absurd hafter hbefore
    · exact h.returned hc' hl hbefore hafter

end Runs

/-! ### Two daemons -/

instance (place : Phase D → Bool) (s : State D C) [Fintype D] : Decidable (NoneAt place s) :=
  decidable_of_iff (∀ d, ((s.daemons d).all fun p => !place p) = true) <| by
    simp [NoneAt, Option.all_eq_true]

instance [Fintype D] (s : State D C) : (l : Label D C) → Decidable (Orderly s l)
  | .read _ => inferInstanceAs (Decidable (_ = none → NoneAt Phase.claims s))
  | .probe _ _ => inferInstanceAs (Decidable (_ → NoneAt Phase.claims s ∧ NoneAt Phase.serves s))
  | .remove _ _ | .clean _ _ => inferInstanceAs (Decidable (_ → NoneAt Phase.holds s))
  | .replace _ _ | .bind _ _ | .truncate _ | .write _ | .stop _ | .close _ | .crash _
  | .stopRead _ | .post _ _ | .look _ | .giveUp _ _ => .isTrue trivial

/-- A daemon starts, and a command stops it. -/
def startedAndStopped : List (Label Bool Unit) :=
  [.read true, .bind true 1, .truncate true, .write true, .stopRead (), .post () .accepted,
    .stop true, .close true, .remove true true, .look ()]

/-- The command has returned 0. -/
def stopped (s : State Bool Unit) : Bool :=
  match s.stops () with
  | some (.returned 0) => true
  | _ => false

theorem owned_of_run_startedAndStopped : ∃ s : State Bool Unit, stopped s ∧
    ∀ d port, Serves s d port → s.file = .full port d := by
  obtain ⟨s, hrun, hs⟩ := Lts.exists_under_run_of_exec step (C := Orderly)
    (fun s l => decide (Orderly s l)) (fun _ _ => of_decide_eq_true) State.init
    startedAndStopped stopped (by decide +kernel)
  exact ⟨s, hs, (owned_of_run hrun).2.1⟩

/-- The second daemon starts while the first one stops: it has read the file of the first one,
and finds nobody at the port. -/
def overlapping : List (Label Bool Unit) :=
  [.read true, .bind true 1, .truncate true, .write true, .read false, .stop true, .close true,
    .probe false false, .replace false true, .bind false 2, .truncate false, .write false,
    .remove true true]

/-- There is no endpoint file, and the second daemon serves. -/
def orphaned (s : State Bool Unit) : Bool :=
  match s.file, s.daemons false with
  | .absent, some (.serving _) => true
  | _, _ => false

/-- **Out of order, a daemon may serve that nobody finds**: the first one has removed its file. -/
theorem exists_orphan : ∃ s : State Bool Unit,
    Lts.Run (Lts.ofStep step) State.init overlapping s ∧ orphaned s :=
  Lts.exists_run_of_exec step State.init overlapping orphaned (by decide +kernel)

end Daemon

end OtamanBridge
