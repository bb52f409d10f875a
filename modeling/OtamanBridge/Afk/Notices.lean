import OtamanBridge.Afk.Monitor
import OtamanBridge.Telegram.Cards

/-!
# The notices of the idle monitor

`AfkService` of `afk_service.py` gives the monitor two callbacks, one for each way to flip
AFK, that send a message. `_check_once` awaits the callback right after the file is written or
removed, but not if the one it awaited last was of the same kind: `_last_notified_state`.

Other programs change the file too. Once `afk off` has removed an entry of the monitor's, the
monitor writes another one, and that is again "enabled": AFK goes on and no message says so
(`OtamanBridge.Afk.Service.not_matched`). The messages match the flips exactly in the runs in
which no flip is of the kind of the last notice (`OtamanBridge.Afk.Service.matched_iff`), that
is, of the kind of the flip before it (`OtamanBridge.Afk.Service.lastNotified_of_run`).
-/

namespace OtamanBridge

namespace Afk

namespace Service

open Py

/-! ### Flips and their messages -/

/-- The values of `_last_notified_state`. -/
inductive Notice
  | enabled
  | cleared
  deriving DecidableEq

/-- What the monitor does to AFK: it enables it after so long, or clears it. -/
inductive Flip
  | enabled (idleSeconds : Seconds)
  | cleared
  deriving DecidableEq

/-- What a flip is to be notified as. -/
def Flip.notice : Flip → Notice
  | .enabled _ => .enabled
  | .cleared => .cleared

/-- What the service puts into its messages. -/
structure Wiring where
  account : Text
  /-- `idle_project`. -/
  project : Text

/-- The message of a callback made by `_make_notifier`. -/
def Wiring.message (w : Wiring) (title body : Text) : Telegram.InfoMessage where
  account := w.account
  project := w.project
  severity := .info
  title := title
  body := body
  sourceAgent := lit "bridge-daemon"
  busMessageId := []

/-- What `on_enabled` is told. -/
def reason (idleSeconds : Seconds) : Text :=
  decimal (idleSeconds / 60).floor.toNat ++ lit " min of inactivity"

/-- The message that is sent about a flip. -/
def Flip.message (w : Wiring) : Flip → Telegram.InfoMessage
  | .enabled idleSeconds =>
    w.message (lit "🌙 AFK auto-enabled")
      (lit "Idle auto-AFK triggered: " ++ reason idleSeconds ++
        lit ".\n\nApprovals will route here until you return. Send a prompt in Claude to clear it.")
  | .cleared =>
    w.message (lit "☀️ AFK cleared") (lit "User activity resumed — back to local prompts.")

/-! ### States and steps -/

/-- What is logged. -/
inductive Event
  /-- The monitor has written or removed the file. -/
  | flipped (f : Flip)
  /-- A callback calls `send_info`. -/
  | sent (msg : Telegram.InfoMessage)

/-- The flip that is logged. -/
def Event.flip : Event → Option Flip
  | .flipped f => some f
  | .sent _ => none

/-- The message that is logged. -/
def Event.message : Event → Option Telegram.InfoMessage
  | .flipped _ => none
  | .sent msg => some msg

/-- The monitor, and what it has notified. -/
structure State where
  monitor : Afk.State
  /-- `_last_notified_state`. -/
  lastNotified : Option Notice
  /-- The callback that is awaited. -/
  awaiting : Option Notice
  log : List Event

/-- The flips so far, newest first. -/
def State.flips (s : State) : List Flip := s.log.filterMap Event.flip

/-- The messages so far, newest first. -/
def State.messages (s : State) : List Telegram.InfoMessage := s.log.filterMap Event.message

/-- A new monitor. -/
def State.init (now : Seconds) (files : Files) : State where
  monitor := ⟨now, files, .resting, []⟩
  lastNotified := none
  awaiting := none
  log := []

/-- What a step is told. -/
inductive Label
  /-- A step of the monitor, a command, or the time. -/
  | monitor (l : Afk.Label)
  /-- Another program, such as a hook, leaves these files. -/
  | external (files : Files)
  /-- The callback returns: what was raised is caught. -/
  | answered

/-- How a step of the monitor flips AFK. -/
def flip (s : Afk.State) : Afk.Label → Option Flip
  | .write _ true =>
    match s.phase with
    | .writing idleSeconds _ => some (.enabled idleSeconds)
    | _ => none
  | .unlink true =>
    match s.phase with
    | .clearing _ => some .cleared
    | _ => none
  | _ => none

/-- A tick begins. -/
def begins : Afk.Label → Bool
  | .look _ _ => true
  | _ => false

variable (w : Wiring)

/-- What `_check_once` does when it has flipped AFK. -/
def notify (s : State) (f : Flip) : State :=
  if s.lastNotified = some f.notice then { s with log := .flipped f :: s.log }
  else
    { s with awaiting := some f.notice, log := .sent (f.message w) :: .flipped f :: s.log }

/-- One step. -/
def step (py : Python) (cfg : Config) (s : State) : Label → Option State
  | .monitor l =>
    if s.awaiting.isSome && begins l then none
    else
      (Afk.step py cfg s.monitor l).map fun m =>
        match flip s.monitor l with
        | none => { s with monitor := m }
        | some f => notify w { s with monitor := m } f
  | .external files => some { s with monitor := { s.monitor with files := files } }
  | .answered => s.awaiting.map fun n => { s with lastNotified := some n, awaiting := none }

/-! ### What is claimed -/

/-- **The notices match the flips**: the messages are those of the flips, in the same order. -/
def Matched (s : State) : Prop := s.messages = s.flips.map (Flip.message w)

/-- **A flip is not of the kind that was notified last.** -/
def Fresh (s : State) : Label → Prop
  | .monitor l => ∀ f ∈ flip s.monitor l, s.lastNotified ≠ some f.notice
  | .external _ | .answered => True

instance (s : State) : (l : Label) → Decidable (Fresh s l)
  | .monitor l => inferInstanceAs (Decidable (∀ f ∈ flip s.monitor l, _ ≠ _))
  | .external _ | .answered => .isTrue trivial

/-! ### What a step can do -/

variable {w} {py : Python} {cfg : Config} {s s' : State} {l : Label}

/-- The steps, by what they do. -/
inductive Step (w : Wiring) (s : State) : Label → State → Prop
  /-- The monitor, a command or the time goes on. -/
  | quiet {l : Afk.Label} {m : Afk.State} (hflip : flip s.monitor l = none)
      (hrests : s.awaiting.isSome → begins l = false)
      (hphase : begins l = false → s.monitor.phase = .resting → m.phase = .resting) :
      Step w s (.monitor l) { s with monitor := m }
  /-- A flip that is not notified. -/
  | silent {l : Afk.Label} {m : Afk.State} {f : Flip} (hflip : flip s.monitor l = some f)
      (hphase : s.monitor.phase ≠ .resting) (hlast : s.lastNotified = some f.notice) :
      Step w s (.monitor l) { s with monitor := m, log := .flipped f :: s.log }
  /-- A flip that is notified. -/
  | notify {l : Afk.Label} {m : Afk.State} {f : Flip} (hflip : flip s.monitor l = some f)
      (hphase : s.monitor.phase ≠ .resting) (hrests : m.phase = .resting)
      (hlast : s.lastNotified ≠ some f.notice) :
      Step w s (.monitor l) { s with
        monitor := m
        awaiting := some f.notice
        log := .sent (f.message w) :: .flipped f :: s.log }
  | external (files : Files) :
      Step w s (.external files) { s with monitor := { s.monitor with files := files } }
  | answered {n : Notice} (hn : s.awaiting = some n) :
      Step w s .answered { s with lastNotified := some n, awaiting := none }

/-- A flip is the last thing a tick does. -/
theorem phase_of_flip {m m' : Afk.State} {a : Afk.Label} {f : Flip} (h : flip m a = some f)
    (hstep : Afk.step py cfg m a = some m') : m.phase ≠ .resting ∧ m'.phase = .resting := by
  cases a with
  | write i ok =>
    cases ok with
    | false => exact absurd h (by simp [flip])
    | true =>
      cases hphase : m.phase with
      | writing idleSeconds place =>
        simp only [Afk.step, hphase] at hstep
        split_ifs at hstep
        obtain rfl := Option.some.inj hstep
        exact ⟨by simp, rfl⟩
      | _ => exact absurd h (by simp [flip, hphase])
  | unlink ok =>
    cases ok with
    | false => exact absurd h (by simp [flip])
    | true =>
      cases hphase : m.phase with
      | clearing place =>
        simp only [Afk.step, hphase] at hstep
        obtain rfl := Option.some.inj hstep
        exact ⟨by simp, rfl⟩
      | _ => exact absurd h (by simp [flip, hphase])
  | _ => exact absurd h (by simp [flip])

/-- Between two ticks only a new tick gets the monitor going. -/
theorem resting_of_step {m m' : Afk.State} {a : Afk.Label} (hbegins : begins a = false)
    (hphase : m.phase = .resting) (hstep : Afk.step py cfg m a = some m') :
    m'.phase = .resting := by
  cases a with
  | pass d =>
    simp only [Afk.step] at hstep
    split_ifs at hstep
    obtain rfl := Option.some.inj hstep
    exact hphase
  | look inert age => exact absurd hbegins (by simp [begins])
  | on content =>
    obtain rfl := Option.some.inj hstep
    exact hphase
  | off =>
    obtain rfl := Option.some.inj hstep
    exact hphase
  | read =>
    obtain rfl := Option.some.inj hstep
    exact hphase
  | _ => exact absurd hstep (by simp [Afk.step, hphase])

/-- **Every step is one of these.** -/
theorem Step.of_step (h : step w py cfg s l = some s') : Step w s l s' := by
  cases l with
  | external files =>
    obtain rfl := Option.some.inj h
    exact .external files
  | answered =>
    obtain ⟨n, hn, rfl⟩ := Option.map_eq_some_iff.mp h
    exact .answered hn
  | monitor a =>
    simp only [Service.step] at h
    split_ifs at h with hwaits
    obtain ⟨m, hm, rfl⟩ := Option.map_eq_some_iff.mp h
    split
    next hflip =>
      refine .quiet hflip (fun hawaits => ?_) fun hb hp => resting_of_step hb hp hm
      rw [hawaits, Bool.true_and] at hwaits
      exact Bool.eq_false_of_not_eq_true hwaits
    next f hflip =>
      obtain ⟨hphase, hrests⟩ := phase_of_flip hflip hm
      unfold Service.notify
      split_ifs with hlast
      · exact .silent hflip hphase hlast
      · exact .notify hflip hphase hrests hlast

/-! ### The last notice -/

/-- What the monitor has notified, or is about to, is its last flip. -/
structure Remembers (s : State) : Prop where
  /-- No tick is under way while a callback is awaited. -/
  rests : s.awaiting.isSome → s.monitor.phase = .resting
  last : s.awaiting.or s.lastNotified = s.flips.head?.map Flip.notice

theorem remembers_init (now : Seconds) (files : Files) : Remembers (State.init now files) where
  rests _ := rfl
  last := rfl

theorem Remembers.step (h : Remembers s) (hstep : Step w s l s') : Remembers s' := by
  have hidle : s.monitor.phase ≠ .resting → s.awaiting = none := fun hphase =>
    Option.not_isSome_iff_eq_none.mp fun hawaits => hphase (h.rests hawaits)
  cases hstep with
  | quiet hflip hrests hphase =>
    exact ⟨fun hawaits => hphase (hrests hawaits) (h.rests hawaits), h.last⟩
  | silent hflip hphase hlast =>
    have hnone := hidle hphase
    refine ⟨fun hawaits => absurd hawaits (by simp [hnone]), ?_⟩
    show s.awaiting.or s.lastNotified = _
    rw [hnone, hlast]
    rfl
  | notify hflip hphase hrests hlast => exact ⟨fun _ => hrests, rfl⟩
  | external files => exact ⟨h.rests, h.last⟩
  | answered hn =>
    refine ⟨fun hawaits => absurd hawaits (by simp), ?_⟩
    have hlast := h.last
    rw [hn] at hlast
    exact hlast

/-- **`_last_notified_state` is the kind of the last flip**, in every run, when no callback is
awaited. -/
theorem lastNotified_of_run {now : Seconds} {files : Files} {ls : List Label}
    (h : Lts.Run (Lts.ofStep (step w py cfg)) (State.init now files) ls s)
    (hawaits : s.awaiting = none) : s.lastNotified = s.flips.head?.map Flip.notice := by
  have hI := h.inv_state (I := Remembers) (remembers_init now files)
    fun _ _ _ ha hl => ha.step (.of_step hl)
  rw [← hI.last, hawaits]
  rfl

/-! ### When the notices match -/

/-- A step that flips nothing logs nothing; one that does logs the flip, and its message if
it is not of the kind notified last. -/
theorem matched_step (h : Matched w s) (hfresh : Fresh s l) (hstep : Step w s l s') :
    Matched w s' := by
  cases hstep with
  | quiet => exact h
  | silent hflip _ hlast => exact absurd hlast (hfresh _ hflip)
  | notify =>
    show _ :: s.messages = (_ :: s.flips).map (Flip.message w)
    rw [List.map_cons, ← show s.messages = _ from h]
  | external => exact h
  | answered => exact h

/-- A flip has gone without a message. -/
def Missed (s : State) : Prop := s.messages.length < s.flips.length

theorem missed_of_not_fresh (h : Matched w s) (hfresh : ¬Fresh s l) (hstep : Step w s l s') :
    Missed s' := by
  cases hstep with
  | quiet hflip => exact absurd (fun f hf => absurd (hflip.symm.trans hf) (by simp)) hfresh
  | silent =>
    show s.messages.length < (s.flips.length + 1)
    rw [show s.messages = _ from h, List.length_map]
    omega
  | notify hflip _ _ hlast =>
    refine absurd (fun f' hf' => ?_) hfresh
    obtain rfl := Option.some.inj (hflip.symm.trans hf')
    exact hlast
  | external => exact absurd trivial hfresh
  | answered => exact absurd trivial hfresh

/-- No later message makes up for it. -/
theorem Missed.step (h : Missed s) (hstep : Step w s l s') : Missed s' := by
  cases hstep with
  | quiet => exact h
  | silent => exact Nat.lt_succ_of_lt h
  | notify => exact Nat.succ_lt_succ h
  | external => exact h
  | answered => exact h

theorem Missed.unmatched (h : Missed s) : ¬Matched w s := by
  intro hmatched
  have hlt : s.messages.length < s.flips.length := h
  rw [show s.messages = _ from hmatched, List.length_map] at hlt
  exact lt_irrefl _ hlt

/-- **When the notices match the flips.** In every run of ticks, of commands and of other
changes to the files, the messages sent are those of the monitor's flips, in the same order,
exactly if no flip was of the kind that was notified last. -/
theorem matched_iff {now : Seconds} {files : Files} {ls : List Label}
    (h : Lts.Run (Lts.ofStep (step w py cfg)) (State.init now files) ls s) :
    Matched w s ↔ Lts.Run (Lts.Under Fresh (Lts.ofStep (step w py cfg)))
      (State.init now files) ls s := by
  have h₀ : Matched w (State.init now files) := rfl
  refine Lts.Run.iff_under (P := Matched w) (B := Missed) h₀ ?_ ?_ ?_ (fun _ => ?_) h
  · exact fun a l b ha hfresh hl => matched_step ha hfresh (.of_step hl)
  · exact fun a l b ha hfresh hl => missed_of_not_fresh ha hfresh (.of_step hl)
  · exact fun a l b ha hl => ha.step (.of_step hl)
  · exact Missed.unmatched

/-- The account and the project of a daemon. -/
def home : Wiring := ⟨lit "primary", lit "otaman"⟩

/-- AFK goes on and off again, with a message each. -/
theorem matched_ticks : ∃ s : State, s.flips = [.cleared, .enabled 3600] ∧
    s.messages = [Flip.cleared, .enabled 3600].map (Flip.message home) := by
  obtain ⟨s, hrun, hs⟩ := Lts.exists_under_run_of_exec (step home afkPython halfHour)
    (C := Fresh) (fun s l => decide (Fresh s l)) (fun _ _ => of_decide_eq_true)
    (State.init 0 ⟨none, none⟩)
    (idleTick.map .monitor ++ [.answered, .monitor (.pass 60)] ++ backTick.map .monitor)
    (fun s => s.flips = [.cleared, .enabled 3600]) (by decide +kernel)
  have hflips := of_decide_eq_true hs
  refine ⟨s, hflips, ?_⟩
  rw [← hflips]
  exact (matched_iff hrun.of_under).mpr hrun

/-- `afk off` comes between two ticks of an idle human: AFK is enabled twice, with one
message. -/
theorem not_matched : ¬∀ (w : Wiring) (py : Python) (cfg : Config) (now : Seconds)
    (files : Files) (ls : List Label) (s : State),
    Lts.Run (Lts.ofStep (step w py cfg)) (State.init now files) ls s → Matched w s := by
  intro h
  obtain ⟨s, hrun, hs⟩ := Lts.exists_run_of_exec (step home afkPython halfHour)
    (State.init 0 ⟨none, none⟩)
    (idleTick.map .monitor ++ [.answered, .monitor .off] ++ idleTick.map .monitor)
    (fun s => s.messages.length = 1 ∧ s.flips.length = 2) (by decide +kernel)
  obtain ⟨hmessages, hflips⟩ := of_decide_eq_true hs
  have hlen := congrArg List.length (h _ _ _ _ _ _ s hrun)
  rw [List.length_map, hmessages, hflips] at hlen
  exact absurd hlen (by decide)

end Service

end Afk

end OtamanBridge
