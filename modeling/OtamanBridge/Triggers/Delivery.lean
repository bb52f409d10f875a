import OtamanBridge.Lib.Custody
import OtamanBridge.Triggers.Filesystem

/-!
# What the event source delivers

A path is put into `_seen` under the lock before its file is read, and is never taken out. So
a path is taken by one call at most, which has it until it calls the handler or gives the path
up: the calls have custody of the paths taken (`OtamanBridge.Custody`), and in every run each
path is handed over at most once (`OtamanBridge.Triggers.handedOnce_of_run`).

For the same reason a path that was given up is never tried again. A file whose writer is
slower than the five attempts is lost, also to a `process_pending` that finds it complete
(`OtamanBridge.Triggers.not_delivers`); and `process_pending` does not wait for a call that
still reads one of the files it lists. These two, and what the constructor was told has been
seen, are the only ways: when `process_pending` returns, it has handed over all other files
whose front matter parsed throughout the call (`OtamanBridge.Triggers.delivers_of_run`).
-/

namespace OtamanBridge

namespace Triggers

open Py

/-! ### What is claimed -/

/-- The path that is put into `_seen`. -/
def Event.takes : Event → Option Text
  | .took path => some path
  | .dropped _ | .handed _ | .returned .. => none

/-- The path that a call has done with. -/
def Event.ends : Event → Option Text
  | .dropped path | .handed path => some path
  | .took _ | .returned .. => none

/-- The path that is passed to the handler. -/
def Event.hands : Event → Option Text
  | .handed path => some path
  | .took _ | .dropped _ | .returned .. => none

/-- **Each path is passed to the handler at most once.** -/
def HandedOnce (log : List Event) : Prop := (log.filterMap Event.hands).Nodup

/-- **Nothing is lost**: when `process_pending` returns, every message file whose front matter
parsed throughout the call has been passed to the handler. -/
def NoLoss (log : List Event) : Prop :=
  ∀ later steady gaveUp earlier, log = later ++ .returned steady gaveUp :: earlier →
    ∀ path ∈ steady, .handed path ∈ earlier

/-- **What `process_pending` recovers**: when it returns, a message file whose front matter
parsed throughout the call has been passed to the handler, unless it was in `seen` from the
start, was given up before the call began, or was taken by a call that has yet to hand it
over. -/
def Recovers (seen : Text → Bool) (log : List Event) : Prop :=
  ∀ later steady gaveUp earlier, log = later ++ .returned steady gaveUp :: earlier →
    ∀ path ∈ steady, .handed path ∈ earlier ∨ seen path ∨ path ∈ gaveUp ∨
      .took path ∈ earlier ∧ .dropped path ∉ earlier

variable {T : Type}

/-- The path that a call has taken, and has not done with. -/
def Phase.path : Phase → Option Text
  | .reading path _ | .handing path => some path
  | .entered | .next => none

/-- The path that a thread has. -/
def State.held (s : State T) (t : T) : Option Text := (s.calls t).bind fun call => call.phase.path

/-- **No path that was taken is forgotten**: it has been handed over or given up, or a call has
it. -/
def InHand (s : State T) : Prop :=
  ∀ path, .took path ∈ s.log → .handed path ∈ s.log ∨ .dropped path ∈ s.log ∨
    ∃ t, s.held t = some path

/-! ### The log -/

variable {log : List Event} {path : Text}

/-- What is handed over is done with. -/
theorem Event.ends_of_hands {e : Event} (h : e.hands = some path) : e.ends = some path := by
  cases e with
  | handed => exact h
  | _ => exact absurd h (by simp [Event.hands])

theorem mem_takes : path ∈ log.filterMap Event.takes ↔ .took path ∈ log := by
  constructor
  · intro h
    obtain ⟨e, he, htakes⟩ := List.mem_filterMap.mp h
    cases e with
    | took p =>
      obtain rfl := Option.some.inj htakes
      exact he
    | _ => exact absurd htakes (by simp [Event.takes])
  · exact fun h => List.mem_filterMap.mpr ⟨_, h, rfl⟩

theorem mem_ends : path ∈ log.filterMap Event.ends ↔ .dropped path ∈ log ∨ .handed path ∈ log := by
  constructor
  · intro h
    obtain ⟨e, he, hends⟩ := List.mem_filterMap.mp h
    cases e with
    | dropped p =>
      obtain rfl := Option.some.inj hends
      exact .inl he
    | handed p =>
      obtain rfl := Option.some.inj hends
      exact .inr he
    | _ => exact absurd hends (by simp [Event.ends])
  · rintro (h | h)
    · exact List.mem_filterMap.mpr ⟨_, h, rfl⟩
    · exact List.mem_filterMap.mpr ⟨_, h, rfl⟩

variable {seen : Text → Bool}

/-- An event that is no return. -/
theorem Recovers.cons (h : Recovers seen log) {x : Event}
    (hx : ∀ steady gaveUp, x ≠ .returned steady gaveUp) : Recovers seen (x :: log) := by
  intro later steady gaveUp earlier heq
  rcases later with _ | ⟨y, later⟩
  · exact absurd (List.cons.inj heq).1 (hx steady gaveUp)
  · exact h later steady gaveUp earlier (List.cons.inj heq).2

/-- **A return** when all has been seen to. -/
theorem Recovers.leave (h : Recovers seen log) {steady gaveUp : List Text}
    (hall : ∀ path ∈ steady, .handed path ∈ log ∨ seen path ∨ path ∈ gaveUp ∨
      .took path ∈ log ∧ .dropped path ∉ log) :
    Recovers seen (.returned steady gaveUp :: log) := by
  intro later steady' gaveUp' earlier heq
  rcases later with _ | ⟨y, later⟩
  · obtain ⟨hreturned, rfl⟩ := List.cons.inj heq
    obtain ⟨rfl, rfl⟩ := Event.returned.inj hreturned
    exact hall
  · exact h later steady' gaveUp' earlier (List.cons.inj heq).2

/-! ### The invariant -/

/-- What `process_pending` knows of a file whose front matter has parsed since it began. -/
structure Owes (py : Bus.Python) (s : State T) (call : Call) (path : Text) : Prop where
  message : Bus.isMessageFile path
  parses : Parses py s.files path
  /-- No call has given it up since. -/
  fresh : .dropped path ∈ s.log → path ∈ call.gaveUp
  /-- It has yet to be listed or dispatched, or is marked. -/
  due : call.phase = .entered ∨ path ∈ call.todo ∨ s.seen path

/-- The calls have custody of the paths, and `_seen` holds those that were taken. -/
structure Keeps (py : Bus.Python) (seen : Text → Bool) (s : State T) : Prop where
  custody : Custody s.held (s.log.filterMap Event.takes) (s.log.filterMap Event.ends)
  marked : ∀ path, s.seen path ↔ seen path ∨ .took path ∈ s.log
  owes : ∀ t call, s.calls t = some call → ∀ path ∈ call.steady, Owes py s call path

variable {py : Bus.Python} {s s' : State T} {t : T} {call : Call}

theorem keeps_init (files : Files) : Keeps py seen (State.init seen files : State T) where
  custody := Custody.empty
  marked path := by simp [State.init]
  owes t call h := absurd h (by simp [State.init])

/-- More is marked, and what is given up does not parse. -/
theorem Owes.mono (h : Owes py s call path) (hfiles : s'.files = s.files)
    (hseen : s.seen path → s'.seen path)
    (hlog : .dropped path ∈ s'.log → .dropped path ∈ s.log ∨ Parses py s.files path = false) :
    Owes py s' call path where
  message := h.message
  parses := hfiles ▸ h.parses
  fresh hdropped := by
    rcases hlog hdropped with hold | hfalse
    · exact h.fresh hold
    · rw [h.parses] at hfalse
      exact absurd hfalse (by simp)
  due := h.due.imp_right fun hdue => hdue.imp_right hseen

/-- A call that has listed the directory owes the same in each later phase. -/
theorem Owes.setPhase (h : Owes py s call path) (hphase : call.phase ≠ .entered) (phase : Phase) :
    Owes py s { call with phase := phase } path where
  message := h.message
  parses := h.parses
  fresh := h.fresh
  due := .inr (h.due.resolve_left hphase)

/-- What has become of a path that is marked. -/
theorem Keeps.fate (h : Keeps py seen s) (hpath : s.seen path) :
    seen path ∨ .handed path ∈ s.log ∨ .dropped path ∈ s.log ∨
      .took path ∈ s.log ∧ .dropped path ∉ s.log := by
  rcases (h.marked path).mp hpath with hseen | htook
  · exact .inl hseen
  · by_cases hdropped : .dropped path ∈ s.log
    · exact .inr (.inr (.inl hdropped))
    · exact .inr (.inr (.inr ⟨htook, hdropped⟩))

theorem held_of_call (hcall : s.calls t = some call) : s.held t = call.phase.path := by
  rw [State.held, hcall]
  rfl

/-- Another program changes the directory. -/
theorem Keeps.change (h : Keeps py seen s) (files : Files) :
    Keeps py seen (s.change py files) where
  custody := by
    have hheld : (s.change py files).held = s.held := by
      funext t
      show ((s.calls t).map _).bind _ = _
      rw [Option.bind_map]
      rfl
    rw [hheld]
    exact h.custody
  marked := h.marked
  owes t call hcall path hpath := by
    obtain ⟨call₀, hcall₀, rfl⟩ := Option.map_eq_some_iff.mp hcall
    obtain ⟨hpath₀, hparses⟩ := List.mem_filter.mp hpath
    have howes := h.owes t call₀ hcall₀ path hpath₀
    exact ⟨howes.message, hparses, howes.fresh, howes.due⟩

/-- An event that neither takes a path nor is the end of one. -/
theorem Keeps.note (h : Keeps py seen s) {x : Event} (htakes : x.takes = none)
    (hends : x.ends = none) : Keeps py seen (s.note x) where
  custody := by
    show Custody s.held ((x :: s.log).filterMap Event.takes) ((x :: s.log).filterMap Event.ends)
    rw [List.filterMap_cons_none htakes, List.filterMap_cons_none hends]
    exact h.custody
  marked path := by
    rw [show (s.note x).seen = s.seen from rfl, h.marked path]
    refine or_congr_right ⟨List.mem_cons_of_mem x, fun hin => ?_⟩
    rcases List.mem_cons.mp hin with rfl | hin
    · exact absurd htakes (by simp [Event.takes])
    · exact hin
  owes t call hcall path hpath := by
    refine (h.owes t call hcall path hpath).mono rfl id fun hin => ?_
    rcases List.mem_cons.mp hin with rfl | hin
    · exact absurd hends (by simp [Event.ends])
    · exact .inl hin

variable [DecidableEq T]

theorem held_setCall (new : Option Call) :
    (s.setCall t new).held =
      Function.update s.held t (new.bind fun call => call.phase.path) := by
  funext t'
  show (Function.update s.calls t new t').bind _ = _
  rcases eq_or_ne t' t with rfl | hne
  · rw [Function.update_self, Function.update_self]
  · rw [Function.update_of_ne hne, Function.update_of_ne hne]
    rfl

/-- A call begins, goes on or ends without a new event. -/
theorem Keeps.setCall (h : Keeps py seen s) {new : Option Call}
    (hheld : (new.bind fun call => call.phase.path) = s.held t)
    (howes : ∀ call ∈ new, ∀ path ∈ call.steady, Owes py s call path) :
    Keeps py seen (s.setCall t new) where
  custody := by
    rw [held_setCall, hheld, Function.update_eq_self]
    exact h.custody
  marked := h.marked
  owes t' call' hcall path hpath := by
    have howes' : Owes py s call' path := by
      rcases Lts.update_eq_some hcall with ⟨rfl, hnew⟩ | ⟨-, hcall⟩
      · exact howes call' hnew path hpath
      · exact h.owes t' call' hcall path hpath
    exact howes'.mono rfl id .inl

/-- **A path is taken**, and marked. -/
theorem Keeps.claim (h : Keeps py seen s) {todo : List Text} (hcall : s.calls t = some call)
    (hphase : call.phase = .next) (htodo : call.todo = path :: todo)
    (hseen : s.seen path = false) :
    Keeps py seen (({ s with seen := Function.update s.seen path true }.setCall t
      (some { call with todo := todo, phase := .reading path 0 })).note (.took path)) := by
  have hmarks : ∀ p, Function.update s.seen path true p ↔ p = path ∨ s.seen p := by
    intro p
    rcases eq_or_ne p path with rfl | hne
    · simp
    · simp [hne]
  have hnew : path ∉ s.log.filterMap Event.takes := by
    intro hin
    rw [(h.marked path).mpr (.inr (mem_takes.mp hin))] at hseen
    exact absurd hseen (by simp)
  refine ⟨?_, fun p => ?_, fun t' call' hcall' p hp => ?_⟩
  · have hempty : s.held t = none := by
      rw [held_of_call hcall, hphase]
      rfl
    show Custody (s.setCall t _).held (path :: s.log.filterMap Event.takes) _
    rw [held_setCall]
    exact h.custody.issue hempty hnew
  · show Function.update s.seen path true p ↔ seen p ∨ .took p ∈ .took path :: s.log
    rw [hmarks, h.marked, List.mem_cons, Event.took.injEq]
    tauto
  · have hlog : Event.dropped p ∈ .took path :: s.log →
        .dropped p ∈ s.log ∨ Parses py s.files p = false :=
      fun hin => .inl ((List.mem_cons.mp hin).resolve_left (by simp))
    rcases Lts.update_eq_some hcall' with ⟨rfl, hnew⟩ | ⟨-, hcall'⟩
    · -- what this call has come to is marked now
      obtain rfl := Option.some.inj hnew
      have howes := h.owes _ _ hcall p hp
      refine ⟨howes.message, howes.parses, fun hin => howes.fresh ?_, .inr ?_⟩
      · exact (List.mem_cons.mp hin).resolve_left (by simp)
      · rcases howes.due with hentered | hin | hmarked
        · rw [hphase] at hentered
          exact absurd hentered (by simp)
        · rw [htodo] at hin
          rcases List.mem_cons.mp hin with rfl | hin
          · exact .inr ((hmarks p).mpr (.inl rfl))
          · exact .inl hin
        · exact .inr ((hmarks p).mpr (.inr hmarked))
    · exact (h.owes t' call' hcall' p hp).mono rfl (fun hs => (hmarks p).mpr (.inr hs)) hlog

/-- **A path is done with**: handed over, or given up because it does not parse. -/
theorem Keeps.spend (h : Keeps py seen s) {new : Option Call} {x : Event}
    (hheld : s.held t = some path) (hnew : (new.bind fun call => call.phase.path) = none)
    (howes : ∀ call ∈ new, ∀ path ∈ call.steady, Owes py s call path)
    (htakes : x.takes = none) (hends : x.ends = some path)
    (hread : x = .dropped path → Parses py s.files path = false) :
    Keeps py seen ((s.setCall t new).note x) where
  custody := by
    show Custody (s.setCall t new).held ((x :: s.log).filterMap Event.takes)
      ((x :: s.log).filterMap Event.ends)
    rw [List.filterMap_cons_none htakes, List.filterMap_cons_some hends, held_setCall, hnew]
    exact h.custody.spend hheld
  marked p := by
    rw [show ((s.setCall t new).note x).seen = s.seen from rfl, h.marked p]
    refine or_congr_right ⟨List.mem_cons_of_mem x, fun hin => ?_⟩
    rcases List.mem_cons.mp hin with rfl | hin
    · exact absurd htakes (by simp [Event.takes])
    · exact hin
  owes t' call' hcall p hp := by
    have howes' : Owes py s call' p := by
      rcases Lts.update_eq_some hcall with ⟨rfl, hnew⟩ | ⟨-, hcall⟩
      · exact howes call' hnew p hp
      · exact h.owes t' call' hcall p hp
    refine howes'.mono rfl id fun hin => ?_
    rcases List.mem_cons.mp hin with rfl | hin
    · obtain rfl : p = path := Option.some.inj hends
      exact .inr (hread rfl)
    · exact .inl hin

variable {l : Label T}

/-- **Every step keeps the custody.** -/
theorem Keeps.step (h : Keeps py seen s) (hstep : Step py s l s') : Keeps py seen s' := by
  cases hstep with
  | change files => exact h.change files
  | created hfree =>
    refine h.setCall ?_ ?_
    · rw [State.held, hfree]
      rfl
    · rintro call ⟨⟩ path hpath
      exact absurd hpath List.not_mem_nil
  | pending hfree =>
    refine h.setCall ?_ ?_
    · rw [State.held, hfree]
      rfl
    · rintro call ⟨⟩ path hpath
      have hparsed := (List.mem_filter.mp hpath).2
      rw [Bool.and_eq_true] at hparsed
      refine ⟨hparsed.1, hparsed.2, fun hdropped => ?_, .inl rfl⟩
      exact List.mem_filterMap.mpr ⟨_, hdropped, rfl⟩
  | list hcall hphase hall =>
    refine h.setCall ?_ ?_
    · rw [held_of_call hcall, hphase]
      rfl
    · rintro call ⟨⟩ path hpath
      have howes := h.owes _ _ hcall path hpath
      exact ⟨howes.message, howes.parses, howes.fresh, .inr (.inl (hall path hpath howes.message))⟩
  | skip hcall hphase htodo hseen =>
    refine h.setCall (held_of_call hcall).symm ?_
    rintro call ⟨⟩ path hpath
    have howes := h.owes _ _ hcall path hpath
    refine ⟨howes.message, howes.parses, howes.fresh, howes.due.imp_right ?_⟩
    rintro (hin | hmarked)
    · rw [htodo] at hin
      rcases List.mem_cons.mp hin with rfl | hin
      · exact .inr hseen
      · exact .inl hin
    · exact .inr hmarked
  | claim hcall hphase htodo hseen => exact h.claim hcall hphase htodo hseen
  | again hcall hphase hread =>
    refine h.setCall ?_ ?_
    · rw [held_of_call hcall, hphase]
      rfl
    · rintro call ⟨⟩ path hpath
      exact (h.owes _ _ hcall path hpath).setPhase (by simp [hphase]) _
  | accept hcall hphase hread =>
    refine h.setCall ?_ ?_
    · rw [held_of_call hcall, hphase]
      rfl
    · rintro call ⟨⟩ path hpath
      exact (h.owes _ _ hcall path hpath).setPhase (by simp [hphase]) _
  | drop hcall hphase hread =>
    refine h.spend (by rw [held_of_call hcall, hphase]; rfl) rfl ?_ rfl rfl fun _ => hread
    rintro call ⟨⟩ path hpath
    exact (h.owes _ _ hcall path hpath).setPhase (by simp [hphase]) _
  | raise hcall hphase hread =>
    refine h.spend (by rw [held_of_call hcall, hphase]; rfl) rfl ?_ rfl rfl fun _ => hread
    rintro call ⟨⟩
  | hand hcall hphase =>
    refine h.spend (by rw [held_of_call hcall, hphase]; rfl) rfl ?_ rfl rfl (by simp)
    rintro call ⟨⟩ path hpath
    exact (h.owes _ _ hcall path hpath).setPhase (by simp [hphase]) _
  | finish hcall hpending hphase =>
    refine h.setCall ?_ (by rintro call ⟨⟩)
    rw [held_of_call hcall, hphase]
    rfl
  | leave hcall hpending hphase htodo =>
    refine (h.setCall ?_ (by rintro call ⟨⟩)).note rfl rfl
    rw [held_of_call hcall, hphase]
    rfl

/-! ### Runs -/

omit [DecidableEq T] in
/-- What is in custody is in hand. -/
theorem Keeps.inHand (h : Keeps py seen s) : InHand s := by
  intro path htook
  rcases h.custody.kept path (mem_takes.mpr htook) with hends | hheld
  · rcases mem_ends.mp hends with hdropped | hhanded
    · exact .inr (.inl hdropped)
    · exact .inl hhanded
  · exact .inr (.inr hheld)

omit [DecidableEq T] in
/-- **What a call of `process_pending` that is through has seen to.** -/
theorem Keeps.recovers (h : Keeps py seen s) (hcall : s.calls t = some call)
    (hphase : call.phase = .next) (htodo : call.todo = []) (hpath : path ∈ call.steady) :
    .handed path ∈ s.log ∨ seen path ∨ path ∈ call.gaveUp ∨
      .took path ∈ s.log ∧ .dropped path ∉ s.log := by
  have howes := h.owes t call hcall path hpath
  have hmarked : s.seen path := by
    rcases howes.due with hentered | hin | hmarked
    · rw [hphase] at hentered
      exact absurd hentered (by simp)
    · rw [htodo] at hin
      exact absurd hin List.not_mem_nil
    · exact hmarked
  rcases h.fate hmarked with hseen | hhanded | hdropped | htaken
  · exact .inr (.inl hseen)
  · exact .inl hhanded
  · exact .inr (.inr (.inl (howes.fresh hdropped)))
  · exact .inr (.inr (.inr htaken))

/-- Every step recovers what it should. -/
theorem Recovers.step (h : Recovers seen s.log) (hI : Keeps py seen s)
    (hstep : Step py s l s') : Recovers seen s'.log := by
  cases hstep with
  | change => exact h
  | created => exact h
  | pending => exact h
  | list => exact h
  | skip => exact h
  | claim => exact h.cons (by simp)
  | again => exact h
  | accept => exact h
  | drop => exact h.cons (by simp)
  | raise => exact h.cons (by simp)
  | hand => exact h.cons (by simp)
  | finish => exact h
  | leave hcall hpending hphase htodo =>
    exact h.leave fun path hpath => hI.recovers hcall hphase htodo hpath

/-- **What the event source delivers.** In every run of any number of calls and writers, each
path is passed to the handler at most once; and when `process_pending` returns, every message
file whose front matter parsed throughout the call has been passed to it, but for one that was
in `seen` from the start, was given up before the call began, or was taken by a call that still
has it. -/
theorem delivers_of_run {files : Files} {ls : List (Label T)}
    (h : Lts.Run (Lts.ofStep (step py)) (State.init seen files) ls s) :
    HandedOnce s.log ∧ Recovers seen s.log ∧ InHand s := by
  have hI : Keeps py seen s ∧ Recovers seen s.log := by
    refine h.inv_state (I := fun s => Keeps py seen s ∧ Recovers seen s.log)
      ⟨keeps_init files, ?_⟩ ?_
    · rintro later steady gaveUp earlier heq
      exact absurd heq (by simp [State.init])
    · rintro a l b ⟨ha, hrecovers⟩ hl
      have hstep := Step.of_step hl
      exact ⟨ha.step hstep, hrecovers.step ha hstep⟩
  exact ⟨nodup_filterMap (fun _ _ => Event.ends_of_hands) hI.1.custody.once, hI.2, hI.1.inHand⟩

/-- A Python that reads an envelope of strings with newlines before it. -/
def trimmingPython : Bus.Python :=
  { Bus.plainPython with safeLoad := fun t => Bus.plainPython.safeLoad (Bus.dropNewlines t) }

/-- A file that is there before the bridge is: the observer reports it too, while
`process_pending` reads it, and it is passed to the handler once. -/
theorem delivers_pending : ∃ s : State Bool,
    s.log = [.returned [lit "a.md"] [], .handed (lit "a.md"), .took (lit "a.md")] ∧
      HandedOnce s.log ∧ Recovers (fun _ => false) s.log ∧ InHand s := by
  obtain ⟨s, hrun, hs⟩ := Lts.exists_run_of_exec (step trimmingPython)
    (State.init (fun _ => false) ∅ : State Bool)
    [.write (lit "a.md") (some (.text (lit "---\nid: a\n---\n"))), .pending false,
      .list false [lit "b.txt", lit "a.md"], .claim false, .created true (lit "a.md"),
      .claim true, .leave true, .read false, .hand false, .leave false]
    (fun s => s.log = [.returned [lit "a.md"] [], .handed (lit "a.md"), .took (lit "a.md")])
    (by decide +kernel)
  exact ⟨s, of_decide_eq_true hs, delivers_of_run hrun⟩

/-- A file that its writer completes after the last attempt to read it: `process_pending` finds
it complete, and passes over it. -/
theorem not_delivers : ¬∀ (py : Bus.Python) (files : Files) (ls : List (Label Bool))
    (s : State Bool),
    Lts.Run (Lts.ofStep (step py)) (State.init (fun _ => false) files) ls s →
      HandedOnce s.log ∧ NoLoss s.log := by
  intro h
  obtain ⟨s, hrun, hs⟩ := Lts.exists_run_of_exec (step trimmingPython)
    (State.init (fun _ => false) ∅ : State Bool)
    [.write (lit "a.md") (some (.text [])), .created true (lit "a.md"), .claim true, .read true,
      .read true, .read true, .read true, .read true, .leave true,
      .write (lit "a.md") (some (.text (lit "---\nid: a\n---\n"))), .pending false,
      .list false [lit "a.md"], .claim false, .leave false]
    (fun s => s.log =
      [.returned [lit "a.md"] [lit "a.md"], .dropped (lit "a.md"), .took (lit "a.md")])
    (by decide +kernel)
  have hloss := (h _ _ _ s hrun).2 [] _ _ _ (of_decide_eq_true hs) (lit "a.md")
    List.mem_cons_self
  exact absurd hloss (by decide +kernel)

-- The observer has taken the file, and `process_pending` returns before it is handed over.
example : (Lts.exec (step trimmingPython) (State.init (fun _ => false) ∅ : State Bool)
    [.write (lit "a.md") (some (.text (lit "---\nid: a\n---\n"))), .created true (lit "a.md"),
      .claim true, .pending false, .list false [lit "a.md"], .claim false, .leave false]).any
    fun s => s.log = [.returned [lit "a.md"] [], .took (lit "a.md")] := by
  decide +kernel

end Triggers

end OtamanBridge
