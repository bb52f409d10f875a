import OtamanBridge.Bus.Daemon

/-!
# What one step of the bridge can do

The transition function as a relation, with its guards: one constructor for each way a step
may go. The invariants are proved by cases on it.
-/

namespace OtamanBridge

namespace Bus

open Py

open Inbox (Content)

variable {cfg : Config} {s : State} {l : Label}

/-- A tap that opens a file. -/
inductive Opens (cfg : Config) (s : State) (micro : ℕ) : State → Prop
  | ack {p r content todo clears} (ht : s.tap = some ⟨p, r, .ack content :: todo, none, clears⟩) :
      Opens cfg s micro { s with
        acks := Function.update s.acks p.msg.stem (some [])
        tap := some ⟨p, r, .ack content :: todo, some (p.msg.stem, content), clears⟩
        log := .acked p.msg.stem (s.acks p.msg.stem) content :: s.log }
  | file {p r w todo clears f} (ht : s.tap = some ⟨p, r, w :: todo, none, clears⟩)
      (hf : fileOf cfg s micro p r w = some f) :
      Opens cfg s micro { s with
        active := putFile s.active (stemOf f.name) []
        tap := some ⟨p, r, w :: todo, some (stemOf f.name, f.text), clears⟩ }

/-- A tap that writes its open file. -/
inductive Writes (s : State) : State → Prop
  | ack {p r content todo stem text clears}
      (ht : s.tap = some ⟨p, r, .ack content :: todo, some (stem, text), clears⟩) :
      Writes s { s with
        tap := some ⟨p, r, todo, none, clears⟩
        acks := Function.update s.acks stem (some text)
        log := .acked stem (s.acks stem) text :: s.log }
  | broadcast {p r v todo stem text clears}
      (ht : s.tap = some ⟨p, r, .broadcast v :: todo, some (stem, text), clears⟩) :
      Writes s { s with
        tap := some ⟨p, r, todo, none, clears⟩
        active := putFile s.active stem text
        log := .announced p.msg.stem v stem text :: s.log }
  | reply {p r t todo stem text clears}
      (ht : s.tap = some ⟨p, r, .reply t :: todo, some (stem, text), clears⟩) :
      Writes s { s with
        tap := some ⟨p, r, todo, none, clears⟩
        active := putFile s.active stem text }

/-- What the loop does with the message it takes. -/
inductive Turns (cfg : Config) (s : State) (scan : Scan) (p : Parsed) (todo : List Parsed) :
    State → Prop
  | skips (hin : p.msg.stem ∈ scan.state) : Turns cfg s scan p todo
      { s with phase := .looping { scan with done := scan.done ++ [p] } todo }
  | raises (hin : p.msg.stem ∉ scan.state) (hpriv : cfg.privileged (p.msg.type cfg.py))
      (hv : verifyProvenance cfg s p.msg = .error ()) :
      Turns cfg s scan p todo { s with phase := .idle }
  | refuses (hin : p.msg.stem ∉ scan.state) (hpriv : cfg.privileged (p.msg.type cfg.py))
      (hv : verifyProvenance cfg s p.msg = .ok false) :
      Turns cfg s scan p todo
        { s with phase := .quarantining { scan with done := scan.done ++ [p] } p todo }
  | offers (hin : p.msg.stem ∉ scan.state) (hgate : cfg.privileged (p.msg.type cfg.py) →
      verifyProvenance cfg s p.msg = .ok true)
      (hsurface : (decide cfg.py p.msg scan.overrides).surface) :
      Turns cfg s scan p todo { s with
        phase := .handing { scan with done := scan.done ++ [p] } p
          (decide cfg.py p.msg scan.overrides).interactive todo
        pending := if (decide cfg.py p.msg scan.overrides).interactive then
            Function.update s.pending p.msg.stem (some p)
          else s.pending
        log := .offered p (decide cfg.py p.msg scan.overrides).interactive :: s.log }
  | withholds (hin : p.msg.stem ∉ scan.state) (hgate : cfg.privileged (p.msg.type cfg.py) →
      verifyProvenance cfg s p.msg = .ok true)
      (hsurface : (decide cfg.py p.msg scan.overrides).surface = false) :
      Turns cfg s scan p todo
        { s with phase := .firing { scan with done := scan.done ++ [p] } p false todo }

/-- How the bridge starts. -/
inductive Starts (cfg : Config) (s : State) (overrides : Value) (readable : Bool) : State → Prop
  | fresh (h : (loadState s readable).1.entries = []) : Starts cfg s overrides readable
      { s with persisted := (loadState s readable).2, up := true }
  | raises (h : (listing s).mapM (readMessage cfg s) = .error ()) :
      Starts cfg s overrides readable { s with persisted := (loadState s readable).2 }
  | recovers {read} (h : (listing s).mapM (readMessage cfg s) = .ok read) :
      Starts cfg s overrides readable { s with
        persisted := (loadState s readable).2, up := true
        pending := recoverPendings cfg s (loadState s readable).1 overrides (read.filterMap id) }

/-- **What a step can do.** -/
inductive Step (cfg : Config) (s : State) : Label → State → Prop
  | tick {t} (h : s.now ≤ t) : Step cfg s (.tick t) { s with now := t }
  | put {stem content} :
      Step cfg s (.put stem content) { s with active := s.active.insert stem content }
  | delete {stem} : Step cfg s (.delete stem) { s with active := s.active.erase stem }
  | confirm {id digest} :
      Step cfg s (.confirm id digest) { s with ledger := (id, digest) :: s.ledger }
  | cliAck {stem content} : Step cfg s (.cliAck stem content)
      { s with acks := Function.update s.acks stem (some content) }
  | start {overrides readable} {s' : State} (hup : s.up = false)
      (h : Starts cfg s overrides readable s') : Step cfg s (.start overrides readable) s'
  | crash : Step cfg s .crash
      { s with up := false, phase := .idle, tap := none, pending := fun _ => none }
  | scan {overrides readable} (htap : s.tap = none) (hidle : s.phase = .idle) (hup : s.up) :
      Step cfg s (.scan overrides readable) { s with
        persisted := (loadState s readable).2
        phase := .reading { state := (loadState s readable).1, overrides, now := s.now }
          (listing s) [] }
  | readDone {scan parsed} (htap : s.tap = none) (hp : s.phase = .reading scan [] parsed) :
      Step cfg s .read { s with phase := .looping { scan with read := parsed } parsed }
  | readRaises {scan stem stems parsed} (htap : s.tap = none)
      (hp : s.phase = .reading scan (stem :: stems) parsed)
      (hr : readMessage cfg s stem = .error ()) : Step cfg s .read { s with phase := .idle }
  | readSkips {scan stem stems parsed} (htap : s.tap = none)
      (hp : s.phase = .reading scan (stem :: stems) parsed)
      (hr : readMessage cfg s stem = .ok none) :
      Step cfg s .read { s with phase := .reading scan stems parsed }
  | reads {scan stem stems parsed p} (htap : s.tap = none)
      (hp : s.phase = .reading scan (stem :: stems) parsed)
      (hr : readMessage cfg s stem = .ok (some p)) :
      Step cfg s .read { s with phase := .reading scan stems (parsed ++ [p]) }
  | ends {scan} (htap : s.tap = none) (hp : s.phase = .looping scan []) :
      Step cfg s .turn { s with phase := if scan.changed then .saving scan else .idle }
  | turn {scan p todo} {s' : State} (htap : s.tap = none) (hp : s.phase = .looping scan (p :: todo))
      (h : Turns cfg s scan p todo s') : Step cfg s .turn s'
  | handed {scan p interactive todo} (htap : s.tap = none)
      (hp : s.phase = .handing scan p interactive todo) : Step cfg s (.handed true) { s with
        phase := .firing scan p true todo, log := .handed p interactive :: s.log }
  | handFails {scan p interactive todo} (htap : s.tap = none)
      (hp : s.phase = .handing scan p interactive todo) : Step cfg s (.handed false) { s with
        phase := .looping scan todo
        pending := if interactive then Function.update s.pending p.msg.stem none else s.pending }
  | fired {scan p surfaced todo} (htap : s.tap = none)
      (hp : s.phase = .firing scan p surfaced todo) : Step cfg s .fired { s with
        phase := .looping { scan with
          state := scan.state.insert p.msg.stem scan.now, changed := true } todo
        log := .fired p scan.overrides :: s.log }
  | quarantine {scan p todo} (htap : s.tap = none) (hp : s.phase = .quarantining scan p todo)
      (hin : p.msg.stem ∈ s.active) : Step cfg s .quarantine { s with
        phase := .alerting scan todo, active := s.active.erase p.msg.stem
        log := .quarantined p.msg.stem :: s.log }
  | gone {scan p todo} (htap : s.tap = none) (hp : s.phase = .quarantining scan p todo)
      (hin : p.msg.stem ∉ s.active) : Step cfg s .quarantine { s with phase := .idle }
  | alerted {scan todo} (htap : s.tap = none) (hp : s.phase = .alerting scan todo) :
      Step cfg s .alerted { s with phase := .looping scan todo }
  | saved {scan} (htap : s.tap = none) (hp : s.phase = .saving scan) : Step cfg s (.save true)
      { s with phase := .idle, persisted := some (prune s.now scan.state) }
  | saveFails {scan} (htap : s.tap = none) (hp : s.phase = .saving scan) :
      Step cfg s (.save false) { s with phase := .idle }
  | abort (htap : s.tap = none) : Step cfg s .abort { s with phase := .idle }
  | tapIgnored {r} : Step cfg s (.tap r) s
  | tapTaken {r p todo clears} (hup : s.up) (htap : s.tap = none) (hawait : s.phase.awaits)
      (hp : s.pending r.requestId = some p) (hw : writesOf cfg p r = some (todo, clears)) :
      Step cfg s (.tap r) { s with tap := some ⟨p, r, todo, none, clears⟩ }
  | openFails {micro p r w todo clears} (ht : s.tap = some ⟨p, r, w :: todo, none, clears⟩) :
      Step cfg s (.openFile false micro) { s with tap := none }
  | opens {micro} {s' : State} (h : Opens cfg s micro s') : Step cfg s (.openFile true micro) s'
  | writeFails {p r w todo file clears} (ht : s.tap = some ⟨p, r, w :: todo, some file, clears⟩) :
      Step cfg s (.writeFile false) { s with tap := none }
  | writes {s' : State} (h : Writes s s') : Step cfg s (.writeFile true) s'
  | finish {p r clears} (ht : s.tap = some ⟨p, r, [], none, clears⟩) : Step cfg s .finish { s with
      tap := none
      pending := if clears then Function.update s.pending r.requestId none else s.pending }

variable {s' : State}

theorem watcherStep_eq_some {next : Option State} (h : watcherStep s next = some s') :
    s.tap = none ∧ next = some s' := by
  unfold watcherStep at h
  split_ifs at h with htap
  exact ⟨by simpa using htap, h⟩

theorem starts_of_startStep {overrides : Value} {readable : Bool}
    (h : startStep cfg s overrides readable = some s') :
    s.up = false ∧ Starts cfg s overrides readable s' := by
  simp only [startStep] at h
  split_ifs at h with hup hempty
  · rw [← Option.some.inj h]
    exact ⟨by simpa using hup, .fresh hempty⟩
  · refine ⟨by simpa using hup, ?_⟩
    split at h
    next hr =>
      rw [← Option.some.inj h]
      exact .raises hr
    next hr =>
      rw [← Option.some.inj h]
      exact .recovers hr

/-- What passed the gate is handed on, or not surfaced. -/
theorem turns_offer {scan : Scan} {p : Parsed} {todo : List Parsed} (hin : p.msg.stem ∉ scan.state)
    (hgate : cfg.privileged (p.msg.type cfg.py) → verifyProvenance cfg s p.msg = .ok true) :
    Turns cfg s scan p todo (offer cfg s { scan with done := scan.done ++ [p] } p todo) := by
  by_cases hsurface : (decide cfg.py p.msg scan.overrides).surface
  · rw [offer, if_pos hsurface]
    exact .offers hin hgate hsurface
  · rw [offer, if_neg hsurface]
    exact .withholds hin hgate (by simpa using hsurface)

theorem turns_of_turnStep {scan : Scan} {p : Parsed} {todo : List Parsed}
    (hp : s.phase = .looping scan (p :: todo)) (h : turnStep cfg s = some s') :
    Turns cfg s scan p todo s' := by
  simp only [turnStep, hp] at h
  split_ifs at h with hin hpriv
  · rw [← Option.some.inj h]
    exact .skips hin
  · split at h
    next hv =>
      rw [← Option.some.inj h]
      exact .raises hin hpriv hv
    next hv =>
      rw [← Option.some.inj h]
      exact turns_offer hin fun _ => hv
    next hv =>
      rw [← Option.some.inj h]
      exact .refuses hin hpriv hv
  · rw [← Option.some.inj h]
    exact turns_offer hin fun hp => absurd hp hpriv

theorem opens_of_openStep {micro : ℕ} (h : openStep cfg s true micro = some s') :
    Opens cfg s micro s' := by
  unfold openStep at h
  split at h
  next p r w todo clears ht =>
    rw [if_neg (by simp)] at h
    split at h
    · rw [← Option.some.inj h]
      exact .ack ht
    · obtain ⟨f, hf, rfl⟩ := Option.map_eq_some_iff.mp h
      exact .file ht hf
  · exact absurd h (by simp)

theorem writes_of_writeStep (h : writeStep s true = some s') : Writes s s' := by
  unfold writeStep at h
  split at h
  next p r w todo stem text clears ht =>
    rw [if_neg (by simp)] at h
    split at h
    · rw [← Option.some.inj h]
      exact .ack ht
    · rw [← Option.some.inj h]
      exact .broadcast ht
    · rw [← Option.some.inj h]
      exact .reply ht
  · exact absurd h (by simp)

/-- **The relation says everything the function does.** -/
theorem Step.of_step (h : step cfg s l = some s') : Step cfg s l s' := by
  cases l with
  | tick t =>
    simp only [step] at h
    split_ifs at h with ht
    rw [← Option.some.inj h]
    exact .tick ht
  | put stem content =>
    rw [← Option.some.inj h]
    exact .put
  | delete stem =>
    rw [← Option.some.inj h]
    exact .delete
  | confirm id digest =>
    rw [← Option.some.inj h]
    exact .confirm
  | cliAck stem content =>
    rw [← Option.some.inj h]
    exact .cliAck
  | start overrides readable =>
    obtain ⟨hup, h⟩ := starts_of_startStep h
    exact .start hup h
  | crash =>
    rw [← Option.some.inj h]
    exact .crash
  | scan overrides readable =>
    obtain ⟨htap, h⟩ := watcherStep_eq_some h
    unfold scanStep at h
    split at h
    next hidle =>
      split_ifs at h with hup
      rw [← Option.some.inj h]
      exact .scan htap hidle hup
    · exact absurd h (by simp)
  | read =>
    obtain ⟨htap, h⟩ := watcherStep_eq_some h
    unfold readStep at h
    split at h
    next hp =>
      rw [← Option.some.inj h]
      exact .readDone htap hp
    next hp =>
      split at h
      next hr =>
        rw [← Option.some.inj h]
        exact .readRaises htap hp hr
      next hr =>
        rw [← Option.some.inj h]
        exact .readSkips htap hp hr
      next hr =>
        rw [← Option.some.inj h]
        exact .reads htap hp hr
    · exact absurd h (by simp)
  | turn =>
    obtain ⟨htap, h⟩ := watcherStep_eq_some h
    rcases hp : s.phase with _ | _ | ⟨scan, _ | ⟨p, todo⟩⟩ | _ | _ | _ | _ | _
    case looping.nil =>
      simp only [turnStep, hp] at h
      rw [← Option.some.inj h]
      exact .ends htap hp
    case looping.cons => exact .turn htap hp (turns_of_turnStep hp h)
    all_goals exact absurd h (by simp [turnStep, hp])
  | handed ok =>
    obtain ⟨htap, h⟩ := watcherStep_eq_some h
    unfold handedStep at h
    split at h
    next hp =>
      cases ok with
      | true =>
        rw [← Option.some.inj h]
        exact .handed htap hp
      | false =>
        rw [← Option.some.inj h]
        exact .handFails htap hp
    · exact absurd h (by simp)
  | fired =>
    obtain ⟨htap, h⟩ := watcherStep_eq_some h
    unfold firedStep at h
    split at h
    next hp =>
      rw [← Option.some.inj h]
      exact .fired htap hp
    · exact absurd h (by simp)
  | quarantine =>
    obtain ⟨htap, h⟩ := watcherStep_eq_some h
    unfold quarantineStep at h
    split at h
    next hp =>
      split_ifs at h with hin
      · rw [← Option.some.inj h]
        exact .quarantine htap hp hin
      · rw [← Option.some.inj h]
        exact .gone htap hp hin
    · exact absurd h (by simp)
  | alerted =>
    obtain ⟨htap, h⟩ := watcherStep_eq_some h
    unfold alertedStep at h
    split at h
    next hp =>
      rw [← Option.some.inj h]
      exact .alerted htap hp
    · exact absurd h (by simp)
  | save ok =>
    obtain ⟨htap, h⟩ := watcherStep_eq_some h
    unfold saveStep at h
    split at h
    next hp =>
      cases ok with
      | true =>
        rw [← Option.some.inj h]
        exact .saved htap hp
      | false =>
        rw [← Option.some.inj h]
        exact .saveFails htap hp
    · exact absurd h (by simp)
  | abort =>
    obtain ⟨htap, h⟩ := watcherStep_eq_some h
    rw [← Option.some.inj h]
    exact .abort htap
  | tap r =>
    simp only [step, tapStep] at h
    split_ifs at h with hbusy
    rw [not_or, not_or] at hbusy
    split at h
    · obtain rfl := Option.some.inj h
      exact .tapIgnored
    next p hp =>
      split at h
      · obtain rfl := Option.some.inj h
        exact .tapIgnored
      next todo clears hw =>
        rw [← Option.some.inj h]
        exact .tapTaken (by simpa using hbusy.1) (by simpa using hbusy.2.1)
          (by simpa using hbusy.2.2) hp hw
  | openFile ok micro =>
    cases ok with
    | true => exact .opens (opens_of_openStep h)
    | false =>
      simp only [step, openStep] at h
      split at h
      next ht =>
        rw [← Option.some.inj h]
        exact .openFails ht
      · exact absurd h (by simp)
  | writeFile ok =>
    cases ok with
    | true => exact .writes (writes_of_writeStep h)
    | false =>
      simp only [step, writeStep] at h
      split at h
      next ht =>
        rw [← Option.some.inj h]
        exact .writeFails ht
      · exact absurd h (by simp)
  | finish =>
    simp only [step, finishStep] at h
    split at h
    next ht =>
      rw [← Option.some.inj h]
      exact .finish ht
    · exact absurd h (by simp)

/-! ### What the watcher has at hand -/

/-- The scan that is under way. -/
def Phase.scan : Phase → Option Scan
  | .idle => none
  | .reading scan _ _ => some scan
  | .looping scan _ => some scan
  | .quarantining scan _ _ => some scan
  | .alerting scan _ => some scan
  | .handing scan _ _ _ => some scan
  | .firing scan _ _ _ => some scan
  | .saving scan => some scan

/-- The message the loop is at. -/
def Phase.inHand : Phase → Option Parsed
  | .quarantining _ p _ => some p
  | .handing _ p _ _ => some p
  | .firing _ p _ _ => some p
  | _ => none

/-- The messages a scan has read and not come to. -/
def Phase.todo : Phase → List Parsed
  | .reading _ _ parsed => parsed
  | .looping _ todo => todo
  | .quarantining _ _ todo => todo
  | .alerting _ todo => todo
  | .handing _ _ _ todo => todo
  | .firing _ _ _ todo => todo
  | _ => []

/-- The messages a scan has read and is not done with. -/
def Phase.messages : Phase → List Parsed
  | .reading _ _ parsed => parsed
  | .looping _ todo => todo
  | .quarantining _ p todo => p :: todo
  | .alerting _ todo => todo
  | .handing _ p _ todo => p :: todo
  | .firing _ p _ todo => p :: todo
  | _ => []

/-! ### Steps that leave the watcher alone -/

/-- The steps of other processes, and of taps. -/
def Label.aside : Label → Bool
  | .tick _ | .put .. | .delete _ | .confirm .. | .cliAck .. => true
  | .tap _ | .openFile .. | .writeFile _ | .finish => true
  | _ => false

/-- What such a step has in common with any other: the watcher stays where it is, its
files are as they were, and what is added to the log is about decisions. -/
structure Aside (s s' : State) : Prop where
  phase : s'.phase = s.phase
  persisted : s'.persisted = s.persisted
  legacy : s'.legacy = s.legacy
  ledger : s.ledger ⊆ s'.ledger
  log : s'.log = s.log ∨ (∃ stem before content, s'.log = .acked stem before content :: s.log) ∨
    ∃ stem v file text, s'.log = .announced stem v file text :: s.log

theorem Aside.stored (h : Aside s s') : s'.stored = s.stored := by
  unfold State.stored
  rw [h.persisted, h.legacy]

theorem Step.aside (h : Step cfg s l s') (hl : l.aside) : Aside s s' := by
  cases h with
  | confirm => exact ⟨rfl, rfl, rfl, List.subset_cons_self .., .inl rfl⟩
  | opens h =>
    rcases h with ⟨_⟩ | ⟨_, _⟩
    · exact ⟨rfl, rfl, rfl, List.Subset.refl _, .inr (.inl ⟨_, _, _, rfl⟩)⟩
    · exact ⟨rfl, rfl, rfl, List.Subset.refl _, .inl rfl⟩
  | writes h =>
    rcases h with ⟨_⟩ | ⟨_⟩ | ⟨_⟩
    · exact ⟨rfl, rfl, rfl, List.Subset.refl _, .inr (.inl ⟨_, _, _, rfl⟩)⟩
    · exact ⟨rfl, rfl, rfl, List.Subset.refl _, .inr (.inr ⟨_, _, _, _, rfl⟩)⟩
    · exact ⟨rfl, rfl, rfl, List.Subset.refl _, .inl rfl⟩
  | tick | put | delete | cliAck | tapIgnored | tapTaken | openFails | writeFails | finish =>
    exact ⟨rfl, rfl, rfl, List.Subset.refl _, .inl rfl⟩
  | _ => exact absurd hl Bool.false_ne_true

/-! ### The files a scan still has before it -/

/-- The stems of the files a scan is not done with. -/
def Phase.stems : Phase → List Text
  | .reading _ stems parsed => parsed.map (·.msg.stem) ++ stems
  | phase => phase.messages.map (·.msg.stem)

/-- What is on disk is loaded, if it can be read. -/
theorem mem_load_of_stored {stem : Text} (hin : stem ∈ s.stored) :
    stem ∈ (loadState s true).1 := by
  unfold State.stored at hin
  unfold loadState
  rcases hp : s.persisted with _ | st
  · rcases hl : s.legacy with _ | st
    · simp [hp, hl] at hin
    · simpa [hp, hl] using hin
  · simpa [hp] using hin

/-- A scan begins. -/
def Label.isScan : Label → Bool
  | .scan .. => true
  | _ => false

theorem readMessage_congr {stem : Text} (h : s'.active.lookup stem = s.active.lookup stem) :
    readMessage cfg s' stem = readMessage cfg s stem := by
  unfold readMessage
  rw [h]

/-- A message that was read, and the file it was read from. -/
theorem of_readMessage {stem : Text} {p : Parsed} (h : readMessage cfg s stem = .ok (some p)) :
    p.msg.stem = stem ∧ ∃ raw, s.active.lookup stem = some (.text raw) ∧
      p.source = universalNewlines raw ∧
      parseBusFile cfg.py stem (some (.text raw)) = .ok (some p.msg) := by
  unfold readMessage at h
  rcases hc : s.active.lookup stem with _ | (raw | raw)
  · simp [hc, parseBusFile, Except.map] at h
  · rw [hc] at h
    rcases hp : parseBusFile cfg.py stem (some (.text raw)) with _ | (_ | m)
    · simp [hp, Except.map] at h
    · simp [hp, Except.map] at h
    · simp only [hp, Except.map, Option.map_some, Except.ok.injEq, Option.some.injEq] at h
      subst h
      exact ⟨stem_of_parseBusFile cfg.py hp, raw, rfl, rfl, hp⟩
  · simp [hc, parseBusFile, Except.map] at h

theorem stem_of_readMessage {stem : Text} {p : Parsed} (h : readMessage cfg s stem = .ok (some p)) :
    p.msg.stem = stem := (of_readMessage h).1

/-- **A scan begins with the files of the directory**, and after that there is nothing new
before it. -/
theorem Step.stems (h : Step cfg s l s') : s'.phase.stems.Sublist s.phase.stems ∨
    l.isScan ∧ s'.phase.stems = listing s := by
  have haside := h.aside
  cases h with
  | scan => exact .inr ⟨rfl, rfl⟩
  | start hup h => rcases h with ⟨_⟩ | ⟨_⟩ | ⟨_⟩ <;> exact .inl (List.Sublist.refl _)
  | readDone htap hp =>
    left
    simp [hp, Phase.stems, Phase.messages]
  | readSkips htap hp hr =>
    left
    rw [hp]
    exact (List.Sublist.refl _).append (List.sublist_cons_self ..)
  | reads htap hp hr =>
    left
    rw [hp]
    simp [Phase.stems, stem_of_readMessage hr]
  | @ends scan htap hp =>
    left
    by_cases hc : scan.changed
    · simp [hc, Phase.stems, Phase.messages]
    · simp [hc, Phase.stems, Phase.messages]
  | turn htap hp h =>
    left
    rw [hp]
    rcases h with ⟨_⟩ | ⟨_⟩ | ⟨_⟩ | ⟨_⟩ | ⟨_⟩
    · exact List.sublist_cons_self ..
    · exact List.nil_sublist _
    all_goals exact List.Sublist.refl _
  | handed htap hp => exact .inl (by rw [hp]; exact List.Sublist.refl _)
  | handFails htap hp | fired htap hp | quarantine htap hp =>
    exact .inl (by rw [hp]; exact List.sublist_cons_self ..)
  | alerted htap hp => exact .inl (by rw [hp]; exact List.Sublist.refl _)
  | crash | readRaises | gone | saved | saveFails | abort => exact .inl (List.nil_sublist _)
  | _ => exact .inl (by rw [(haside rfl).phase])

theorem nodup_listing (s : State) : (listing s).Nodup :=
  (List.perm_insertionSort _ _).nodup_iff.mpr s.active.nodupKeys

theorem mem_listing {stem : Text} : stem ∈ listing s ↔ stem ∈ s.active :=
  List.mem_insertionSort _

/-- No file comes twice. -/
theorem Step.nodup_stems (h : Step cfg s l s') (hnd : s.phase.stems.Nodup) :
    s'.phase.stems.Nodup := by
  rcases h.stems with h | ⟨-, h⟩
  · exact hnd.sublist h
  · exact h ▸ nodup_listing s

/-- Only the watcher moves a file to the quarantine, and then it is done with it. -/
theorem Step.quarantined (h : Step cfg s l s') {stem : Text} (hq : .quarantined stem ∈ s'.log) :
    .quarantined stem ∈ s.log ∨ ∃ scan p todo, s.phase = .quarantining scan p todo ∧
      p.msg.stem = stem ∧ s'.phase = .alerting scan todo := by
  have haside := h.aside
  cases h with
  | @quarantine scan p todo htap hp hin =>
    rcases List.mem_cons.mp hq with hq | hq
    · exact .inr ⟨scan, p, todo, hp, (Happened.quarantined.inj hq).symm, rfl⟩
    · exact .inl hq
  | start hup h => rcases h with ⟨_⟩ | ⟨_⟩ | ⟨_⟩ <;> exact .inl hq
  | turn htap hp h =>
    rcases h with ⟨_⟩ | ⟨_⟩ | ⟨_⟩ | ⟨_⟩ | ⟨_⟩
    case offers => exact .inl (by simpa using hq)
    all_goals exact .inl hq
  | handed | fired => exact .inl (by simpa using hq)
  | scan | readDone | readSkips | reads | readRaises | ends | handFails | gone | alerted | saved
  | saveFails | abort | crash => exact .inl hq
  | _ =>
    rcases (haside rfl).log with hlog | ⟨_, _, _, hlog⟩ | ⟨_, _, _, _, hlog⟩
    all_goals
      rw [hlog] at hq
      exact .inl (by simpa using hq)

/-! ### What never goes away -/

/-- Nothing is taken from the log. -/
theorem Step.log_suffix (h : Step cfg s l s') : s.log <:+ s'.log := by
  cases h with
  | start hup h => rcases h with ⟨_⟩ | ⟨_⟩ | ⟨_⟩ <;> exact List.suffix_refl _
  | turn htap hp h =>
    rcases h with ⟨_⟩ | ⟨_⟩ | ⟨_⟩ | ⟨_⟩ | ⟨_⟩
    case offers => exact List.suffix_cons ..
    all_goals exact List.suffix_refl _
  | opens h =>
    rcases h with ⟨_⟩ | ⟨_⟩
    · exact List.suffix_cons ..
    · exact List.suffix_refl _
  | writes h =>
    rcases h with ⟨_⟩ | ⟨_⟩ | ⟨_⟩
    · exact List.suffix_cons ..
    · exact List.suffix_cons ..
    · exact List.suffix_refl _
  | handed | fired | quarantine => exact List.suffix_cons ..
  | _ => exact List.suffix_refl _

/-- Nothing is taken from the ledger. -/
theorem Step.ledger_subset (h : Step cfg s l s') : s.ledger ⊆ s'.ledger := by
  cases h with
  | confirm => exact List.subset_cons_self ..
  | start hup h => rcases h with ⟨_⟩ | ⟨_⟩ | ⟨_⟩ <;> exact List.Subset.refl _
  | turn htap hp h => rcases h with ⟨_⟩ | ⟨_⟩ | ⟨_⟩ | ⟨_⟩ | ⟨_⟩ <;> exact List.Subset.refl _
  | opens h => rcases h with ⟨_⟩ | ⟨_⟩ <;> exact List.Subset.refl _
  | writes h => rcases h with ⟨_⟩ | ⟨_⟩ | ⟨_⟩ <;> exact List.Subset.refl _
  | _ => exact List.Subset.refl _

/-! ### One event loop -/

/-- While a tap is dispatched, the watcher awaits something. -/
def Calm (s : State) : Prop := s.tap.isSome → s.phase.awaits

theorem Calm.of_tap_eq_none (h : s.tap = none) : Calm s := fun hs => absurd hs (by simp [h])

/-- The watcher moves only when no tap is dispatched, and a tap comes only while the watcher
awaits something. -/
theorem Calm.step (hI : Calm s) (h : Step cfg s l s') : Calm s' := by
  cases h with
  | start hup h => rcases h with ⟨_⟩ | ⟨_⟩ | ⟨_⟩ <;> exact hI
  | turn htap hp h =>
    rcases h with ⟨_⟩ | ⟨_⟩ | ⟨_⟩ | ⟨_⟩ | ⟨_⟩ <;> exact .of_tap_eq_none htap
  | tapTaken hup htap hawait => exact fun _ => hawait
  | opens h =>
    rcases h with ⟨ht⟩ | ⟨ht⟩ <;> exact fun _ => hI (by simp [ht])
  | writes h =>
    rcases h with ⟨ht⟩ | ⟨ht⟩ | ⟨ht⟩ <;> exact fun _ => hI (by simp [ht])
  | tick | put | delete | confirm | cliAck | tapIgnored => exact hI
  | crash | openFails | writeFails | finish => exact .of_tap_eq_none rfl
  | _ => exact .of_tap_eq_none ‹_›

end Bus

end OtamanBridge
