import OtamanBridge.Bus.Envelope
import OtamanBridge.Bus.Step

/-!
# What the provenance gate covers

A message of a privileged type is handed on only if the confirmation ledger has a record of
its text. The file is read twice: once by `parse_bus_file`, for the message, and once more
by `verify_provenance`, for the record. Between the two another process may replace it, and
then the gate confirms a text that is not the text of the message. What is proved is that
nothing else can go wrong (`OtamanBridge.Bus.dispatched_backed`).

The bridge's own decisions have to pass the same gate. Nothing in the bridge writes to the
ledger, so they pass only where somebody else recorded them
(`OtamanBridge.Bus.announced_kept`).
-/

namespace OtamanBridge

namespace Bus

open Py

open Inbox (Content)

variable {cfg : Config} {s s₀ s' : State} {l : Label} {ls : List Label} {p : Parsed}

/-! ### The text of a message -/

/-- A message is what the reader makes of its text. -/
def Parsed.Reads (cfg : Config) (p : Parsed) : Prop :=
  ∃ raw, p.source = universalNewlines raw ∧
    parseBusFile cfg.py p.msg.stem (some (.text raw)) = .ok (some p.msg)

theorem reads_of_readMessage {stem : Text} (h : readMessage cfg s stem = .ok (some p)) :
    p.Reads cfg := by
  obtain ⟨rfl, raw, -, hsource, hparse⟩ := of_readMessage h
  exact ⟨raw, hsource, hparse⟩

/-- The ledger has a record of the text a privileged message was parsed from. -/
def Backed (cfg : Config) (ledger : List (Text × Text)) (p : Parsed) : Prop :=
  cfg.privileged (p.msg.type cfg.py) → confirmed cfg ledger p.msg p.source

theorem confirmed_mono {ledger ledger' : List (Text × Text)} (h : ledger ⊆ ledger')
    {m : BusMessage} {raw : Text} (hc : confirmed cfg ledger m raw) :
    confirmed cfg ledger' m raw := by
  simp only [confirmed, Bool.or_eq_true, Bool.and_eq_true, decide_eq_true_eq] at hc ⊢
  exact hc.imp (@h _) fun hc => ⟨hc.1, h hc.2⟩

theorem Backed.mono {ledger ledger' : List (Text × Text)} (hb : Backed cfg ledger p)
    (h : ledger ⊆ ledger') : Backed cfg ledger' p := fun hp => confirmed_mono h (hb hp)

/-! ### The gate, when no text is swapped -/

/-- The message the watcher hands on. -/
def Phase.passed : Phase → Option Parsed
  | .handing _ p _ _ => some p
  | .firing _ p _ _ => some p
  | _ => none

/-- The message of a call to `on_info`, `on_approval` or `on_event`. -/
def Happened.dispatched : Happened → Option Parsed
  | .offered p _ => some p
  | .handed p _ => some p
  | .fired p _ => some p
  | _ => none

/-- No text is swapped at the gate: no privileged message comes to it whose file now holds
a text the ledger has a record of, in place of one it has none of. -/
def Unswapped (cfg : Config) (s : State) : Label → Prop
  | .turn => ∀ scan p todo raw, s.phase = .looping scan (p :: todo) → p.msg.stem ∉ scan.state →
      cfg.privileged (p.msg.type cfg.py) → s.active.lookup p.msg.stem = some (.text raw) →
      ¬(confirmed cfg s.ledger p.msg (universalNewlines raw) ∧
        ¬confirmed cfg s.ledger p.msg p.source)
  | _ => True

/-- **The invariant of the gate.** -/
structure Gated (cfg : Config) (s : State) : Prop where
  reads : ∀ p ∈ s.phase.messages, p.Reads cfg
  passed : ∀ p ∈ s.phase.passed, p.Reads cfg ∧ Backed cfg s.ledger p
  dispatched : ∀ e ∈ s.log, ∀ p ∈ e.dispatched, p.Reads cfg ∧ Backed cfg s.ledger p

theorem verifyProvenance_eq_true {m : BusMessage} (h : verifyProvenance cfg s m = .ok true) :
    ∃ raw, s.active.lookup m.stem = some (.text raw) ∧
      confirmed cfg s.ledger m (universalNewlines raw) := by
  unfold verifyProvenance at h
  split at h
  · exact absurd h (by simp)
  · exact absurd h (by simp)
  next raw hraw => exact ⟨raw, hraw, Except.ok.inj h⟩

/-- What passes the gate is backed. -/
theorem Unswapped.backed (hC : Unswapped cfg s .turn) {scan : Scan} {todo : List Parsed}
    (hp : s.phase = .looping scan (p :: todo)) (hin : p.msg.stem ∉ scan.state)
    (hgate : cfg.privileged (p.msg.type cfg.py) → verifyProvenance cfg s p.msg = .ok true) :
    Backed cfg s.ledger p := by
  intro hpriv
  obtain ⟨raw, hraw, hconf⟩ := verifyProvenance_eq_true (hgate hpriv)
  by_contra hnot
  exact hC scan p todo raw hp hin hpriv hraw ⟨hconf, hnot⟩

theorem Gated.aside (hI : Gated cfg s) (h : Aside s s') : Gated cfg s' where
  reads := h.phase ▸ hI.reads
  passed p hp := (hI.passed p (h.phase ▸ hp)).imp_right (·.mono h.ledger)
  dispatched e he p hp := by
    rcases h.log with hlog | ⟨_, _, _, hlog⟩ | ⟨_, _, _, _, hlog⟩
    · exact (hI.dispatched e (hlog ▸ he) p hp).imp_right (·.mono h.ledger)
    · rcases List.mem_cons.mp (hlog ▸ he) with rfl | he
      · exact absurd hp (by simp [Happened.dispatched])
      · exact (hI.dispatched e he p hp).imp_right (·.mono h.ledger)
    · rcases List.mem_cons.mp (hlog ▸ he) with rfl | he
      · exact absurd hp (by simp [Happened.dispatched])
      · exact (hI.dispatched e he p hp).imp_right (·.mono h.ledger)

/-- One step of the gate. -/
theorem Gated.step (hI : Gated cfg s) (h : Step cfg s l s') (hC : Unswapped cfg s l) :
    Gated cfg s' := by
  have haside := h.aside
  cases h with
  | start hup h =>
    rcases h with ⟨_⟩ | ⟨_⟩ | ⟨_⟩ <;> exact ⟨hI.reads, hI.passed, hI.dispatched⟩
  | crash | scan | readRaises | gone | saved | saveFails | abort =>
    exact ⟨by simp [Phase.messages], by simp [Phase.passed], hI.dispatched⟩
  | readDone htap hp | readSkips htap hp | alerted htap hp =>
    refine ⟨fun q hq => hI.reads q ?_, by simp [Phase.passed], hI.dispatched⟩
    rwa [hp]
  | reads htap hp hr =>
    refine ⟨fun q hq => ?_, by simp [Phase.passed], hI.dispatched⟩
    rcases List.mem_append.mp hq with hq | hq
    · exact hI.reads q (by rwa [hp])
    · rw [List.mem_singleton.mp hq]
      exact reads_of_readMessage hr
  | @ends scan htap hp =>
    have hphase : (if scan.changed then Phase.saving scan else .idle).messages = [] ∧
        (if scan.changed then Phase.saving scan else .idle).passed = none := by
      split_ifs <;> exact ⟨rfl, rfl⟩
    refine ⟨fun q hq => ?_, fun q hq => ?_, hI.dispatched⟩
    · exact absurd (hphase.1 ▸ hq) (by simp)
    · exact absurd (hphase.2 ▸ hq) (by simp)
  | @turn scan p todo s' htap hp h =>
    have hreads : ∀ q ∈ p :: todo, q.Reads cfg := fun q hq => hI.reads q (by rwa [hp])
    have hp' := hreads p List.mem_cons_self
    rcases h with ⟨_⟩ | ⟨_⟩ | ⟨_⟩ | ⟨hin, hgate⟩ | ⟨hin, hgate⟩
    · exact ⟨fun q hq => hreads q (List.mem_cons_of_mem _ hq), by simp [Phase.passed],
        hI.dispatched⟩
    · exact ⟨by simp [Phase.messages], by simp [Phase.passed], hI.dispatched⟩
    · exact ⟨hreads, by simp [Phase.passed], hI.dispatched⟩
    · -- the gate let it pass, for the text that was read
      have hb := hC.backed hp hin hgate
      refine ⟨hreads, fun q hq => ?_, fun e he q hq => ?_⟩
      · obtain rfl := Option.some.inj hq
        exact ⟨hp', hb⟩
      · rcases List.mem_cons.mp he with rfl | he
        · obtain rfl := Option.some.inj hq
          exact ⟨hp', hb⟩
        · exact hI.dispatched e he q hq
    · refine ⟨hreads, fun q hq => ?_, hI.dispatched⟩
      obtain rfl := Option.some.inj hq
      exact ⟨hp', hC.backed hp hin hgate⟩
  | @handed scan p interactive todo htap hp =>
    have hpass := hI.passed p (by rw [hp]; exact rfl)
    refine ⟨fun q hq => hI.reads q (by rwa [hp]), fun q hq => ?_, fun e he q hq => ?_⟩
    · obtain rfl := Option.some.inj hq
      exact hpass
    · rcases List.mem_cons.mp he with rfl | he
      · obtain rfl := Option.some.inj hq
        exact hpass
      · exact hI.dispatched e he q hq
  | handFails htap hp =>
    refine ⟨fun q hq => hI.reads q ?_, by simp [Phase.passed], hI.dispatched⟩
    rw [hp]
    exact List.mem_cons_of_mem _ hq
  | @fired scan p surfaced todo htap hp =>
    have hpass := hI.passed p (by rw [hp]; exact rfl)
    refine ⟨fun q hq => hI.reads q ?_, by simp [Phase.passed], fun e he q hq => ?_⟩
    · rw [hp]
      exact List.mem_cons_of_mem _ hq
    · rcases List.mem_cons.mp he with rfl | he
      · obtain rfl := Option.some.inj hq
        exact hpass
      · exact hI.dispatched e he q hq
  | quarantine htap hp hin =>
    refine ⟨fun q hq => hI.reads q ?_, by simp [Phase.passed], fun e he q hq => ?_⟩
    · rw [hp]
      exact List.mem_cons_of_mem _ hq
    · rcases List.mem_cons.mp he with rfl | he
      · exact absurd hq (by simp [Happened.dispatched])
      · exact hI.dispatched e he q hq
  | _ => exact hI.aside (haside rfl)

theorem Gated.of_initial (h0 : Initial s) : Gated cfg s :=
  ⟨by simp [h0.phase, Phase.messages], by simp [h0.phase, Phase.passed], by simp [h0.log]⟩

/-- **What is handed on is what the ledger has a record of**: in every run in which no text
is swapped at the gate, a message that is handed to `on_info`, `on_approval` or `on_event`
is what the reader made of its text, and if it is privileged the ledger has a record of that
very text. -/
theorem dispatched_backed (cfg : Config) {s₀ s : State} {ls : List Label} (h0 : Initial s₀)
    (h : Lts.Run (Lts.Under (Unswapped cfg) (Lts.ofStep (step cfg))) s₀ ls s) :
    ∀ e ∈ s.log, ∀ p ∈ e.dispatched, p.Reads cfg ∧ Backed cfg s.ledger p :=
  (Lts.Run.inv_state (Gated.of_initial h0)
    (fun _ _ _ hI hR => hI.step (.of_step hR.2) hR.1) h).dispatched

/-! ### Two texts of one message -/

/-- A Python of envelopes, a hash that tells all texts apart, and the types that need a
confirmation. -/
def plainConfig : Config where
  py := plainPython
  privileged t :=
    t ∈ ["human-decision", "spec-change-approved", "spec-change-rejected", "emergency-halt"].map lit
  hash := id

/-- A message that asks for a halt. -/
def haltText (sender : String) : Text :=
  envelope [(lit "type", lit "emergency-halt"), (lit "from", lit sender),
    (lit "priority", lit "high")] (lit "\n## Halt\n")

/-- A bridge before a file with the stem `halt`, the message of a human confirmed. -/
def haltState (sender : String) : State where
  now := 0
  active := AList.singleton (lit "halt") (.text (haltText sender))
  acks _ := none
  ledger := [(lit "halt", haltText "human")]
  persisted := none
  legacy := none
  up := false
  pending _ := none
  phase := .idle
  tap := none
  log := []

theorem initial_haltState (sender : String) : Initial (haltState sender) where
  down := rfl
  phase := rfl
  tap := rfl
  pending _ := rfl
  log := rfl

/-- A scan, up to its loop. -/
def scanned : List Label := [.start .none true, .scan .none true, .read, .read]

/-- Whether a privileged message was handed on without a record of its text. -/
def unbacked (cfg : Config) (s : State) : Bool :=
  s.log.any fun e => e.dispatched.any fun p =>
    cfg.privileged (p.msg.type cfg.py) && !confirmed cfg s.ledger p.msg p.source

/-- A test that implies the condition: the message is on record as it was parsed. -/
def unswapped (cfg : Config) (s : State) : Label → Bool
  | .turn => match s.phase with
    | .looping _ (p :: _) => confirmed cfg s.ledger p.msg p.source
    | _ => true
  | _ => true

theorem unswapped_of_check (s : State) (l : Label) (h : unswapped cfg s l) :
    Unswapped cfg s l := by
  cases l with
  | turn =>
    rintro scan p todo raw hp - - - ⟨-, hbad⟩
    simp only [unswapped, hp] at h
    exact hbad h
  | _ => exact trivial

/-- The confirmed message is handed on, and its text is on record. -/
theorem dispatched_backed_halt : ∃ s, Lts.Run (Lts.Under (Unswapped plainConfig)
      (Lts.ofStep (step plainConfig))) (haltState "human") (scanned ++ [.turn]) s ∧
    ∃ e ∈ s.log, ∃ p ∈ e.dispatched, p.Reads plainConfig ∧ Backed plainConfig s.ledger p := by
  obtain ⟨s, hrun, hlog⟩ := Lts.exists_under_run_of_exec (step plainConfig)
    (unswapped plainConfig) unswapped_of_check (haltState "human") (scanned ++ [.turn])
    (fun s => s.log.any fun e => e.dispatched.isSome) (by decide +kernel)
  obtain ⟨e, he, hp⟩ := List.any_eq_true.mp hlog
  obtain ⟨p, hp⟩ := Option.isSome_iff_exists.mp hp
  exact ⟨s, hrun, e, he, p, hp, dispatched_backed plainConfig (initial_haltState _) hrun e he p hp⟩

/-- A message that a confirmed one replaces, once it is read. -/
theorem not_dispatched_backed : ¬∀ (cfg : Config) (s₀ s : State) (ls : List Label), Initial s₀ →
    Lts.Run (Lts.ofStep (step cfg)) s₀ ls s →
      ∀ e ∈ s.log, ∀ p ∈ e.dispatched, Backed cfg s.ledger p := by
  intro h
  obtain ⟨s, hrun, hs⟩ := Lts.exists_run_of_exec (step plainConfig) (haltState "mallory")
    (scanned ++ [.put (lit "halt") (.text (haltText "human")), .turn]) (unbacked plainConfig)
    (by decide +kernel)
  obtain ⟨e, he, hp⟩ := List.any_eq_true.mp hs
  obtain ⟨p, hp, hbad⟩ := Option.any_eq_true .. |>.mp hp
  rw [Bool.and_eq_true, Bool.not_eq_true'] at hbad
  exact absurd (h plainConfig _ s _ (initial_haltState _) hrun e he p hp hbad.1)
    (by simp [hbad.2])

/-! ### The decisions of the bridge -/

/-- The bridge wrote a decision on a message, this text, to a file of this stem. -/
def Announced (s : State) (file text : Text) : Prop :=
  ∃ stem v, .announced stem v file text ∈ s.log

/-- A file of this stem is that of a decision. -/
def Decision (s : State) (file : Text) : Prop := ∃ text, Announced s file text

/-- The decisions of the bridge are on record, and stay: no scan finds the file of one
unverified, no other process replaces or deletes it, and no later decision or reply of the
bridge takes its name. -/
def Recorded (cfg : Config) (s : State) : Label → Prop
  | .turn => ∀ scan p todo, s.phase = .looping scan (p :: todo) → p.msg.stem ∉ scan.state →
      cfg.privileged (p.msg.type cfg.py) → Decision s p.msg.stem →
      verifyProvenance cfg s p.msg ≠ .ok false
  | .put stem _ => ¬Decision s stem
  | .delete stem => ¬Decision s stem
  | .openFile true micro => ∀ p r w todo clears f,
      s.tap = some ⟨p, r, w :: todo, none, clears⟩ → fileOf cfg s micro p r w = some f →
        '/'.toNat ∈ stemOf f.name ∨ ¬Decision s (stemOf f.name)
  | _ => True

/-- No decision was quarantined after it was written; the log has the newest first. -/
def NoneQuarantined (log : List Happened) : Prop :=
  log.Pairwise fun later earlier =>
    ∀ file, later = .quarantined file → ∀ stem v text, earlier ≠ .announced stem v file text

/-- **The invariant of the decisions that were written.** -/
structure Kept (s : State) : Prop where
  calm : Calm s
  /-- They are in the directory, as they were written, unless they were written elsewhere. -/
  active : ∀ file text, Announced s file text →
    '/'.toNat ∈ file ∨ s.active.lookup file = some (.text text)
  /-- None is about to be quarantined. -/
  gate : ∀ scan p todo, s.phase = .quarantining scan p todo → ¬Decision s p.msg.stem
  /-- None is open. -/
  opened : ∀ p r w todo stem text clears,
    s.tap = some ⟨p, r, w :: todo, some (stem, text), clears⟩ → (∀ content, w ≠ .ack content) →
      '/'.toNat ∈ stem ∨ ¬Decision s stem
  unmoved : NoneQuarantined s.log

/-- A file that is made is another. -/
theorem lookup_putFile_of_ne {active : AList fun _ : Text => Content} {file text stem : Text}
    (h : '/'.toNat ∈ file ∨ file ≠ stem) :
    (putFile active file text).lookup stem = active.lookup stem := by
  unfold putFile
  split_ifs with hslash
  · rfl
  · exact AList.lookup_insert_ne (h.resolve_left hslash).symm

theorem lookup_putFile_self (active : AList fun _ : Text => Content) (stem text : Text) :
    '/'.toNat ∈ stem ∨ (putFile active stem text).lookup stem = some (.text text) := by
  unfold putFile
  split_ifs with h
  · exact .inl h
  · exact .inr (AList.lookup_insert _)

theorem announced_cons {e : Happened} {file text : Text} (hlog : s'.log = e :: s.log)
    (he : ∀ stem v, e ≠ .announced stem v file text) (h : Announced s' file text) :
    Announced s file text := by
  obtain ⟨stem, v, h⟩ := h
  rw [hlog] at h
  rcases List.mem_cons.mp h with h | h
  · exact absurd h.symm (he stem v)
  · exact ⟨stem, v, h⟩

/-- An event that is no decision and no quarantine. -/
def Happened.other : Happened → Bool
  | .quarantined _ => false
  | .announced .. => false
  | _ => true

theorem Happened.ne_of_other {e : Happened} (h : e.other) :
    (∀ file, e ≠ .quarantined file) ∧ ∀ stem v file text, e ≠ .announced stem v file text := by
  constructor
  · rintro file rfl
    exact absurd h Bool.false_ne_true
  · rintro stem v file text rfl
    exact absurd h Bool.false_ne_true

/-- Steps that write no decision and quarantine nothing. -/
theorem Kept.frame (hI : Kept s) (hcalm : Calm s')
    (hlog : s'.log = s.log ∨ ∃ e : Happened, e.other ∧ s'.log = e :: s.log)
    (hactive : ∀ file, Decision s file → '/'.toNat ∉ file →
      s'.active.lookup file = s.active.lookup file)
    (hgate : ∀ scan p todo, s'.phase = .quarantining scan p todo → ¬Decision s p.msg.stem)
    (hopened : ∀ p r w todo stem text clears,
      s'.tap = some ⟨p, r, w :: todo, some (stem, text), clears⟩ → (∀ content, w ≠ .ack content) →
        '/'.toNat ∈ stem ∨ ¬Decision s stem) : Kept s' := by
  have hann : ∀ file text, Announced s' file text → Announced s file text := by
    rintro file text h
    rcases hlog with hlog | ⟨e, he, hlog⟩
    · obtain ⟨stem, v, h⟩ := h
      exact ⟨stem, v, hlog ▸ h⟩
    · exact announced_cons hlog (fun _ _ => (Happened.ne_of_other he).2 _ _ _ _) h
  have hdec : ∀ file, Decision s' file → Decision s file := fun file ⟨text, h⟩ =>
    ⟨text, hann file text h⟩
  refine ⟨hcalm, fun file text hf => ?_, fun scan p todo hp hf => hgate scan p todo hp (hdec _ hf),
    fun p r w todo stem text clears ht hw =>
      (hopened p r w todo stem text clears ht hw).imp_right (mt (hdec stem)), ?_⟩
  -- what was announced before is still there: its file is not one that the step touched
  · have hf := hann file text hf
    refine or_iff_not_imp_left.mpr fun hslash => ?_
    rw [hactive file ⟨text, hf⟩ hslash]
    exact (hI.active file text hf).resolve_left hslash
  · rcases hlog with hlog | ⟨e, he, hlog⟩
    · exact hlog ▸ hI.unmoved
    · rw [hlog]
      refine List.pairwise_cons.mpr ⟨fun _ _ file h => ?_, hI.unmoved⟩
      exact absurd h ((Happened.ne_of_other he).1 file)

/-- The broadcast of a decision is written to the file a tap has open. -/
theorem Kept.announce (hI : Kept s) (hcalm : Calm s') {r : Reply} {v : Verdict} {todo : List Write}
    {stem text : Text} {clears : Bool}
    (ht : s.tap = some ⟨p, r, .broadcast v :: todo, some (stem, text), clears⟩)
    (hlog : s'.log = .announced p.msg.stem v stem text :: s.log) (hphase : s'.phase = s.phase)
    (htap : s'.tap = some ⟨p, r, todo, none, clears⟩)
    (hactive : s'.active = putFile s.active stem text) : Kept s' := by
  have hfree := hI.opened p r _ todo stem text clears ht (by simp)
  refine ⟨hcalm, fun file text' hf => ?_, fun scan q todo hq _ => ?_, by simp [htap], ?_⟩
  · rw [hactive]
    obtain ⟨stem', v', h⟩ := hf
    rw [hlog] at h
    rcases List.mem_cons.mp h with h | h
    · obtain ⟨-, -, rfl, rfl⟩ := Happened.announced.inj h
      exact lookup_putFile_self _ _ _
    · -- the file of an earlier decision is not the one that is open
      have hann : Announced s file text' := ⟨stem', v', h⟩
      refine (hI.active file text' hann).imp_right fun hlookup => ?_
      refine (lookup_putFile_of_ne (hfree.imp_right ?_)).trans hlookup
      rintro hnot rfl
      exact hnot ⟨text', hann⟩
  -- the watcher is not at the gate while a tap writes
  · have := hI.calm (by simp [ht])
    rw [← hphase, hq] at this
    exact absurd this Bool.false_ne_true
  · rw [hlog]
    exact List.pairwise_cons.mpr ⟨fun _ _ _ h => absurd h (by simp), hI.unmoved⟩

/-- One step of the decisions that were written. -/
theorem Kept.step (hI : Kept s) (h : Step cfg s l s') (hC : Recorded cfg s l) : Kept s' := by
  have hcalm := hI.calm.step h
  have hno : s.tap = none → ∀ p r w todo stem text clears,
      s.tap = some ⟨p, r, w :: todo, some (stem, text), clears⟩ → (∀ content, w ≠ .ack content) →
        '/'.toNat ∈ stem ∨ ¬Decision s stem :=
    fun hnone _ _ _ _ _ _ _ ht => absurd (hnone.symm.trans ht) (by simp)
  have hsame : ∀ file, Decision s file → '/'.toNat ∉ file →
      s.active.lookup file = s.active.lookup file := fun _ _ _ => rfl
  cases h with
  | start hup h =>
    rcases h with ⟨_⟩ | ⟨_⟩ | ⟨_⟩ <;> exact hI.frame hcalm (.inl rfl) hsame hI.gate hI.opened
  | @put stem content =>
    refine hI.frame hcalm (.inl rfl) (fun file hf _ => AList.lookup_insert_ne ?_) hI.gate hI.opened
    rintro rfl
    exact hC hf
  | @delete stem =>
    refine hI.frame hcalm (.inl rfl) (fun file hf _ => AList.lookup_erase_ne ?_) hI.gate hI.opened
    rintro rfl
    exact hC hf
  | cliAck | tick | confirm | tapIgnored =>
    exact hI.frame hcalm (.inl rfl) hsame hI.gate hI.opened
  | tapTaken | openFails | writeFails | finish =>
    exact hI.frame hcalm (.inl rfl) hsame hI.gate (by simp)
  | @ends scan htap hp =>
    refine hI.frame hcalm (.inl rfl) hsame (fun scan' p todo hp' => ?_) (hno htap)
    dsimp only at hp'
    split_ifs at hp'
  | @turn scan p todo s' htap hp h =>
    rcases h with ⟨_⟩ | ⟨_⟩ | ⟨hin, hpriv, hv⟩ | ⟨_⟩ | ⟨_⟩
    · exact hI.frame hcalm (.inl rfl) hsame (by simp) (hno htap)
    · exact hI.frame hcalm (.inl rfl) hsame (by simp) (hno htap)
    · refine hI.frame hcalm (.inl rfl) hsame (fun scan' q todo' hq hf => ?_) (hno htap)
      obtain ⟨-, rfl, -⟩ := Phase.quarantining.inj hq
      exact hC scan p todo hp hin hpriv hf hv
    · exact hI.frame hcalm (.inr ⟨_, rfl, rfl⟩) hsame (by simp) (hno htap)
    · exact hI.frame hcalm (.inl rfl) hsame (by simp) (hno htap)
  | handed htap | fired htap =>
    exact hI.frame hcalm (.inr ⟨_, rfl, rfl⟩) hsame (by simp) (hno htap)
  -- the gate let only a message through to here that is no decision
  | @quarantine scan p todo htap hp hin =>
    have hnot := hI.gate scan p todo hp
    refine ⟨hcalm, fun file text hf => ?_, by simp, by simp [htap], ?_⟩
    · have hf := announced_cons rfl (by simp) hf
      refine (hI.active file text hf).imp_right fun h => (AList.lookup_erase_ne ?_).trans h
      rintro rfl
      exact hnot ⟨text, hf⟩
    · refine List.pairwise_cons.mpr ⟨fun e he file hfile stem v text hev => hnot ?_, hI.unmoved⟩
      obtain rfl := Happened.quarantined.inj hfile
      exact ⟨text, stem, v, hev ▸ he⟩
  -- the `open` empties what has the name: no decision, by the condition
  | @opens micro s' h =>
    rcases h with ⟨ht⟩ | @⟨p, r, w, todo, clears, f, ht, hf⟩
    · refine hI.frame hcalm (.inr ⟨_, rfl, rfl⟩) hsame hI.gate ?_
      rintro p r w todo stem text clears ⟨⟩ hw
      exact absurd rfl (hw _)
    · have hfree := hC p r w todo clears f ht hf
      refine hI.frame hcalm (.inl rfl) (fun file hdec _ => lookup_putFile_of_ne ?_) hI.gate ?_
      · refine hfree.imp_right ?_
        rintro hnot rfl
        exact hnot hdec
      · rintro p r w todo stem text clears ⟨⟩ -
        exact hfree
  -- the text goes where the `open` was, which `opened` has kept in mind
  | writes h =>
    rcases h with ⟨ht⟩ | @⟨p, r, v, todo, stem, text, clears, ht⟩ |
      @⟨p, r, t, todo, stem, text, clears, ht⟩
    · exact hI.frame hcalm (.inr ⟨_, rfl, rfl⟩) hsame hI.gate (by simp)
    · exact hI.announce hcalm ht rfl rfl rfl rfl
    · refine hI.frame hcalm (.inl rfl) (fun file hdec _ => lookup_putFile_of_ne ?_) hI.gate
        (by simp)
      refine (hI.opened p r _ todo stem text clears ht (by simp)).imp_right ?_
      rintro hnot rfl
      exact hnot hdec
  | crash => exact hI.frame hcalm (.inl rfl) hsame (by simp) (by simp)
  | _ => exact hI.frame hcalm (.inl rfl) hsame (by simp) (hno ‹_›)

/-- **A recorded decision stays**: in every run in which no scan finds a decision of the
bridge unverified and nobody replaces or deletes it, no scan quarantines one after it was
written, and every one that was written into the directory is still there as it was
written. -/
theorem announced_kept (cfg : Config) {s₀ s : State} {ls : List Label} (h0 : Initial s₀)
    (h : Lts.Run (Lts.Under (Recorded cfg) (Lts.ofStep (step cfg))) s₀ ls s) :
    NoneQuarantined s.log ∧ ∀ file text, Announced s file text →
      '/'.toNat ∈ file ∨ s.active.lookup file = some (.text text) := by
  have hinit : Kept s₀ := by
    refine ⟨.of_tap_eq_none h0.tap, ?_, by simp [h0.phase], by simp [h0.tap],
      by simp [NoneQuarantined, h0.log]⟩
    rintro file text ⟨stem, v, h⟩
    exact absurd h (by simp [h0.log])
  have hkept := Lts.Run.inv_state hinit (fun s l s' hI hR => hI.step (.of_step hR.2) hR.1) h
  exact ⟨hkept.unmoved, hkept.active⟩

/-! ### A decision nobody recorded -/

/-- A request for a change, from the agent `infra`. -/
def requestText : Text :=
  envelope [(lit "type", lit "spec-change-request"), (lit "from", lit "infra")]
    (lit "\n## Rename the queue\n")

/-- What the reader makes of it. -/
def requestMessage : BusMessage where
  stem := lit "req"
  frontmatter := [(.str (lit "type"), .str (lit "spec-change-request")),
    (.str (lit "from"), .str (lit "infra"))]
  body := lit "## Rename the queue\n"

/-- A bridge before the request. -/
def requestState : State where
  now := 0
  active := AList.singleton (lit "req") (.text requestText)
  acks _ := none
  ledger := []
  persisted := none
  legacy := none
  up := false
  pending _ := none
  phase := .idle
  tap := none
  log := []

theorem initial_requestState : Initial requestState where
  down := rfl
  phase := rfl
  tap := rfl
  pending _ := rfl
  log := rfl

/-- The request is surfaced, and marked. -/
def surfaced : List Label := scanned ++ [.turn, .handed true, .fired, .turn, .save true]

/-- The steps of a tap that decides. -/
def taps (v : Verdict) : List Label :=
  [.tap ⟨lit "req", .decide v, lit "ada", []⟩, .openFile true 0, .writeFile true,
    .openFile true 0, .writeFile true, .finish]

/-- A scan of two files, up to its first message: the decision comes before the request. -/
def rescanned : List Label := [.scan .none true, .read, .read, .read, .turn]

/-- The file of the approval. -/
def approvalFile : MessageFile :=
  broadcastDecision plainPython requestMessage ⟨0, 0⟩ (lit "ada") [] .approved

/-- A test that implies the condition: no decision was written, or what comes to the gate is
not unverified. -/
def recorded (cfg : Config) (s : State) : Label → Bool
  | .turn => match s.phase with
    | .looping _ (p :: _) => (verifyProvenance cfg s p.msg).toOption ≠ some false ||
        s.log.all Happened.other
    | _ => true
  | .put .. | .delete _ => false
  | .openFile true _ => s.log.all Happened.other
  | _ => true

theorem recorded_of_check (s : State) (l : Label) (h : recorded plainConfig s l) :
    Recorded plainConfig s l := by
  have hnone : s.log.all Happened.other → ∀ file, ¬Decision s file := by
    rintro hall file ⟨text, stem, v, hann⟩
    exact absurd (List.all_eq_true.mp hall _ hann) Bool.false_ne_true
  cases l with
  | turn =>
    rintro scan p todo hp - - hdec hv
    simp only [recorded, hp, hv, Bool.or_eq_true] at h
    rcases h with h | h
    · exact absurd h (by simp [Except.toOption])
    · exact hnone h _ hdec
  | put | delete => exact absurd h Bool.false_ne_true
  | openFile ok micro =>
    cases ok with
    | true => exact fun _ _ _ _ _ _ _ _ => .inr (hnone h _)
    | false => exact trivial
  | _ => exact trivial

/-- Whether it is the file of a decision of the bridge. -/
def Happened.isFile (file : Text) : Happened → Bool
  | .announced _ _ file' _ => file' = file
  | _ => false

/-- Whether it is this broadcast. -/
def Happened.isBroadcast (f : MessageFile) : Happened → Bool
  | .announced _ _ file text => file = stemOf f.name ∧ text = f.text
  | _ => false

/-- An approval that somebody records stays. -/
theorem announced_kept_approval : ∃ s, Lts.Run (Lts.Under (Recorded plainConfig)
      (Lts.ofStep (step plainConfig))) requestState
      (surfaced ++ taps .approved ++ [.confirm (stemOf approvalFile.name) approvalFile.text] ++
        rescanned) s ∧
    s.active.lookup (stemOf approvalFile.name) = some (.text approvalFile.text) := by
  obtain ⟨s, hrun, hs⟩ := Lts.exists_under_run_of_exec (step plainConfig) (recorded plainConfig)
    recorded_of_check requestState
    (surfaced ++ taps .approved ++ [.confirm (stemOf approvalFile.name) approvalFile.text] ++
      rescanned)
    (fun s => s.log.any (Happened.isBroadcast approvalFile)) (by decide +kernel)
  obtain ⟨e, he, hfile⟩ := List.any_eq_true.mp hs
  refine ⟨s, hrun, ?_⟩
  have hkept := (announced_kept plainConfig initial_requestState hrun).2
    (stemOf approvalFile.name) approvalFile.text ?_
  · exact hkept.resolve_left (by decide +kernel)
  · cases e with
    | announced stem v file text =>
      obtain ⟨rfl, rfl⟩ : file = stemOf approvalFile.name ∧ text = approvalFile.text :=
        of_decide_eq_true hfile
      exact ⟨stem, v, he⟩
    | _ => exact absurd hfile Bool.false_ne_true

/-- Whether the last thing that happened is that a decision of the bridge was quarantined. -/
def quarantinedOwn : List Happened → Bool
  | .quarantined file :: rest => rest.any (Happened.isFile file)
  | _ => false

/-- **The bridge quarantines its own approval**, which nobody recorded. -/
theorem not_announced_kept : ¬∀ (cfg : Config) (s₀ s : State) (ls : List Label),
    cfg.privileged (lit "spec-change-approved") → cfg.privileged (lit "spec-change-rejected") →
    Initial s₀ → Lts.Run (Lts.ofStep (step cfg)) s₀ ls s → NoneQuarantined s.log := by
  intro h
  obtain ⟨s, hrun, hs⟩ := Lts.exists_run_of_exec (step plainConfig) requestState
    (surfaced ++ taps .approved ++ rescanned ++ [.quarantine])
    (fun s => quarantinedOwn s.log) (by decide +kernel)
  have hnone :=
    h plainConfig _ s _ (by decide +kernel) (by decide +kernel) initial_requestState hrun
  unfold NoneQuarantined at hnone
  rcases hlog : s.log with _ | ⟨e, rest⟩
  · exact absurd hs (by simp [hlog, quarantinedOwn])
  · rw [hlog] at hs hnone
    cases e with
    | quarantined file =>
      obtain ⟨e', he', hfile⟩ := List.any_eq_true.mp hs
      cases e' with
      | announced stem v file' text =>
        obtain rfl : file' = file := of_decide_eq_true hfile
        exact (List.pairwise_cons.mp hnone).1 _ he' _ rfl stem v text rfl
      | _ => exact absurd hfile Bool.false_ne_true
    | _ => exact absurd hs Bool.false_ne_true

end Bus

end OtamanBridge
