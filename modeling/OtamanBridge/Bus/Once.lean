import OtamanBridge.Bus.Provenance

/-!
# No message is dispatched twice

A message is marked in memory when it was handed on and passed to `on_event`, and the marks
reach the disk when the scan ends. So a message is dispatched once as long as its mark is not
lost on the way there or afterwards: the scan is not cut short while the mark is in memory
only, the state file can be read back, and the mark is not pruned while the file is still in
the directory (`OtamanBridge.Bus.Durable`). Under this condition a message that was dispatched
is marked (`OtamanBridge.Bus.Once`), and the loop passes over what is marked. All this is said
of one message; what becomes of the others does not matter.
-/

namespace OtamanBridge

namespace Bus

open Py

open Inbox (Content)

variable {cfg : Config} {s s₀ s' : State} {l : Label} {ls : List Label} {p q : Parsed} {stem : Text}

/-! ### What was dispatched, and what is on disk -/

/-- The stem of a message that is passed to `on_event`. -/
def Happened.firedStem : Happened → Option Text
  | .fired p _ => some p.msg.stem
  | _ => none

/-- The stem of a message that was handed to `on_info` or `on_approval`. -/
def Happened.handedStem : Happened → Option Text
  | .handed p _ => some p.msg.stem
  | _ => none

/-- The stems passed to `on_event`, as often as they were. -/
def State.fired (s : State) : List Text := s.log.filterMap Happened.firedStem

/-- The stems handed on, as often as they were. -/
def State.handed (s : State) : List Text := s.log.filterMap Happened.handedStem

/-- The message was handed on, and is about to be marked. -/
def Phase.marking (phase : Phase) (stem : Text) : Prop :=
  ∃ scan p todo, phase = .firing scan p true todo ∧ p.msg.stem = stem

/-- **The mark of a message is in memory only**: a scan has handed it on, or marked it, and
it is not on disk. -/
def AtRisk (s : State) (stem : Text) : Prop :=
  stem ∉ s.stored ∧ ((∃ scan ∈ s.phase.scan, stem ∈ scan.state) ∨ s.phase.marking stem)

/-! ### The condition -/

/-- The mark of a message whose file is there is not pruned, at this time. -/
def KeepsMark (s : State) (stem : Text) (state : Surfaced) : Prop :=
  stem ∈ state → stem ∈ s.active → stem ∈ prune s.now state

/-- A legacy file that is read is migrated with the mark. -/
def Migrates (s : State) (stem : Text) (readable : Bool) : Prop :=
  readable → s.persisted = none → ∀ st ∈ s.legacy, KeepsMark s stem st

/-- **The mark of a message is not lost.** Its file stays. A scan is cut short, by a crash, an
exception out of its loop or a failed save, only while the mark is not at risk; what is saved
has the mark, and what a scan begins with was read from the disk. -/
def Durable (cfg : Config) (stem : Text) (s : State) : Label → Prop
  | .delete stem' => stem' ≠ stem
  | .crash => ¬AtRisk s stem
  | .abort => ¬AtRisk s stem
  | .save true => ∀ scan, s.phase = .saving scan → KeepsMark s stem scan.state
  | .save false => ¬AtRisk s stem
  | .turn => ∀ scan p todo, s.phase = .looping scan (p :: todo) → p.msg.stem ∉ scan.state →
      cfg.privileged (p.msg.type cfg.py) → verifyProvenance cfg s p.msg = .error () →
        ¬AtRisk s stem
  | .quarantine => ∀ scan p todo, s.phase = .quarantining scan p todo → p.msg.stem ∉ s.active →
      ¬AtRisk s stem
  | .start _ readable => Migrates s stem readable
  | .scan _ readable =>
    Migrates s stem readable ∧ (readable = false → stem ∈ s.stored → stem ∉ s.active)
  | _ => True

/-- The message was dispatched. -/
def State.Met (s : State) (stem : Text) : Prop := stem ∈ s.fired ∨ stem ∈ s.handed

/-- **The invariant**: if the message was dispatched, it is marked. -/
structure Once (stem : Text) (s : State) : Prop where
  nodup : s.phase.stems.Nodup
  /-- Its file is there, while it is at hand. -/
  there : ∀ p ∈ s.phase.messages, p.msg.stem = stem → stem ∈ s.active
  reading : ∀ scan stems parsed, s.phase = .reading scan stems parsed → scan.changed = false
  /-- The message in hand is not marked. -/
  inHand : ∀ scan ∈ s.phase.scan, ∀ p ∈ s.phase.inHand, p.msg.stem ∉ scan.state
  active : s.Met stem → stem ∈ s.active
  /-- Between two scans the mark is on disk. -/
  idle : s.phase.scan = none → s.Met stem → stem ∈ s.stored
  marked : ∀ scan ∈ s.phase.scan, s.Met stem → stem ∈ scan.state ∨ s.phase.marking stem
  /-- A scan that has nothing to save has not met it. -/
  clean : ∀ scan ∈ s.phase.scan, scan.changed = false → s.Met stem →
    stem ∈ s.stored ∨ s.phase.marking stem
  firing : s.phase.marking stem → stem ∉ s.fired
  fired_once : s.fired.count stem ≤ 1
  handed_once : s.handed.count stem ≤ 1

/-- A mark that is not at risk is on disk. -/
theorem Once.stored (hI : Once stem s) (hm : s.Met stem) (hrisk : ¬AtRisk s stem) :
    stem ∈ s.stored := by
  by_contra hnot
  rcases hscan : s.phase.scan with _ | scan
  · exact hnot (hI.idle hscan hm)
  · exact hrisk ⟨hnot, (hI.marked scan hscan hm).imp_left fun h => ⟨scan, hscan, h⟩⟩

/-- The watcher stops, and the mark is on disk. -/
theorem Once.stop (hI : Once stem s) (hphase : s'.phase = .idle) (hlog : s'.log = s.log)
    (hactive : s'.active = s.active) (hstored : s.Met stem → stem ∈ s'.stored) :
    Once stem s' := by
  have hfired : s'.fired = s.fired := by rw [State.fired, hlog]; rfl
  have hhanded : s'.handed = s.handed := by rw [State.handed, hlog]; rfl
  have hmet : s'.Met stem ↔ s.Met stem := by rw [State.Met, hfired, hhanded]; rfl
  refine ⟨?_, by simp [hphase, Phase.messages], by simp [hphase], by simp [hphase, Phase.scan],
    fun hm => hactive ▸ hI.active (hmet.mp hm), fun _ hm => hstored (hmet.mp hm),
    by simp [hphase, Phase.scan], by simp [hphase, Phase.scan], by simp [hphase, Phase.marking],
    hfired ▸ hI.fired_once, hhanded ▸ hI.handed_once⟩
  rw [hphase]
  exact List.nodup_nil

/-- The watcher goes on, and nothing is dispatched. -/
theorem Once.move (hI : Once stem s) {scan scan' : Scan} (hscan : s.phase.scan = some scan)
    (hscan' : s'.phase.scan = some scan') (hstate : scan'.state = scan.state)
    (hchanged : scan'.changed = scan.changed) (hnodup : s'.phase.stems.Nodup)
    (hmessages : ∀ p ∈ s'.phase.messages, p.msg.stem = stem → stem ∈ s.active)
    (hreading : ∀ scan stems parsed, s'.phase = .reading scan stems parsed → scan.changed = false)
    (hinHand : ∀ p ∈ s'.phase.inHand, p.msg.stem ∉ scan.state)
    (hmarking : ¬s.phase.marking stem) (hmarking' : ¬s'.phase.marking stem)
    (hactive : s'.active = s.active) (hlog : s'.fired = s.fired ∧ s'.handed = s.handed)
    (hstored : s'.stored = s.stored) : Once stem s' := by
  have hmet : s'.Met stem ↔ s.Met stem := by rw [State.Met, hlog.1, hlog.2]; rfl
  refine ⟨hnodup, fun p hp h => hactive ▸ hmessages p hp h, hreading, fun scan'' hs p hp => ?_,
    fun hm => hactive ▸ hI.active (hmet.mp hm), by simp [hscan'], fun scan'' hs hm => ?_,
    fun scan'' hs hclean hm => ?_, fun h => absurd h hmarking', hlog.1 ▸ hI.fired_once,
    hlog.2 ▸ hI.handed_once⟩
  all_goals obtain rfl := Option.some.inj (hscan'.symm.trans hs)
  · exact hstate ▸ hinHand p hp
  · exact .inl (hstate ▸ (hI.marked scan hscan (hmet.mp hm)).resolve_right hmarking)
  · refine .inl (hstored ▸ (hI.clean scan hscan ?_ (hmet.mp hm)).resolve_right hmarking)
    exact hchanged ▸ hclean

/-- The message in hand was not dispatched, unless it is about to be marked. -/
theorem Once.not_met (hI : Once stem s) {scan : Scan} (hscan : s.phase.scan = some scan)
    (hin : stem ∉ scan.state) (hmarking : ¬s.phase.marking stem) : ¬s.Met stem := fun hm =>
  hmarking ((hI.marked scan hscan hm).resolve_left hin)

/-! ### Loading -/

/-- A mark on disk stays there when the state is loaded. -/
theorem mem_stored_of_load {readable : Bool} (hmig : Migrates s stem readable)
    (hin : stem ∈ s.stored) (hactive : stem ∈ s.active) :
    stem ∈ ((loadState s readable).2.orElse fun _ => s.legacy).getD ∅ := by
  unfold State.stored at hin
  unfold loadState
  rcases hp : s.persisted with _ | st
  · rcases hl : s.legacy with _ | st
    · simp [hp, hl] at hin
    · have hin : stem ∈ st := by simpa [hp, hl] using hin
      cases readable with
      | false => simpa using hin
      | true => simpa using hmig rfl hp st hl hin hactive
  · simpa [hp] using hin

/-! ### Steps aside -/

/-- Other processes and taps. -/
theorem Once.aside (hI : Once stem s) (h : Aside s s')
    (hactive : stem ∈ s.active → stem ∈ s'.active) : Once stem s' := by
  have hlog : s'.fired = s.fired ∧ s'.handed = s.handed := by
    unfold State.fired State.handed
    rcases h.log with hlog | ⟨_, _, _, hlog⟩ | ⟨_, _, _, _, hlog⟩ <;> rw [hlog] <;> exact ⟨rfl, rfl⟩
  have hmet : s'.Met stem ↔ s.Met stem := by rw [State.Met, hlog.1, hlog.2]; rfl
  refine ⟨h.phase ▸ hI.nodup, fun p hp hstem => hactive (hI.there p (h.phase ▸ hp) hstem),
    h.phase ▸ hI.reading, h.phase ▸ hI.inHand, fun hm => hactive (hI.active (hmet.mp hm)),
    fun hs hm => ?_, fun scan hs hm => ?_, fun scan hs hclean hm => ?_, fun hmarking => ?_,
    hlog.1 ▸ hI.fired_once, hlog.2 ▸ hI.handed_once⟩
  · exact h.stored ▸ hI.idle (h.phase ▸ hs) (hmet.mp hm)
  · exact h.phase ▸ hI.marked scan (h.phase ▸ hs) (hmet.mp hm)
  · rw [h.stored, h.phase]
    exact hI.clean scan (h.phase ▸ hs) hclean (hmet.mp hm)
  · exact hlog.1 ▸ hI.firing (h.phase ▸ hmarking)

/-- A file that is made takes none away. -/
theorem mem_putFile {active : AList fun _ : Text => Content} {file text : Text}
    (h : stem ∈ active) : stem ∈ putFile active file text := by
  unfold putFile
  split_ifs
  · exact h
  · exact (AList.mem_insert _).mpr (.inr h)

/-- One step aside. -/
theorem Once.step_aside (hI : Once stem s) (h : Step cfg s l s') (hl : l.aside)
    (hC : Durable cfg stem s l) : Once stem s' := by
  refine hI.aside (h.aside hl) fun hin => ?_
  cases h with
  | put => exact (AList.mem_insert _).mpr (.inr hin)
  | delete => exact (AList.mem_erase ..).mpr ⟨Ne.symm hC, hin⟩
  | opens h =>
    rcases h with ⟨_⟩ | ⟨_⟩
    · exact hin
    · exact mem_putFile hin
  | writes h =>
    rcases h with ⟨_⟩ | ⟨_⟩ | ⟨_⟩
    · exact hin
    · exact mem_putFile hin
    · exact mem_putFile hin
  | tick | confirm | cliAck | tapIgnored | tapTaken | openFails | writeFails | finish => exact hin
  | _ => exact absurd hl Bool.false_ne_true

/-! ### Steps of the watcher -/

/-- The loop comes to a message. -/
theorem Once.turn (hI : Once stem s) {scan : Scan} {todo : List Parsed} (htap : s.tap = none)
    (hp : s.phase = .looping scan (p :: todo)) (h : Turns cfg s scan p todo s')
    (hC : Durable cfg stem s .turn) : Once stem s' := by
  have hstep : Step cfg s .turn s' := .turn htap hp h
  have hnodup := hstep.nodup_stems hI.nodup
  have hscan : s.phase.scan = some scan := by rw [hp]; rfl
  have hmarking : ¬s.phase.marking stem := by simp [hp, Phase.marking]
  have hthere : ∀ q ∈ p :: todo, q.msg.stem = stem → stem ∈ s.active :=
    fun q hq => hI.there q (by rwa [hp])
  rcases h with ⟨hin⟩ | ⟨hin, hpriv, hv⟩ | ⟨hin⟩ | ⟨hin⟩ | ⟨hin⟩
  · exact hI.move hscan rfl rfl rfl hnodup (fun q hq => hthere q (List.mem_cons_of_mem _ hq))
      (by simp) (by simp [Phase.inHand]) hmarking (by simp [Phase.marking]) rfl ⟨rfl, rfl⟩ rfl
  · exact hI.stop rfl rfl rfl fun hm => hI.stored hm (hC scan p todo hp hin hpriv hv)
  all_goals
    exact hI.move hscan rfl rfl rfl hnodup hthere (by simp) (by simpa [Phase.inHand] using hin)
      hmarking (by simp [Phase.marking]) rfl ⟨rfl, rfl⟩ rfl

/-- What comes to a list that it was not in is there once. -/
theorem count_cons_le_one {a b : Text} {l : List Text} (hl : l.count a ≤ 1)
    (hnew : b = a → a ∉ l) : (b :: l).count a ≤ 1 := by
  by_cases heq : b = a
  · rw [heq, List.count_cons_self, List.count_eq_zero.mpr (hnew heq)]
  · rwa [List.count_cons_of_ne heq]

/-- The message was handed on. -/
theorem Once.handed (hI : Once stem s) {scan : Scan} {interactive : Bool} {todo : List Parsed}
    (hp : s.phase = .handing scan p interactive todo)
    (hlog : s'.log = .handed p interactive :: s.log)
    (hphase : s'.phase = .firing scan p true todo) (hactive : s'.active = s.active)
    (hstored : s'.stored = s.stored) : Once stem s' := by
  have hscan : s.phase.scan = some scan := by rw [hp]; rfl
  have hin : p.msg.stem ∉ scan.state := hI.inHand scan hscan p (by rw [hp]; rfl)
  have hmarking : ¬s.phase.marking stem := by simp [hp, Phase.marking]
  have hfired : s'.fired = s.fired := by rw [State.fired, hlog]; rfl
  have hhanded : s'.handed = p.msg.stem :: s.handed := by rw [State.handed, hlog]; rfl
  have hthere : ∀ q ∈ p :: todo, q.msg.stem = stem → stem ∈ s.active :=
    fun q hq => hI.there q (by rwa [hp])
  -- it is this message, which was not met, or another one, for which nothing changes
  have hmet : s'.Met stem → p.msg.stem = stem ∨ s.Met stem := by
    intro hm
    rw [State.Met, hfired, hhanded, List.mem_cons] at hm
    tauto
  have hthis : p.msg.stem = stem → ¬s.Met stem := by
    rintro rfl
    exact hI.not_met hscan hin hmarking
  have hmarks : p.msg.stem = stem → s'.phase.marking stem := fun h => ⟨scan, p, todo, hphase, h⟩
  refine ⟨?_, fun q hq h => ?_, by simp [hphase], fun scan' hs q hq => ?_, fun hm => ?_,
    by simp [hphase, Phase.scan], fun scan' hs hm => ?_, fun scan' hs hclean hm => ?_, ?_,
    hfired ▸ hI.fired_once, ?_⟩
  · have := hI.nodup
    rw [hp] at this
    rwa [hphase]
  · rw [hphase] at hq
    exact hactive ▸ hthere q hq h
  · rw [hphase] at hs hq
    obtain rfl := Option.some.inj hs
    obtain rfl := Option.some.inj hq
    exact hin
  · rw [hactive]
    exact (hmet hm).elim (hthere p List.mem_cons_self) hI.active
  · rw [hphase] at hs
    obtain rfl := Option.some.inj hs
    rcases hmet hm with hstem | hm
    · exact .inr (hmarks hstem)
    · exact .inl ((hI.marked _ hscan hm).resolve_right hmarking)
  · rw [hphase] at hs
    obtain rfl := Option.some.inj hs
    rcases hmet hm with hstem | hm
    · exact .inr (hmarks hstem)
    · exact .inl (hstored ▸ (hI.clean _ hscan hclean hm).resolve_right hmarking)
  · rintro ⟨_, _, _, hq, hstem⟩
    obtain ⟨-, rfl, -, -⟩ := Phase.firing.inj (hphase.symm.trans hq)
    rw [hfired]
    exact fun h => hthis hstem (.inl h)
  · rw [hhanded]
    exact count_cons_le_one hI.handed_once fun hstem h => hthis hstem (.inr h)

/-- The message was passed to `on_event`, and is marked. -/
theorem Once.fired (hI : Once stem s) {scan : Scan} {surfaced : Bool} {todo : List Parsed}
    (hp : s.phase = .firing scan p surfaced todo) (hlog : s'.log = .fired p scan.overrides :: s.log)
    (hphase : s'.phase = .looping { scan with
      state := scan.state.insert p.msg.stem scan.now, changed := true } todo)
    (hactive : s'.active = s.active) : Once stem s' := by
  have hscan : s.phase.scan = some scan := by rw [hp]; rfl
  have hin : p.msg.stem ∉ scan.state := hI.inHand scan hscan p (by rw [hp]; rfl)
  have hfired : s'.fired = p.msg.stem :: s.fired := by rw [State.fired, hlog]; rfl
  have hhanded : s'.handed = s.handed := by rw [State.handed, hlog]; rfl
  -- a message that was surfaced was handed on, one that was not was not dispatched
  have hthis : p.msg.stem = stem → stem ∉ s.fired := by
    rintro rfl
    cases surfaced with
    | true => exact hI.firing ⟨scan, p, todo, hp, rfl⟩
    | false => exact fun h => hI.not_met hscan hin (by simp [hp, Phase.marking]) (.inl h)
  have hmet : s'.Met stem → p.msg.stem = stem ∨ s.Met stem := by
    intro hm
    rw [State.Met, hfired, hhanded, List.mem_cons] at hm
    tauto
  have hthere : ∀ q ∈ p :: todo, q.msg.stem = stem → stem ∈ s.active :=
    fun q hq => hI.there q (by rwa [hp])
  refine ⟨?_, fun q hq h => ?_, by simp [hphase], by simp [hphase, Phase.inHand], fun hm => ?_,
    by simp [hphase, Phase.scan], fun scan' hs hm => ?_, fun scan' hs hclean => ?_,
    by simp [hphase, Phase.marking], ?_, hhanded ▸ hI.handed_once⟩
  · have := hI.nodup
    rw [hp] at this
    rw [hphase]
    exact (List.nodup_cons.mp this).2
  · rw [hphase] at hq
    exact hactive ▸ hthere q (List.mem_cons_of_mem _ hq) h
  · rw [hactive]
    exact (hmet hm).elim (hthere p List.mem_cons_self) hI.active
  · rw [hphase] at hs
    obtain rfl := Option.some.inj hs
    refine .inl ((AList.mem_insert _).mpr ?_)
    rcases hmet hm with hstem | hm
    · exact .inl hstem.symm
    · rcases hI.marked scan hscan hm with h | ⟨_, q, todo', hq, hstem⟩
      · exact .inr h
      · obtain ⟨-, rfl, -, -⟩ := Phase.firing.inj (hp.symm.trans hq)
        exact .inl hstem.symm
  · rw [hphase] at hs
    obtain rfl := Option.some.inj hs
    exact absurd hclean (by simp)
  · rw [hfired]
    exact count_cons_le_one hI.fired_once hthis

/-- A file is moved to the quarantine. -/
theorem Once.quarantine (hI : Once stem s) {scan : Scan} {todo : List Parsed}
    (hp : s.phase = .quarantining scan p todo) (hlog : s'.log = .quarantined p.msg.stem :: s.log)
    (hphase : s'.phase = .alerting scan todo) (hactive : s'.active = s.active.erase p.msg.stem)
    (hstored : s'.stored = s.stored) : Once stem s' := by
  have hscan : s.phase.scan = some scan := by rw [hp]; rfl
  have hin : p.msg.stem ∉ scan.state := hI.inHand scan hscan p (by rw [hp]; rfl)
  have hmarking : ¬s.phase.marking stem := by simp [hp, Phase.marking]
  have hfired : s'.fired = s.fired := by rw [State.fired, hlog]; rfl
  have hhanded : s'.handed = s.handed := by rw [State.handed, hlog]; rfl
  have hmet : s'.Met stem ↔ s.Met stem := by rw [State.Met, hfired, hhanded]; rfl
  have hnd : (p.msg.stem :: todo.map (·.msg.stem)).Nodup := by
    have := hI.nodup
    rwa [hp] at this
  refine ⟨?_, fun q hq h => ?_, by simp [hphase], by simp [hphase, Phase.inHand], fun hm => ?_,
    by simp [hphase, Phase.scan], fun scan' hs hm => ?_, fun scan' hs hclean hm => ?_,
    by simp [hphase, Phase.marking], hfired ▸ hI.fired_once, hhanded ▸ hI.handed_once⟩
  · rw [hphase]
    exact (List.nodup_cons.mp hnd).2
  · rw [hphase] at hq
    have hne : q.msg.stem ≠ p.msg.stem := fun h =>
      (List.nodup_cons.mp hnd).1 (h ▸ List.mem_map_of_mem hq)
    rw [hactive, AList.mem_erase]
    exact ⟨h ▸ hne, hI.there q (by rw [hp]; exact List.mem_cons_of_mem _ hq) h⟩
  · rw [hactive, AList.mem_erase]
    refine ⟨?_, hI.active (hmet.mp hm)⟩
    -- what is quarantined was neither handed on nor passed to `on_event`
    rintro rfl
    exact hI.not_met hscan hin hmarking (hmet.mp hm)
  · rw [hphase] at hs
    obtain rfl := Option.some.inj hs
    exact .inl ((hI.marked _ hscan (hmet.mp hm)).resolve_right hmarking)
  · rw [hphase] at hs
    obtain rfl := Option.some.inj hs
    exact .inl (hstored ▸ (hI.clean _ hscan hclean (hmet.mp hm)).resolve_right hmarking)

/-- A scan begins. -/
theorem Once.scan (hI : Once stem s) {overrides : Value} {readable : Bool}
    (hstep : Step cfg s (.scan overrides readable) s')
    (hC : Durable cfg stem s (.scan overrides readable)) : Once stem s' := by
  have hnodup := hstep.nodup_stems hI.nodup
  cases hstep with
  | scan htap hidle hup =>
    have hidle' : s.phase.scan = none := by rw [hidle]; rfl
    have hon : s.Met stem → stem ∈ s.stored ∧ stem ∈ s.active := fun hm =>
      ⟨hI.idle hidle' hm, hI.active hm⟩
    refine ⟨hnodup, by simp [Phase.messages], ?_, by simp [Phase.inHand], hI.active,
      by simp [Phase.scan], fun scan hs hm => ?_, fun scan hs _ hm => .inl ?_,
      by simp [Phase.marking], hI.fired_once, hI.handed_once⟩
    · rintro scan stems parsed ⟨⟩
      rfl
    · obtain rfl := Option.some.inj hs
      obtain ⟨hin, hactive⟩ := hon hm
      cases readable with
      | true => exact .inl (mem_load_of_stored hin)
      | false => exact absurd hactive (hC.2 rfl hin)
    · obtain ⟨hin, hactive⟩ := hon hm
      exact mem_stored_of_load hC.1 hin hactive

/-- The bridge starts. -/
theorem Once.start (hI : Once stem s) {overrides : Value} {readable : Bool}
    (h : Starts cfg s overrides readable s') (hmig : Migrates s stem readable) : Once stem s' := by
  have hkeep : s.Met stem → stem ∈ s.stored →
      stem ∈ ((loadState s readable).2.orElse fun _ => s.legacy).getD ∅ := fun hm hin =>
    mem_stored_of_load hmig hin (hI.active hm)
  rcases h with ⟨_⟩ | ⟨_⟩ | ⟨_⟩ <;>
    exact ⟨hI.nodup, hI.there, hI.reading, hI.inHand, hI.active,
      fun hs hm => hkeep hm (hI.idle hs hm), hI.marked,
      fun scan hs hclean hm => (hI.clean scan hs hclean hm).imp_left (hkeep hm), hI.firing,
      hI.fired_once, hI.handed_once⟩

/-- **One step.** -/
theorem Once.step (hI : Once stem s) (h : Step cfg s l s') (hC : Durable cfg stem s l) :
    Once stem s' := by
  have haside := fun hl => hI.step_aside h hl hC
  have hnodup := h.nodup_stems hI.nodup
  have hstep := h
  cases h with
  | start hup h => exact hI.start h hC
  | scan htap hidle hup => exact hI.scan hstep hC
  | @readDone scan parsed htap hp =>
    have hscan : s.phase.scan = some scan := by rw [hp]; rfl
    exact hI.move hscan rfl rfl rfl hnodup (fun q hq => hI.there q (by rwa [hp]))
      (by simp) (by simp [Phase.inHand]) (by simp [hp, Phase.marking]) (by simp [Phase.marking]) rfl
      ⟨rfl, rfl⟩ rfl
  | @readSkips scan stem' stems parsed htap hp hr =>
    refine hI.move (by rw [hp]; rfl) rfl rfl rfl hnodup (fun q hq => hI.there q (by rwa [hp])) ?_
      (by simp [Phase.inHand]) (by simp [hp, Phase.marking]) (by simp [Phase.marking]) rfl
      ⟨rfl, rfl⟩ rfl
    rintro scan stems parsed ⟨⟩
    exact hI.reading _ _ _ hp
  | @reads scan stem' stems parsed p htap hp hr =>
    refine hI.move (by rw [hp]; rfl) rfl rfl rfl hnodup (fun q hq h => ?_) ?_
      (by simp [Phase.inHand]) (by simp [hp, Phase.marking]) (by simp [Phase.marking]) rfl
      ⟨rfl, rfl⟩ rfl
    · rcases List.mem_append.mp hq with hq | hq
      · exact hI.there q (by rwa [hp]) h
      · obtain rfl := List.mem_singleton.mp hq
        obtain ⟨rfl, raw, hraw, -⟩ := of_readMessage hr
        rw [← h]
        exact AList.lookup_isSome.mp (by rw [hraw]; rfl)
    · rintro scan stems parsed ⟨⟩
      exact hI.reading _ _ _ hp
  -- while the pass reads it marks nothing, so a mark in memory is on the disk
  | @readRaises scan stem' stems parsed htap hp =>
    refine hI.stop rfl rfl rfl fun hm => ?_
    have hclean := hI.clean scan (by rw [hp]; exact rfl) (hI.reading _ _ _ hp) hm
    exact hclean.resolve_right (by simp [hp, Phase.marking])
  -- without a change nothing is saved, and `clean` says that the mark is on the disk already
  | @ends scan htap hp =>
    have hmarking : ¬s.phase.marking stem := by simp [hp, Phase.marking]
    by_cases hc : scan.changed
    · rw [if_pos hc] at hnodup ⊢
      exact hI.move (by rw [hp]; rfl) rfl rfl rfl hnodup (by simp [Phase.messages]) (by simp)
        (by simp [Phase.inHand]) hmarking (by simp [Phase.marking]) rfl ⟨rfl, rfl⟩ rfl
    · rw [if_neg hc]
      refine hI.stop rfl rfl rfl fun hm => ?_
      exact (hI.clean scan (by rw [hp]; exact rfl) (by simpa using hc) hm).resolve_right hmarking
  | turn htap hp h => exact hI.turn htap hp h hC
  | handed htap hp => exact hI.handed hp rfl rfl rfl rfl
  | @handFails scan p interactive todo htap hp =>
    exact hI.move (by rw [hp]; rfl) rfl rfl rfl hnodup
      (fun q hq => hI.there q (by rw [hp]; exact List.mem_cons_of_mem _ hq)) (by simp)
      (by simp [Phase.inHand]) (by simp [hp, Phase.marking]) (by simp [Phase.marking]) rfl
      ⟨rfl, rfl⟩ rfl
  | fired htap hp => exact hI.fired hp rfl rfl rfl
  | quarantine htap hp hin => exact hI.quarantine hp rfl rfl rfl rfl
  | @gone scan p todo htap hp hin =>
    exact hI.stop rfl rfl rfl fun hm => hI.stored hm (hC scan p todo hp hin)
  | @alerted scan todo htap hp =>
    exact hI.move (by rw [hp]; rfl) rfl rfl rfl hnodup (fun q hq => hI.there q (by rwa [hp]))
      (by simp) (by simp [Phase.inHand]) (by simp [hp, Phase.marking]) (by simp [Phase.marking]) rfl
      ⟨rfl, rfl⟩ rfl
  -- the save writes the marks of memory less the old ones; the condition keeps this one
  | @saved scan htap hp =>
    refine hI.stop rfl rfl rfl fun hm => hC scan hp ?_ (hI.active hm)
    exact (hI.marked scan (by rw [hp]; exact rfl) hm).resolve_right (by simp [hp, Phase.marking])
  | crash | abort | saveFails => exact hI.stop rfl rfl rfl fun hm => hI.stored hm hC
  | _ => exact haside rfl

theorem Once.of_initial (h0 : Initial s) : Once stem s := by
  have hfired : s.fired = [] := by rw [State.fired, h0.log]; rfl
  have hhanded : s.handed = [] := by rw [State.handed, h0.log]; rfl
  have hmet : ¬s.Met stem := fun hm => by simp [State.Met, hfired, hhanded] at hm
  refine ⟨by rw [h0.phase]; exact List.nodup_nil, by simp [h0.phase, Phase.messages],
    by simp [h0.phase], by simp [h0.phase, Phase.scan], fun hm => absurd hm hmet,
    fun _ hm => absurd hm hmet, by simp [h0.phase, Phase.scan], by simp [h0.phase, Phase.scan],
    by simp [h0.phase, Phase.marking], by simp [hfired], by simp [hhanded]⟩

/-- **No message is dispatched twice**: in every run in which the mark of a message is not
lost, its file is passed to `on_event` at most once, and handed to `on_info` or `on_approval`
at most once. -/
theorem dispatched_once (cfg : Config) {s₀ s : State} {ls : List Label} (stem : Text)
    (h0 : Initial s₀)
    (h : Lts.Run (Lts.Under (Durable cfg stem) (Lts.ofStep (step cfg))) s₀ ls s) :
    s.fired.count stem ≤ 1 ∧ s.handed.count stem ≤ 1 := by
  have hI := Lts.Run.inv_state (Once.of_initial h0)
    (fun s l s' hI hR => hI.step (.of_step hR.2) hR.1) h
  exact ⟨hI.fired_once, hI.handed_once⟩

/-! ### A mark that is lost -/

/-- A test that implies the condition, where there is no legacy file. -/
def durable (stem : Text) (s : State) : Label → Bool
  | .delete _ => false
  | .crash | .abort | .save false => s.stored.entries.any fun e => e.1 = stem
  | .save true => s.phase.scan.all fun scan =>
      scan.state.entries.all fun e => e.1 ∈ prune s.now scan.state
  | .turn => match s.phase with
    | .looping _ (p :: _) => (verifyProvenance plainConfig s p.msg).toOption.isSome
    | _ => true
  | .quarantine => false
  | .start _ _ => s.legacy.isNone
  | .scan _ readable => s.legacy.isNone && readable
  | _ => true

theorem durable_of_check (s : State) (l : Label) (h : durable stem s l) :
    Durable plainConfig stem s l := by
  have hmig : ∀ readable, s.legacy.isNone → Migrates s stem readable := fun _ hl _ _ st hst => by
    simp [Option.isNone_iff_eq_none.mp hl] at hst
  have hrisk : (s.stored.entries.any fun e => e.1 = stem) → ¬AtRisk s stem := by
    rintro hany ⟨hnot, -⟩
    obtain ⟨e, he, heq⟩ := List.any_eq_true.mp hany
    exact hnot (AList.mem_keys.mpr (List.mem_map.mpr ⟨e, he, of_decide_eq_true heq⟩))
  cases l with
  | delete | quarantine => exact absurd h Bool.false_ne_true
  | crash | abort => exact hrisk h
  | save ok =>
    cases ok with
    | false => exact hrisk h
    | true =>
      intro scan hp hstem _
      rw [durable, hp] at h
      obtain ⟨e, he, rfl⟩ := List.mem_map.mp (AList.mem_keys.mp hstem)
      exact of_decide_eq_true (List.all_eq_true.mp h e he)
  | turn =>
    intro scan p todo hp _ _ hv
    simp only [durable, hp, hv] at h
    exact absurd h (by simp [Except.toOption])
  | start => exact hmig _ h
  | scan overrides readable =>
    rw [durable, Bool.and_eq_true] at h
    exact ⟨hmig _ h.1, fun hr => absurd (hr.symm.trans h.2) Bool.false_ne_true⟩
  | _ => exact trivial

/-- A request that is surfaced and marked is not dispatched by the next scan, although the
bridge dies in between. -/
theorem dispatched_once_request : ∃ s, Lts.Run (Lts.Under (Durable plainConfig (lit "req"))
      (Lts.ofStep (step plainConfig))) requestState
      (surfaced ++ [.crash] ++ scanned ++ [.turn, .turn]) s ∧
    lit "req" ∈ s.fired ∧ s.fired.count (lit "req") ≤ 1 := by
  obtain ⟨s, hrun, hs⟩ := Lts.exists_under_run_of_exec (step plainConfig) (durable (lit "req"))
    durable_of_check requestState (surfaced ++ [.crash] ++ scanned ++ [.turn, .turn])
    (fun s => lit "req" ∈ s.fired) (by decide +kernel)
  exact ⟨s, hrun, of_decide_eq_true hs,
    (dispatched_once plainConfig (lit "req") initial_requestState hrun).1⟩

/-- **A bridge that dies before the state file is written dispatches a message again**,
although nobody touches its file. -/
theorem not_dispatched_once : ¬∀ (cfg : Config) (s₀ s : State) (ls : List Label) (stem : Text),
    Initial s₀ → Lts.Run (Lts.ofStep (step cfg)) s₀ ls s →
    (∀ l ∈ ls, l ≠ .delete stem ∧ ∀ content, l ≠ .put stem content) →
      s.fired.count stem ≤ 1 ∧ s.handed.count stem ≤ 1 := by
  intro h
  obtain ⟨s, hrun, hs⟩ := Lts.exists_run_of_exec (step plainConfig) requestState
    (scanned ++ [.turn, .handed true, .fired, .crash] ++ scanned ++ [.turn, .handed true, .fired])
    (fun s => s.fired.count (lit "req") = 2) (by decide +kernel)
  have hs := of_decide_eq_true hs
  have := (h plainConfig _ s _ (lit "req") initial_requestState hrun (by simp [scanned])).1
  omega

end Bus

end OtamanBridge
