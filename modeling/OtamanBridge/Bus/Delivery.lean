import OtamanBridge.Bus.Provenance

/-!
# The surfaced state hides no message

A stem in the surfaced state keeps the watcher from a message for good, so it may only get
there when there is nothing left to do for the message. Three things are followed through a
run: what a mark stands for (`OtamanBridge.Bus.Marks`), what a scan has come to
(`OtamanBridge.Bus.Orderly`), and, where message files are only added, which message a file
is (`OtamanBridge.Bus.Steady`). A message whose hand-off failed is then followed into the
scans after it (`OtamanBridge.Bus.Waiting`).
-/

namespace OtamanBridge

namespace Bus

open Py

open Inbox (Content)

variable {cfg : Config} {s s₀ s' : State} {l : Label} {ls : List Label} {p q : Parsed}

/-! ### What a mark stands for -/

/-- The message was passed to `on_event` by a scan, and was handed on if this scan's
overrides surface it. -/
def Delivered (cfg : Config) (log : List Happened) (p : Parsed) : Prop :=
  ∃ overrides, .fired p overrides ∈ log ∧
    ((decide cfg.py p.msg overrides).surface → ∃ interactive, .handed p interactive ∈ log)

theorem Delivered.mono {log log' : List Happened} (h : Delivered cfg log p) (hsub : log ⊆ log') :
    Delivered cfg log' p := by
  obtain ⟨overrides, hfired, hhanded⟩ := h
  exact ⟨overrides, hsub hfired, fun hs => (hhanded hs).imp fun _ h => hsub h⟩

/-- A stem stands for a message that was delivered. -/
def Marked (cfg : Config) (log : List Happened) (stem : Text) : Prop :=
  ∃ p : Parsed, p.msg.stem = stem ∧ Delivered cfg log p

theorem Marked.mono {log log' : List Happened} {stem : Text} (h : Marked cfg log stem)
    (hsub : log ⊆ log') : Marked cfg log' stem := h.imp fun _ h => ⟨h.1, h.2.mono hsub⟩

theorem mem_prune {now : Seconds} {state : Surfaced} {stem : Text} (h : stem ∈ prune now state) :
    stem ∈ state := by
  rw [AList.mem_keys] at h ⊢
  exact (List.filter_sublist.map Sigma.fst).subset h

/-- Without a legacy file, or with a state file that goes before it, nothing is migrated. -/
theorem loadState_of_legacy (h : s.persisted = none → s.legacy = none) (readable : Bool) :
    (loadState s readable).2 = s.persisted ∧
      ∀ stem ∈ (loadState s readable).1, ∃ st ∈ s.persisted, stem ∈ st := by
  unfold loadState
  rcases hp : s.persisted with _ | st
  · simp [h hp]
  · cases readable <;> simp

/-- **The invariant of the marks.** -/
structure Marks (cfg : Config) (s : State) : Prop where
  legacy : s.legacy = none
  persisted : ∀ st ∈ s.persisted, ∀ stem ∈ st, Marked cfg s.log stem
  state : ∀ scan ∈ s.phase.scan, ∀ stem ∈ scan.state, Marked cfg s.log stem
  handing : ∀ scan p interactive todo, s.phase = .handing scan p interactive todo →
    .offered p interactive ∈ s.log ∧ p.msg.stem ∉ scan.state
  /-- What is about to be marked was handed on, or is not surfaced. -/
  firing : ∀ scan p surfaced todo, s.phase = .firing scan p surfaced todo →
    if surfaced then ∃ interactive, .handed p interactive ∈ s.log
    else (decide cfg.py p.msg scan.overrides).surface = false

/-- Steps that mark nothing, and leave the watcher where it is or in between. -/
theorem Marks.frame (hI : Marks cfg s) (hlog : s.log ⊆ s'.log) (hlegacy : s'.legacy = s.legacy)
    (hpersisted : s'.persisted = s.persisted)
    (hscan : ∀ scan ∈ s'.phase.scan, ∀ stem ∈ scan.state, Marked cfg s.log stem)
    (hhanding : ∀ scan p interactive todo, s'.phase = .handing scan p interactive todo →
      .offered p interactive ∈ s'.log ∧ p.msg.stem ∉ scan.state)
    (hfiring : ∀ scan p surfaced todo, s'.phase = .firing scan p surfaced todo →
      if surfaced then ∃ interactive, .handed p interactive ∈ s'.log
      else (decide cfg.py p.msg scan.overrides).surface = false) : Marks cfg s' where
  legacy := hlegacy.trans hI.legacy
  persisted st hst stem hstem := (hI.persisted st (hpersisted ▸ hst) stem hstem).mono hlog
  state scan hs stem hstem := (hscan scan hs stem hstem).mono hlog
  handing := hhanding
  firing := hfiring

theorem Marks.aside (hI : Marks cfg s) (h : Aside s s') (hlog : s.log ⊆ s'.log) : Marks cfg s' := by
  refine hI.frame hlog h.legacy h.persisted (fun scan hs => hI.state scan (h.phase ▸ hs))
    (fun scan p interactive todo hp => ?_) (fun scan p surfaced todo hp => ?_)
  · exact (hI.handing scan p interactive todo (h.phase ▸ hp)).imp_left (hlog ·)
  · have := hI.firing scan p surfaced todo (h.phase ▸ hp)
    cases surfaced with
    | true => exact this.imp fun _ h => hlog h
    | false => exact this

/-- One step of the marks. -/
theorem Marks.step (hI : Marks cfg s) (h : Step cfg s l s') : Marks cfg s' := by
  have haside := h.aside
  have hlog : s.log ⊆ s'.log := h.log_suffix.subset
  cases h with
  | @start overrides readable s' hup h =>
    have hload := (loadState_of_legacy (fun _ => hI.legacy) readable).1
    rcases h with ⟨_⟩ | ⟨_⟩ | ⟨_⟩ <;>
      exact hI.frame hlog rfl hload hI.state hI.handing hI.firing
  | @scan overrides readable htap hidle hup =>
    obtain ⟨hload, hmem⟩ := loadState_of_legacy (fun _ => hI.legacy) readable
    refine hI.frame hlog rfl hload (fun scan hs stem hstem => ?_) (by simp) (by simp)
    obtain rfl := Option.some.inj hs
    obtain ⟨st, hst, hin⟩ := hmem stem hstem
    exact hI.persisted st hst stem hin
  | @ends scan htap hp =>
    have hstate := hI.state scan (by rw [hp]; exact rfl)
    dsimp only at hlog ⊢
    split_ifs
    · exact hI.frame hlog rfl rfl (fun scan' hs => Option.some.inj hs ▸ hstate) (by simp) (by simp)
    · exact hI.frame hlog rfl rfl (by simp [Phase.scan]) (by simp) (by simp)
  | @turn scan p todo s' htap hp h =>
    have hstate := hI.state scan (by rw [hp]; exact rfl)
    rcases h with ⟨_⟩ | ⟨_⟩ | ⟨_⟩ | ⟨hin⟩ | ⟨_, _, hsurface⟩
    · exact hI.frame hlog rfl rfl (fun scan' hs => Option.some.inj hs ▸ hstate) (by simp) (by simp)
    · exact hI.frame hlog rfl rfl (by simp [Phase.scan]) (by simp) (by simp)
    · exact hI.frame hlog rfl rfl (fun scan' hs => Option.some.inj hs ▸ hstate) (by simp) (by simp)
    · refine hI.frame hlog rfl rfl (fun scan' hs => Option.some.inj hs ▸ hstate) ?_ (by simp)
      rintro scan' p' interactive todo' ⟨⟩
      exact ⟨List.mem_cons_self, hin⟩
    · refine hI.frame hlog rfl rfl (fun scan' hs => Option.some.inj hs ▸ hstate) (by simp) ?_
      rintro scan' p' surfaced todo' ⟨⟩
      exact hsurface
  | @handed scan p interactive todo htap hp =>
    have hstate := hI.state scan (by rw [hp]; exact rfl)
    refine hI.frame hlog rfl rfl (fun scan' hs => Option.some.inj hs ▸ hstate) (by simp) ?_
    rintro scan' p' surfaced todo' ⟨⟩
    exact ⟨interactive, List.mem_cons_self⟩
  | @fired scan p surfaced todo htap hp =>
    have hstate := hI.state scan (by rw [hp]; exact rfl)
    have hfiring := hI.firing scan p surfaced todo hp
    refine ⟨hI.legacy, fun st hst stem hstem => (hI.persisted st hst stem hstem).mono hlog,
      fun scan' hs stem hstem => ?_, by simp, by simp⟩
    obtain rfl := Option.some.inj hs
    rcases (AList.mem_insert _).mp hstem with rfl | hstem
    · refine ⟨p, rfl, scan.overrides, List.mem_cons_self, fun hsurface => ?_⟩
      cases surfaced with
      | true => exact hfiring.imp fun _ h => hlog h
      | false => exact absurd (hfiring.symm.trans hsurface) Bool.false_ne_true
    · exact (hstate stem hstem).mono hlog
  | @saved scan htap hp =>
    have hstate := hI.state scan (by rw [hp]; exact rfl)
    refine ⟨hI.legacy, fun st hst stem hstem => ?_, by simp [Phase.scan], by simp, by simp⟩
    obtain rfl := Option.some.inj hst
    exact hstate stem (mem_prune hstem)
  | readDone htap hp | reads htap hp | readSkips htap hp | handFails htap hp | alerted htap hp
  | quarantine htap hp =>
    have hstate := hI.state _ (by rw [hp]; exact rfl)
    exact hI.frame hlog rfl rfl (fun scan' hs => Option.some.inj hs ▸ hstate) (by simp) (by simp)
  | crash | readRaises | gone | saveFails | abort =>
    exact hI.frame hlog rfl rfl (by simp [Phase.scan]) (by simp) (by simp)
  | _ => exact hI.aside (haside rfl) hlog

/-! ### What a scan has come to -/

/-- What may have become of a message the loop has come to: it is in hand, it is marked, it
was handed on or it was moved to the quarantine. -/
def Met (hand : Option Parsed) (state : Surfaced) (log : List Happened) (p : Parsed) : Prop :=
  hand = some p ∨ p.msg.stem ∈ state ∨ (∃ interactive, .offered p interactive ∈ log) ∨
    .quarantined p.msg.stem ∈ log

theorem Met.mono {hand : Option Parsed} {state state' : Surfaced} {log log' : List Happened}
    (h : Met hand state log p) (hstate : ∀ stem ∈ state, stem ∈ state') (hlog : log ⊆ log') :
    Met hand state' log' p := by
  rcases h with h | h | ⟨interactive, h⟩ | h
  · exact .inl h
  · exact .inr (.inl (hstate _ h))
  · exact .inr (.inr (.inl ⟨interactive, hlog h⟩))
  · exact .inr (.inr (.inr (hlog h)))

/-- The message in hand is put down. -/
theorem Met.release {hand : Option Parsed} {state : Surfaced} {log : List Happened}
    (h : Met (some q) state log p) (hq : Met hand state log q) : Met hand state log p := by
  rcases h with h | h
  · obtain rfl := Option.some.inj h
    exact hq
  · exact .inr h

/-- Another message is taken in hand. -/
theorem Met.take {hand : Option Parsed} {state : Surfaced} {log : List Happened}
    (h : Met none state log p) : Met hand state log p :=
  h.elim (fun h => absurd h (by simp)) .inr

/-- **The invariant of the loop**: it takes the messages in their order, and is done with
those it leaves behind. -/
structure Orderly (s : State) : Prop where
  reading : ∀ scan stems parsed, s.phase = .reading scan stems parsed → scan.done = []
  order : ∀ scan ∈ s.phase.scan, (∀ stems parsed, s.phase ≠ .reading scan stems parsed) →
    scan.read = scan.done ++ s.phase.todo
  met : ∀ scan ∈ s.phase.scan, ∀ p ∈ scan.done, Met s.phase.inHand scan.state s.log p

/-- A phase without a scan asks nothing. -/
theorem Orderly.of_scan_eq_none (h : s.phase.scan = none) : Orderly s where
  reading scan stems parsed hp := absurd h (by simp [hp, Phase.scan])
  order scan hs := absurd hs (by simp [h])
  met scan hs := absurd hs (by simp [h])

/-- A phase with a scan that has been read. -/
theorem Orderly.of_scan {scan : Scan} (h : s.phase.scan = some scan)
    (hreading : ∀ scan stems parsed, s.phase ≠ .reading scan stems parsed)
    (horder : scan.read = scan.done ++ s.phase.todo)
    (hmet : ∀ p ∈ scan.done, Met s.phase.inHand scan.state s.log p) : Orderly s where
  reading scan stems parsed hp := absurd hp (hreading scan stems parsed)
  order scan' hs _ := by
    obtain rfl := Option.some.inj (h.symm.trans hs)
    exact horder
  met scan' hs := by
    obtain rfl := Option.some.inj (h.symm.trans hs)
    exact hmet

/-- What is known where the messages have been read. -/
theorem Orderly.loop (hI : Orderly s) {phase : Phase} {scan : Scan} (hp : s.phase = phase)
    (hscan : phase.scan = some scan)
    (hreading : ∀ scan stems parsed, phase ≠ .reading scan stems parsed) :
    scan.read = scan.done ++ phase.todo ∧
      ∀ p ∈ scan.done, Met phase.inHand scan.state s.log p := by
  subst hp
  exact ⟨hI.order scan hscan (hreading scan), hI.met scan hscan⟩

/-- One step of the loop. -/
theorem Orderly.step (hI : Orderly s) (hM : Marks cfg s) (h : Step cfg s l s') : Orderly s' := by
  have haside := h.aside
  have hlog : s.log ⊆ s'.log := h.log_suffix.subset
  cases h with
  | start hup h =>
    rcases h with ⟨_⟩ | ⟨_⟩ | ⟨_⟩ <;> exact ⟨hI.reading, hI.order, hI.met⟩
  | scan =>
    refine ⟨?_, fun scan hs hne => ?_, fun scan hs p hp => ?_⟩
    · rintro scan stems parsed ⟨⟩
      rfl
    · obtain rfl := Option.some.inj hs
      exact absurd rfl (hne _ _)
    · obtain rfl := Option.some.inj hs
      exact absurd hp (by simp)
  | @readDone scan parsed htap hp =>
    have hdone := hI.reading scan _ _ hp
    exact .of_scan rfl (by simp) (by simp [hdone, Phase.todo]) (by simp [hdone])
  | @readSkips scan stem stems parsed htap hp | @reads scan stem stems parsed p htap hp =>
    have hdone := hI.reading scan _ _ hp
    refine ⟨?_, fun scan hs hne => ?_, fun scan hs p hp => ?_⟩
    · rintro scan stems parsed ⟨⟩
      exact hdone
    · obtain rfl := Option.some.inj hs
      exact absurd rfl (hne _ _)
    · obtain rfl := Option.some.inj hs
      exact absurd hp (by simp [hdone])
  | @ends scan htap hp =>
    obtain ⟨horder, hmet⟩ := hI.loop hp rfl (by simp)
    by_cases hc : scan.changed
    · rw [if_pos hc]
      exact .of_scan rfl (by simp) horder hmet
    · rw [if_neg hc]
      exact .of_scan_eq_none rfl
  | @turn scan p todo s' htap hp h =>
    obtain ⟨horder, hmet⟩ := hI.loop hp rfl (by simp)
    have horder' : scan.read = scan.done ++ [p] ++ todo := by
      rw [List.append_assoc]
      exact horder
    have hmet' : ∀ hand log, s.log ⊆ log → Met hand scan.state log p →
        ∀ q ∈ scan.done ++ [p], Met hand scan.state log q := by
      rintro hand log hsub hmetp q hq
      rcases List.mem_append.mp hq with hq | hq
      · exact (hmet q hq).take.mono (fun _ h => h) hsub
      · rw [List.mem_singleton.mp hq]
        exact hmetp
    rcases h with ⟨hin⟩ | ⟨_⟩ | ⟨_⟩ | ⟨_⟩ | ⟨_⟩
    · exact .of_scan rfl (by simp) horder' (hmet' _ _ hlog (.inr (.inl hin)))
    · exact .of_scan_eq_none rfl
    all_goals exact .of_scan rfl (by simp) horder' (hmet' _ _ hlog (.inl rfl))
  | @handed scan p interactive todo htap hp =>
    obtain ⟨horder, hmet⟩ := hI.loop hp rfl (by simp)
    exact .of_scan rfl (by simp) horder fun q hq => (hmet q hq).mono (fun _ h => h) hlog
  | @handFails scan p interactive todo htap hp =>
    obtain ⟨horder, hmet⟩ := hI.loop hp rfl (by simp)
    have hoffered := (hM.handing scan p interactive todo hp).1
    exact .of_scan rfl (by simp) horder fun q hq =>
      (hmet q hq).release (.inr (.inr (.inl ⟨interactive, hoffered⟩)))
  | @fired scan p surfaced todo htap hp =>
    obtain ⟨horder, hmet⟩ := hI.loop hp rfl (by simp)
    refine .of_scan rfl (by simp) horder fun q hq => Met.release ((hmet q hq).mono ?_ hlog) ?_
    · exact fun _ h => (AList.mem_insert _).mpr (.inr h)
    · exact .inr (.inl ((AList.mem_insert _).mpr (.inl rfl)))
  | @quarantine scan p todo htap hp hin =>
    obtain ⟨horder, hmet⟩ := hI.loop hp rfl (by simp)
    refine .of_scan rfl (by simp) horder fun q hq =>
      Met.release ((hmet q hq).mono (fun _ h => h) hlog) ?_
    exact .inr (.inr (.inr List.mem_cons_self))
  | @alerted scan todo htap hp =>
    obtain ⟨horder, hmet⟩ := hI.loop hp rfl (by simp)
    exact .of_scan rfl (by simp) horder hmet
  | crash | readRaises | gone | saved | saveFails | abort => exact .of_scan_eq_none rfl
  | _ =>
    have ha := haside rfl
    have hphase := ha.phase
    refine ⟨fun scan stems parsed hp => hI.reading scan stems parsed (hphase ▸ hp),
      fun scan hs hne => ?_, fun scan hs p hp => ?_⟩
    · rw [hphase] at hs hne ⊢
      exact hI.order scan hs hne
    · rw [hphase] at hs ⊢
      exact (hI.met scan hs p hp).mono (fun _ h => h) hlog

/-! ### Which message a file is -/

/-- Message files are only added, under new names: by other processes, and by a tap. -/
def AddsOnly (cfg : Config) (s : State) : Label → Prop
  | .put stem _ => stem ∉ s.active ∧ .quarantined stem ∉ s.log
  | .delete _ => False
  | .openFile _ micro => ∀ p r w todo clears f, s.tap = some ⟨p, r, w :: todo, none, clears⟩ →
      fileOf cfg s micro p r w = some f →
      stemOf f.name ∉ s.active ∧ .quarantined (stemOf f.name) ∉ s.log
  | _ => True

/-- The message is what its file reads as, or the file is in the quarantine. -/
def Current (cfg : Config) (s : State) (p : Parsed) : Prop :=
  readMessage cfg s p.msg.stem = .ok (some p) ∨ .quarantined p.msg.stem ∈ s.log

/-- A message the watcher has at hand, or has handed on. -/
def Seen (s : State) (p : Parsed) : Prop :=
  p ∈ s.phase.messages ∨ ∃ e ∈ s.log, p ∈ e.dispatched

/-- **The invariant of the files.** -/
structure Steady (cfg : Config) (s : State) : Prop where
  gone : ∀ stem, .quarantined stem ∈ s.log → stem ∉ s.active
  /-- A message file a tap has open is empty. -/
  opened : ∀ p r w todo stem text clears,
    s.tap = some ⟨p, r, w :: todo, some (stem, text), clears⟩ → (∀ content, w ≠ .ack content) →
      '/'.toNat ∈ stem ∨ s.active.lookup stem = some (.text [])
  current : ∀ p, Seen s p → Current cfg s p

theorem mem_of_readMessage {stem : Text} (h : readMessage cfg s stem = .ok (some p)) :
    stem ∈ s.active := by
  obtain ⟨-, raw, hraw, -⟩ := of_readMessage h
  exact AList.lookup_isSome.mp (by rw [hraw]; rfl)

/-- A file has one message. -/
theorem Steady.eq_of_readMessage (hI : Steady cfg s) (hp : Seen s p)
    (hq : readMessage cfg s p.msg.stem = .ok (some q)) : q = p := by
  rcases hI.current p hp with h | h
  · exact Option.some.inj (Except.ok.inj (hq.symm.trans h))
  · exact absurd (mem_of_readMessage hq) (hI.gone _ h)

/-- Where files are only added, no text is swapped. -/
theorem Steady.unswapped (hI : Steady cfg s) : Unswapped cfg s l := by
  cases l with
  | turn =>
    rintro scan p todo raw hp - - hraw ⟨hconf, hnot⟩
    have hseen : Seen s p := .inl (by rw [hp]; exact List.mem_cons_self)
    rcases hI.current p hseen with h | h
    · obtain ⟨-, raw', hraw', hsource, -⟩ := of_readMessage h
      obtain rfl := Content.text.inj (Option.some.inj (hraw.symm.trans hraw'))
      exact hnot (hsource ▸ hconf)
    · exact hI.gone _ h (AList.lookup_isSome.mp (by rw [hraw]; rfl))
  | _ => trivial

theorem Current.mono (h : Current cfg s p) (hlog : s.log ⊆ s'.log)
    (hactive : p.msg.stem ∈ s.active → s'.active.lookup p.msg.stem = s.active.lookup p.msg.stem) :
    Current cfg s' p := by
  rcases h with h | h
  · left
    rw [readMessage_congr (hactive (mem_of_readMessage h)), h]
  · exact .inr (hlog h)

/-- Steps that touch no message file. -/
theorem Steady.frame (hI : Steady cfg s) (hlog : s.log ⊆ s'.log)
    (hgone : ∀ stem, .quarantined stem ∈ s'.log → .quarantined stem ∈ s.log)
    (hactive : s'.active = s.active) (htap : ∀ t ∈ s'.tap, t ∈ s.tap ∨ t.opened = none)
    (hseen : ∀ p, Seen s' p → Seen s p ∨ readMessage cfg s p.msg.stem = .ok (some p)) :
    Steady cfg s' where
  gone stem h := hactive ▸ hI.gone stem (hgone stem h)
  opened p r w todo stem text clears ht hw := by
    rw [hactive]
    rcases htap _ ht with ht | ht
    · exact hI.opened p r w todo stem text clears ht hw
    · exact absurd ht (by simp)
  current p hp := by
    rcases hseen p hp with hp | hp
    · exact (hI.current p hp).mono hlog fun _ => by rw [hactive]
    · exact .inl ((readMessage_congr (by rw [hactive])).trans hp)

/-- Nothing is seen that was not seen before, when the watcher puts messages down and the
log grows by one event about a message in hand. -/
theorem Seen.of_subset (hp : Seen s' p) (hmessages : ∀ p ∈ s'.phase.messages, p ∈ s.phase.messages)
    (hlog : s'.log = s.log ∨ ∃ e : Happened, s'.log = e :: s.log ∧ ∀ p ∈ e.dispatched, Seen s p) :
    Seen s p := by
  rcases hp with hp | ⟨e, he, hp⟩
  · exact .inl (hmessages p hp)
  · rcases hlog with hlog | ⟨e', hlog, he'⟩
    · exact .inr ⟨e, hlog ▸ he, hp⟩
    · rcases List.mem_cons.mp (hlog ▸ he) with rfl | he
      · exact he' p hp
      · exact .inr ⟨e, he, hp⟩

/-- An empty file is no message. -/
theorem readMessage_empty {stem : Text} (h : s.active.lookup stem = some (.text [])) :
    readMessage cfg s stem = .ok none := by
  have hmatch : frontmatterMatch (universalNewlines []) = none := by decide
  simp [readMessage, h, parseBusFile, hmatch, Except.map]

/-- A file is made, or filled: none of the messages is in it. -/
theorem Steady.put (hI : Steady cfg s) {stem : Text} {content : Content}
    (hnew : stem ∉ s.active ∨ s.active.lookup stem = some (.text []))
    (hgone : .quarantined stem ∉ s.log) (hlog : s.log ⊆ s'.log)
    (hgone' : ∀ stem, .quarantined stem ∈ s'.log → .quarantined stem ∈ s.log)
    (hactive : s'.active = s.active.insert stem content)
    (hopened : ∀ p r w todo stem text clears,
      s'.tap = some ⟨p, r, w :: todo, some (stem, text), clears⟩ → (∀ content, w ≠ .ack content) →
        '/'.toNat ∈ stem ∨ s'.active.lookup stem = some (.text []))
    (hseen : ∀ p, Seen s' p → Seen s p) : Steady cfg s' where
  gone stem' h := by
    have h := hgone' stem' h
    rw [hactive, AList.mem_insert, not_or]
    refine ⟨?_, hI.gone stem' h⟩
    rintro rfl
    exact hgone h
  opened := hopened
  current p hp := by
    rcases hI.current p (hseen p hp) with h | h
    · left
      have hne : p.msg.stem ≠ stem := by
        rintro rfl
        rcases hnew with hnew | hnew
        · exact hnew (mem_of_readMessage h)
        · exact absurd (h.symm.trans (readMessage_empty hnew)) (by simp)
      exact (readMessage_congr (by rw [hactive, AList.lookup_insert_ne hne])).trans h
    · exact .inr (hlog h)

/-- So it is where the file is in another directory. -/
theorem Steady.fill (hI : Steady cfg s) {stem text : Text}
    (hnew : stem ∉ s.active ∨ '/'.toNat ∈ stem ∨ s.active.lookup stem = some (.text []))
    (hgone : '/'.toNat ∉ stem → .quarantined stem ∉ s.log) (hlog : s.log ⊆ s'.log)
    (hgone' : ∀ stem, .quarantined stem ∈ s'.log → .quarantined stem ∈ s.log)
    (hactive : s'.active = putFile s.active stem text)
    (hopened : ∀ p r w todo stem text clears,
      s'.tap = some ⟨p, r, w :: todo, some (stem, text), clears⟩ → (∀ content, w ≠ .ack content) →
        '/'.toNat ∈ stem ∨ s'.active.lookup stem = some (.text []))
    (hseen : ∀ p, Seen s' p → Seen s p) : Steady cfg s' := by
  unfold putFile at hactive
  by_cases hslash : '/'.toNat ∈ stem
  · rw [if_pos hslash] at hactive
    refine ⟨fun stem h => hactive ▸ hI.gone stem (hgone' stem h), hopened, fun p hp => ?_⟩
    exact (hI.current p (hseen p hp)).mono hlog fun _ => by rw [hactive]
  · rw [if_neg hslash] at hactive
    exact hI.put (hnew.imp_right (·.resolve_left hslash)) (hgone hslash) hlog hgone' hactive hopened
      hseen

/-- One step of the files. -/
theorem Steady.step (hI : Steady cfg s) (h : Step cfg s l s') (hC : AddsOnly cfg s l) :
    Steady cfg s' := by
  have hlog : s.log ⊆ s'.log := h.log_suffix.subset
  cases h with
  | tick | confirm | cliAck | tapIgnored =>
    exact hI.frame hlog (fun _ h => h) rfl (fun _ h => .inl h) fun _ h => .inl h
  | start hup h =>
    rcases h with ⟨_⟩ | ⟨_⟩ | ⟨_⟩ <;>
      exact hI.frame hlog (fun _ h => h) rfl (fun _ h => .inl h) fun _ h => .inl h
  | tapTaken | openFails | writeFails | finish =>
    exact hI.frame hlog (fun _ h => h) rfl (by simp) fun _ h => .inl h
  | put =>
    -- the file is new, so it is none of those a tap has open
    exact hI.put (.inl hC.1) hC.2 hlog (fun _ h => h) rfl
      (fun p r w todo stem text clears ht hw =>
        (hI.opened p r w todo stem text clears ht hw).imp_right fun h => by
          rw [AList.lookup_insert_ne, h]
          rintro rfl
          exact hC.1 (AList.lookup_isSome.mp (by rw [h]; rfl)))
      fun _ h => h
  | delete => exact hC.elim
  | crash =>
    exact hI.frame hlog (fun _ h => h) rfl (by simp) fun _ h =>
      .inl (h.of_subset (by simp [Phase.messages]) (.inl rfl))
  | scan | readRaises | abort | gone | saved | saveFails =>
    exact hI.frame hlog (fun _ h => h) rfl (fun _ h => .inl h) fun _ h =>
      .inl (h.of_subset (by simp [Phase.messages]) (.inl rfl))
  | readDone htap hp | readSkips htap hp | alerted htap hp =>
    exact hI.frame hlog (fun _ h => h) rfl (fun _ h => .inl h) fun _ h =>
      .inl (h.of_subset (by simp [hp, Phase.messages]) (.inl rfl))
  | @reads scan stem stems parsed p htap hp hr =>
    -- what is new among the messages was read from its file just now
    refine hI.frame hlog (fun _ h => h) rfl (fun _ h => .inl h) fun q h => ?_
    obtain ⟨rfl, -⟩ := of_readMessage hr
    rcases h with h | h
    · rcases List.mem_append.mp h with h | h
      · exact .inl (.inl (by rwa [hp]))
      · rw [List.mem_singleton.mp h]
        exact .inr hr
    · exact .inl (.inr h)
  | handFails htap hp =>
    refine hI.frame hlog (fun _ h => h) rfl (fun _ h => .inl h) fun _ h =>
      .inl (h.of_subset (fun q hq => ?_) (.inl rfl))
    rw [hp]
    exact List.mem_cons_of_mem _ hq
  | @ends scan htap hp =>
    refine hI.frame hlog (fun _ h => h) rfl (fun _ h => .inl h) fun _ h =>
      .inl (h.of_subset (fun q hq => ?_) (.inl rfl))
    by_cases hc : scan.changed
    · rw [if_pos hc] at hq
      exact absurd hq (by simp [Phase.messages])
    · rw [if_neg hc] at hq
      exact absurd hq (by simp [Phase.messages])
  | @turn scan p todo s' htap hp h =>
    have hp' : Seen s p := .inl (by rw [hp]; exact List.mem_cons_self)
    rcases h with ⟨_⟩ | ⟨_⟩ | ⟨_⟩ | ⟨_⟩ | ⟨_⟩
    · refine hI.frame hlog (fun _ h => h) rfl (fun _ h => .inl h) fun _ h =>
        .inl (h.of_subset (fun q hq => ?_) (.inl rfl))
      rw [hp]
      exact List.mem_cons_of_mem _ hq
    · exact hI.frame hlog (fun _ h => h) rfl (fun _ h => .inl h) fun _ h =>
        .inl (h.of_subset (by simp [Phase.messages]) (.inl rfl))
    · exact hI.frame hlog (fun _ h => h) rfl (fun _ h => .inl h) fun _ h =>
        .inl (h.of_subset (fun q hq => by rwa [hp]) (.inl rfl))
    · refine hI.frame hlog (by simp) rfl (fun _ h => .inl h) fun _ h =>
        .inl (h.of_subset (fun q hq => by rwa [hp]) (.inr ⟨_, rfl, fun q hq => ?_⟩))
      obtain rfl := Option.some.inj hq
      exact hp'
    · exact hI.frame hlog (fun _ h => h) rfl (fun _ h => .inl h) fun _ h =>
        .inl (h.of_subset (fun q hq => by rwa [hp]) (.inl rfl))
  | @handed scan p interactive todo htap hp =>
    refine hI.frame hlog (by simp) rfl (fun _ h => .inl h) fun _ h =>
      .inl (h.of_subset (fun q hq => by rwa [hp]) (.inr ⟨_, rfl, fun q hq => ?_⟩))
    obtain rfl := Option.some.inj hq
    exact .inl (by rw [hp]; exact List.mem_cons_self)
  | @fired scan p surfaced todo htap hp =>
    refine hI.frame hlog (by simp) rfl (fun _ h => .inl h) fun _ h =>
      .inl (h.of_subset (fun q hq => ?_) (.inr ⟨_, rfl, fun q hq => ?_⟩))
    · rw [hp]
      exact List.mem_cons_of_mem _ hq
    · obtain rfl := Option.some.inj hq
      exact .inl (by rw [hp]; exact List.mem_cons_self)
  | @quarantine scan p todo htap hp hin =>
    refine ⟨fun stem h => ?_, fun _ _ _ _ _ _ _ ht => absurd ht (by simp [htap]), fun q hq => ?_⟩
    · rw [AList.mem_erase, not_and_or, not_not]
      rcases List.mem_cons.mp h with h | h
      · exact .inl (Happened.quarantined.inj h)
      · exact .inr (hI.gone stem h)
    · have hq : Seen s q := by
        refine hq.of_subset (fun r hr => ?_) (.inr ⟨_, rfl, by simp [Happened.dispatched]⟩)
        rw [hp]
        exact List.mem_cons_of_mem _ hr
      -- the message that is quarantined is gone, the others keep their files
      by_cases hstem : q.msg.stem = p.msg.stem
      · right
        rw [hstem]
        exact List.mem_cons_self
      · exact (hI.current q hq).mono hlog fun _ => AList.lookup_erase_ne hstem
  | opens h =>
    rcases h with ⟨ht⟩ | @⟨p, r, w, todo, clears, f, ht, hf⟩
    · refine ⟨fun stem h => hI.gone stem (by simpa using h), ?_, fun q hq => ?_⟩
      · rintro p r w todo stem text clears ⟨⟩ hw
        exact absurd rfl (hw _)
      · have hq : Seen s q :=
          hq.of_subset (fun _ h => h) (.inr ⟨_, rfl, by simp [Happened.dispatched]⟩)
        exact (hI.current q hq).mono hlog fun _ => rfl
    · obtain ⟨hnew, hgone⟩ := hC p r w todo clears f ht hf
      refine hI.fill (.inl hnew) (fun _ => hgone) hlog (fun _ h => h) rfl ?_ fun _ h => h
      rintro p r w todo stem text clears ⟨⟩ -
      by_cases hslash : '/'.toNat ∈ stemOf f.name
      · exact .inl hslash
      · right
        rw [putFile, if_neg hslash, AList.lookup_insert]
  | writes h =>
    rcases h with @⟨p, r, content, todo, stem, text, clears, ht⟩ |
      @⟨p, r, v, todo, stem, text, clears, ht⟩ | @⟨p, r, t, todo, stem, text, clears, ht⟩
    · exact hI.frame hlog (by simp) rfl (by simp) fun _ h =>
        .inl (h.of_subset (fun _ h => h) (.inr ⟨_, rfl, by simp [Happened.dispatched]⟩))
    all_goals
      -- the file is the empty one that this tap has opened, so it was not quarantined
      have hopened := hI.opened _ _ _ _ _ _ _ ht (by simp)
      have hgone : '/'.toNat ∉ stem → .quarantined stem ∉ s.log := fun hslash hq =>
        hI.gone stem hq (AList.lookup_isSome.mp (by rw [hopened.resolve_left hslash]; rfl))
    · refine hI.fill (.inr hopened) hgone hlog (by simp) rfl (by simp) fun q hq => ?_
      exact hq.of_subset (fun _ h => h) (.inr ⟨_, rfl, by simp [Happened.dispatched]⟩)
    · exact hI.fill (.inr hopened) hgone hlog (fun _ h => h) rfl (by simp) fun _ h => h

/-! ### The invariants together -/

/-- **What holds in every state** of a run in which message files are only added. -/
structure Sound (cfg : Config) (s : State) : Prop where
  marks : Marks cfg s
  orderly : Orderly s
  steady : Steady cfg s
  gated : Gated cfg s
  nodup : s.phase.stems.Nodup
  free : ∀ stem ∈ s.phase.stems, .quarantined stem ∉ s.log

theorem Sound.step (hI : Sound cfg s) (h : Step cfg s l s') (hC : AddsOnly cfg s l) :
    Sound cfg s' where
  marks := hI.marks.step h
  orderly := hI.orderly.step hI.marks h
  steady := hI.steady.step h hC
  gated := hI.gated.step h hI.steady.unswapped
  nodup := h.nodup_stems hI.nodup
  free stem hstem hq := by
    rcases h.quarantined hq with hq | ⟨scan, p, todo, hp, rfl, hp'⟩
    · rcases h.stems with hsub | ⟨-, hlist⟩
      · exact hI.free stem (hsub.subset hstem) hq
      · exact hI.steady.gone stem hq (mem_listing.mp (hlist ▸ hstem))
    · have hnd := hI.nodup
      rw [hp] at hnd
      rw [hp'] at hstem
      exact (List.nodup_cons.mp hnd).1 hstem

/-- What is on disk is in the state of the scan. -/
def Covers (s : State) : Prop :=
  ∀ scan ∈ s.phase.scan, ∀ st ∈ s.persisted, ∀ stem ∈ st, stem ∈ scan.state

theorem Covers.of_scan_eq_none (h : s.phase.scan = none) : Covers s := fun scan hs =>
  absurd hs (by simp [h])

theorem Covers.of_scan (hI : Covers s) {scan scan' : Scan} (hscan : s.phase.scan = some scan)
    (hscan' : s'.phase.scan = some scan') (hstate : ∀ stem ∈ scan.state, stem ∈ scan'.state)
    (hpersisted : s'.persisted = s.persisted) : Covers s' := by
  intro scan'' hs st hst stem hstem
  obtain rfl := Option.some.inj (hscan'.symm.trans hs)
  exact hstate stem (hI scan hscan st (hpersisted ▸ hst) stem hstem)

/-- A scan that can read the state file has what is on disk. -/
theorem Covers.step (hI : Covers s) (hlegacy : s.legacy = none) (h : Step cfg s l s')
    (hread : ∀ overrides, l ≠ .scan overrides false) : Covers s' := by
  have haside := h.aside
  cases h with
  | @start overrides readable s' hup h =>
    have hload := (loadState_of_legacy (fun _ => hlegacy) readable).1
    rcases h with ⟨_⟩ | ⟨_⟩ | ⟨_⟩ <;>
      exact fun scan hs st hst => hI scan hs st (hload ▸ hst)
  | @scan overrides readable htap hidle hup =>
    rintro scan hs st hst stem hstem
    obtain rfl := Option.some.inj hs
    cases readable with
    | false => exact absurd rfl (hread overrides)
    | true =>
      dsimp only at hst ⊢
      unfold loadState at hst ⊢
      rcases hp : s.persisted with _ | st'
      · simp [hp, hlegacy] at hst
      · simp only [hp] at hst
        obtain rfl := Option.some.inj hst
        simpa using hstem
  | @ends scan htap hp =>
    by_cases hc : scan.changed
    · rw [if_pos hc]
      exact hI.of_scan (by rw [hp]; rfl) rfl (fun _ h => h) rfl
    · rw [if_neg hc]
      exact .of_scan_eq_none rfl
  | @turn scan p todo s' htap hp h =>
    have hscan : s.phase.scan = some scan := by rw [hp]; rfl
    rcases h with ⟨_⟩ | ⟨_⟩ | ⟨_⟩ | ⟨_⟩ | ⟨_⟩
    case raises => exact .of_scan_eq_none rfl
    all_goals exact hI.of_scan hscan rfl (fun _ h => h) rfl
  | @fired scan p surfaced todo htap hp =>
    have hscan : s.phase.scan = some scan := by rw [hp]; rfl
    exact hI.of_scan hscan rfl (fun _ h => (AList.mem_insert _).mpr (.inr h)) rfl
  | readDone htap hp | readSkips htap hp | reads htap hp | handed htap hp | handFails htap hp
  | quarantine htap hp | alerted htap hp =>
    have hscan := congrArg Phase.scan hp
    exact hI.of_scan hscan rfl (fun _ h => h) rfl
  | crash | readRaises | gone | saved | saveFails | abort => exact .of_scan_eq_none rfl
  | _ =>
    have ha := haside rfl
    exact fun scan hs st hst => hI scan (ha.phase ▸ hs) st (ha.persisted ▸ hst)

/-! ### A message whose hand-off failed -/

/-- A message is handed to `on_info` or `on_approval`, or, by a scan whose overrides do not
surface it, passed to `on_event`. -/
def Happened.meets (cfg : Config) (p : Parsed) (e : Happened) : Prop :=
  (∃ interactive, e = .offered p interactive) ∨
    ∃ overrides, e = .fired p overrides ∧ (decide cfg.py p.msg overrides).surface = false

/-- Where the watcher stands towards a message it has not met again: it is not marked, and
in a scan that began `later` it is still to come. -/
def Waiting (p : Parsed) (later : Prop) : Phase → Prop
  | .idle => True
  | .reading scan stems parsed =>
    p.msg.stem ∉ scan.state ∧ (p.msg.stem ∈ stems ∨ p ∈ parsed)
  | .looping scan todo => p.msg.stem ∉ scan.state ∧ (later → p ∈ todo)
  | .quarantining scan q todo =>
    p.msg.stem ∉ scan.state ∧ q.msg.stem ≠ p.msg.stem ∧ (later → p ∈ todo)
  | .alerting scan todo => p.msg.stem ∉ scan.state ∧ (later → p ∈ todo)
  | .handing scan q _ todo =>
    p.msg.stem ∉ scan.state ∧ q.msg.stem ≠ p.msg.stem ∧ (later → p ∈ todo)
  | .firing scan q surfaced todo =>
    p.msg.stem ∉ scan.state ∧
      (q = p ∧ surfaced = false ∨ q.msg.stem ≠ p.msg.stem ∧ (later → p ∈ todo))
  | .saving scan => p.msg.stem ∉ scan.state

/-- **A message that passed the gate and waits** to be met again. -/
structure Awaited (cfg : Config) (p : Parsed) (later : Prop) (s : State) : Prop where
  offered : ∃ interactive, .offered p interactive ∈ s.log
  free : .quarantined p.msg.stem ∉ s.log
  backed : Backed cfg s.ledger p
  unmarked : ∀ st ∈ s.persisted, p.msg.stem ∉ st
  waiting : Waiting p later s.phase

variable {later : Prop}

theorem Awaited.seen (hA : Awaited cfg p later s) : Seen s p :=
  hA.offered.elim fun _ h => .inr ⟨_, h, rfl⟩

/-- Its file is still there. -/
theorem Awaited.current (hA : Awaited cfg p later s) (hI : Steady cfg s) :
    readMessage cfg s p.msg.stem = .ok (some p) :=
  (hI.current p hA.seen).resolve_right hA.free

/-- The gate lets it pass. -/
theorem Awaited.verify (hA : Awaited cfg p later s) (hI : Steady cfg s)
    (hpriv : cfg.privileged (p.msg.type cfg.py)) : verifyProvenance cfg s p.msg = .ok true := by
  obtain ⟨-, raw, hraw, hsource, -⟩ := of_readMessage (hA.current hI)
  simp only [verifyProvenance, hraw, ← hsource, hA.backed hpriv]

/-- Steps after which the message still waits. -/
theorem Awaited.frame {later' : Prop} (hA : Awaited cfg p later s) (h : Step cfg s l s')
    (hfree : .quarantined p.msg.stem ∉ s'.log) (hunmarked : ∀ st ∈ s'.persisted, p.msg.stem ∉ st)
    (hwaiting : Waiting p later' s'.phase) : Awaited cfg p later' s' where
  offered := hA.offered.imp fun _ ho => h.log_suffix.subset ho
  free := hfree
  backed := hA.backed.mono h.ledger_subset
  unmarked := hunmarked
  waiting := hwaiting

/-- The message the loop comes to has the stem of the message that waits: it is this one. -/
theorem Awaited.eq_of_stem (hA : Awaited cfg p later s) (hI : Steady cfg s)
    (hq : q ∈ s.phase.messages) (hstem : q.msg.stem = p.msg.stem) : q = p :=
  (hI.eq_of_readMessage (.inl hq) (by rw [hstem]; exact hA.current hI)).symm

/-- The loop comes to a message. -/
theorem Awaited.turn (hA : Awaited cfg p later s) (hI : Sound cfg s) {scan : Scan}
    {todo : List Parsed} (htap : s.tap = none) (hp : s.phase = .looping scan (q :: todo))
    (h : Turns cfg s scan q todo s') :
    Awaited cfg p later s' ∨ ∃ e : Happened, e.meets cfg p ∧ s'.log = e :: s.log := by
  have hstep : Step cfg s .turn s' := .turn htap hp h
  have hw : Waiting p later (.looping scan (q :: todo)) := hp ▸ hA.waiting
  by_cases hstem : q.msg.stem = p.msg.stem
  · obtain rfl := hA.eq_of_stem hI.steady (by rw [hp]; exact List.mem_cons_self) hstem
    rcases h with ⟨hin⟩ | ⟨-, hpriv, hv⟩ | ⟨-, hpriv, hv⟩ | ⟨_⟩ | ⟨_⟩
    · exact absurd hin hw.1
    · exact absurd (hv.symm.trans (hA.verify hI.steady hpriv)) (by simp)
    · exact absurd (hv.symm.trans (hA.verify hI.steady hpriv)) (by simp)
    · exact .inr ⟨_, .inl ⟨_, rfl⟩, rfl⟩
    · exact .inl (hA.frame hstep hA.free hA.unmarked ⟨hw.1, .inl ⟨rfl, rfl⟩⟩)
  · have htodo : later → p ∈ todo := fun hl => by
      rcases List.mem_cons.mp (hw.2 hl) with rfl | h
      · exact absurd rfl hstem
      · exact h
    left
    rcases h with ⟨_⟩ | ⟨_⟩ | ⟨_⟩ | ⟨_⟩ | ⟨_⟩
    · exact hA.frame hstep hA.free hA.unmarked ⟨hw.1, htodo⟩
    · exact hA.frame hstep hA.free hA.unmarked trivial
    · exact hA.frame hstep hA.free hA.unmarked ⟨hw.1, hstem, htodo⟩
    · exact hA.frame hstep (by simpa using hA.free) hA.unmarked ⟨hw.1, hstem, htodo⟩
    · exact hA.frame hstep hA.free hA.unmarked ⟨hw.1, .inr ⟨hstem, htodo⟩⟩

/-- One step towards the message. -/
theorem Awaited.step (hA : Awaited cfg p later s) (hI : Sound cfg s) (h : Step cfg s l s') :
    Awaited cfg p (later ∨ l.isScan) s' ∨ ∃ e : Happened, e.meets cfg p ∧ s'.log = e :: s.log := by
  have hstep := h
  have haside := h.aside
  have hw := hA.waiting
  cases h with
  | turn htap hp h => simpa [Label.isScan] using hA.turn hI htap hp h
  | @scan overrides readable htap hidle hup =>
    -- the state is loaded, which does not mark the message, and its file is on the list
    obtain ⟨hload, hmem⟩ := loadState_of_legacy (fun _ => hI.marks.legacy) readable
    refine .inl (hA.frame hstep hA.free (fun st hst => hA.unmarked st (hload ▸ hst)) ⟨?_, .inl ?_⟩)
    · intro hin
      obtain ⟨st, hst, hin⟩ := hmem _ hin
      exact hA.unmarked st hst hin
    · rw [listing, List.mem_insertionSort]
      exact mem_of_readMessage (hA.current hI.steady)
  | @start overrides readable s' hup h =>
    have hload := (loadState_of_legacy (fun _ => hI.marks.legacy) readable).1
    left
    rcases h with ⟨_⟩ | ⟨_⟩ | ⟨_⟩ <;>
      exact hA.frame hstep hA.free (fun st hst => hA.unmarked st (hload ▸ hst))
        (by simpa [Label.isScan] using hw)
  | @readDone scan parsed htap hp =>
    rw [hp] at hw
    exact .inl (hA.frame hstep hA.free hA.unmarked ⟨hw.1, fun _ => by simpa using hw.2⟩)
  | @readSkips scan stem stems parsed htap hp hr =>
    rw [hp] at hw
    refine .inl (hA.frame hstep hA.free hA.unmarked ⟨hw.1, ?_⟩)
    refine hw.2.imp_left fun h => (List.mem_cons.mp h).resolve_left ?_
    -- the file of the message is one that can be read
    rintro rfl
    exact absurd (hr.symm.trans (hA.current hI.steady)) (by simp)
  | @reads scan stem stems parsed q htap hp hr =>
    rw [hp] at hw
    refine .inl (hA.frame hstep hA.free hA.unmarked ⟨hw.1, ?_⟩)
    rcases hw.2 with h | h
    · rcases List.mem_cons.mp h with rfl | h
      · obtain rfl := Option.some.inj (Except.ok.inj (hr.symm.trans (hA.current hI.steady)))
        exact .inr (List.mem_append_right _ List.mem_cons_self)
      · exact .inl h
    · exact .inr (List.mem_append_left _ h)
  | @ends scan htap hp =>
    rw [hp] at hw
    refine .inl (hA.frame hstep hA.free hA.unmarked ?_)
    by_cases hc : scan.changed
    · rw [if_pos hc]
      exact hw.1
    · rw [if_neg hc]
      trivial
  | @handed scan q interactive todo htap hp =>
    rw [hp] at hw
    refine .inl (hA.frame hstep (by simpa using hA.free) hA.unmarked ⟨hw.1, .inr ⟨hw.2.1, ?_⟩⟩)
    simpa [Label.isScan] using hw.2.2
  | @handFails scan q interactive todo htap hp =>
    rw [hp] at hw
    refine .inl (hA.frame hstep hA.free hA.unmarked ⟨hw.1, ?_⟩)
    simpa [Label.isScan] using hw.2.2
  | @fired scan q surfaced todo htap hp =>
    have hfiring := hI.marks.firing scan q surfaced todo hp
    rw [hp] at hw
    rcases hw.2 with ⟨rfl, rfl⟩ | ⟨hstem, htodo⟩
    · -- it is the message itself
      exact .inr ⟨_, .inr ⟨_, rfl, hfiring⟩, rfl⟩
    · refine .inl (hA.frame hstep (by simpa using hA.free) hA.unmarked ⟨fun hin => ?_, ?_⟩)
      · rcases (AList.mem_insert _).mp hin with h | h
        · exact hstem h.symm
        · exact hw.1 h
      · simpa [Label.isScan] using htodo
  | @quarantine scan q todo htap hp hin =>
    rw [hp] at hw
    refine .inl (hA.frame hstep ?_ hA.unmarked ⟨hw.1, ?_⟩)
    · simpa [Ne.symm hw.2.1] using hA.free
    · simpa [Label.isScan] using hw.2.2
  | @alerted scan todo htap hp =>
    rw [hp] at hw
    exact .inl (hA.frame hstep hA.free hA.unmarked (by simpa [Label.isScan, Waiting] using hw))
  | @saved scan htap hp =>
    -- what is saved is a part of what the scan has marked
    rw [hp] at hw
    refine .inl (hA.frame hstep hA.free (fun st hst hin => ?_) trivial)
    obtain rfl := Option.some.inj hst
    exact hw (mem_prune hin)
  | crash | readRaises | gone | saveFails | abort =>
    exact .inl (hA.frame hstep hA.free hA.unmarked trivial)
  | _ =>
    have ha := haside rfl
    refine .inl (hA.frame hstep ?_ (ha.persisted ▸ hA.unmarked) ?_)
    · rcases ha.log with hlog | ⟨_, _, _, hlog⟩ | ⟨_, _, _, _, hlog⟩ <;> rw [hlog] <;>
        simpa using hA.free
    · rw [ha.phase]
      simpa [Label.isScan] using hw

/-- A run under the condition that message files are only added. -/
def AddingRun (cfg : Config) : State → List Label → State → Prop :=
  Lts.Run (Lts.Under (AddsOnly cfg) (Lts.ofStep (step cfg)))

/-- Since then the message was met again. -/
def MetSince (cfg : Config) (p : Parsed) (before log : List Happened) : Prop :=
  ∃ new, log = new ++ before ∧ ∃ e ∈ new, e.meets cfg p

theorem MetSince.mono {before log log' : List Happened} (h : MetSince cfg p before log)
    (hlog : log <:+ log') : MetSince cfg p before log' := by
  obtain ⟨new, rfl, e, he, hm⟩ := h
  obtain ⟨newer, rfl⟩ := hlog
  exact ⟨newer ++ new, by simp, e, List.mem_append_right _ he, hm⟩

/-- **A run with a message that waits**: it goes on waiting or it is met again. -/
theorem Awaited.run (hA : Awaited cfg p False s₀) (hI : Sound cfg s₀)
    (h : AddingRun cfg s₀ ls s) :
    Sound cfg s ∧ s₀.log <:+ s.log ∧
      (Awaited cfg p (∃ l ∈ ls, l.isScan) s ∨ MetSince cfg p s₀.log s.log) := by
  refine Lts.Run.inv (I := fun ls s => Sound cfg s ∧ s₀.log <:+ s.log ∧
    (Awaited cfg p (∃ l ∈ ls, l.isScan) s ∨ MetSince cfg p s₀.log s.log)) ?_ ?_ h
  · exact ⟨hI, List.suffix_refl _, .inl (by simpa using hA)⟩
  · rintro ls s l s' - ⟨hI, hlog, hA⟩ ⟨hC, hR⟩
    have hstep := Step.of_step hR
    refine ⟨hI.step hstep hC, hlog.trans hstep.log_suffix, ?_⟩
    rcases hA with hA | hA
    · rcases hA.step hI hstep with hA | ⟨e, he, hlog'⟩
      · left
        simpa [or_and_right, exists_or] using hA
      · right
        obtain ⟨new, hnew⟩ := hlog
        exact ⟨e :: new, by rw [hlog', ← hnew]; rfl, e, List.mem_cons_self, he⟩
    · exact .inr (hA.mono hstep.log_suffix)

/-! ### Nothing is hidden -/

/-- The invariants of a run that begins without surfaced messages. -/
theorem sound_of_run (h0 : Initial s₀) (hpersisted : s₀.persisted = none)
    (hlegacy : s₀.legacy = none) (h : AddingRun cfg s₀ ls s) :
    Sound cfg s ∧ ((∀ overrides, .scan overrides false ∉ ls) → Covers s) := by
  refine Lts.Run.inv (I := fun ls s => Sound cfg s ∧
    ((∀ overrides, .scan overrides false ∉ ls) → Covers s)) ?_ ?_ h
  · have hseen : ∀ p, ¬Seen s₀ p := by
      rintro p (hp | ⟨e, he, -⟩)
      · exact absurd hp (by simp [h0.phase, Phase.messages])
      · exact absurd he (by simp [h0.log])
    refine ⟨⟨⟨hlegacy, by simp [hpersisted], by simp [h0.phase, Phase.scan], by simp [h0.phase],
      by simp [h0.phase]⟩, .of_scan_eq_none (by rw [h0.phase]; rfl), ⟨by simp [h0.log],
      by simp [h0.tap], fun p hp => absurd hp (hseen p)⟩, .of_initial h0, ?_, ?_⟩,
      fun _ => .of_scan_eq_none (by rw [h0.phase]; rfl)⟩
    · rw [h0.phase]
      exact List.nodup_nil
    · simp [h0.log]
  · rintro ls s l s' - ⟨hI, hcov⟩ ⟨hC, hR⟩
    have hstep := Step.of_step hR
    refine ⟨hI.step hstep hC, fun hread => ?_⟩
    have hls : ∀ overrides, .scan overrides false ∉ ls := fun overrides h =>
      hread overrides (List.mem_append_left _ h)
    refine (hcov hls).step hI.marks.legacy hstep fun overrides hl => hread overrides ?_
    exact List.mem_append_right _ (by simp [hl])

end Bus

end OtamanBridge
