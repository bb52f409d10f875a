import OtamanBridge.Bus.Delivery

/-!
# Which messages have a card

The pending table has two sources: `_recover_undecided_pendings` puts in the cards of the
messages whose stems are marked, and a scan those of the messages it hands on. A mark may be
pruned, a hand-off may raise and take its card back, and a tap that has written a `human.ack`
clears its card. What is said of one stem (`OtamanBridge.Bus.Tabled`) is that its message has
its card if it waits for a decision and its last hand-off did not raise. No step breaks this
once the stem has a message or a mark (`OtamanBridge.Bus.Tabled.step`), and every stem that is
marked, handed on or come to is such a stem (`OtamanBridge.Bus.Accounted`).
-/

namespace OtamanBridge

namespace Bus

open Py

open Inbox (Content)

variable {cfg : Config} {s s' : State} {l : Label} {p q : Parsed} {stem : Text}
  {lost : Set Text}

/-! ### The hand-offs of a message -/

/-- A hand-off of the message began, or returned. -/
def Happened.handOff (stem : Text) : Happened → Option Bool
  | .offered p _ => if p.msg.stem = stem then some false else none
  | .handed p _ => if p.msg.stem = stem then some true else none
  | _ => none

/-- The last of them: whether it returned. -/
def State.handOff (s : State) (stem : Text) : Option Bool :=
  s.log.findSome? (Happened.handOff stem)

/-- **The last hand-off raised**: it is not under way, and it did not return. -/
def Raised (s : State) (stem : Text) : Prop :=
  s.handOff stem = some false ∧
    ∀ scan p interactive todo, s.phase = .handing scan p interactive todo → p.msg.stem ≠ stem

/-! ### Names -/

/-- The stem is marked, on disk or in a scan. -/
def Noted (s : State) (stem : Text) : Prop :=
  stem ∈ s.stored ∨ ∃ scan ∈ s.phase.scan, stem ∈ scan.state

/-- The name is in use, or was: there is a file, or one in the quarantine, or a mark. -/
def Named (s : State) (stem : Text) : Prop :=
  stem ∈ s.active ∨ .quarantined stem ∈ s.log ∨ Noted s stem

/-- **Message files are only added, under new names**, and the bridge does not stop. -/
def NewNames (cfg : Config) (s : State) : Label → Prop
  | .put stem _ => ¬Named s stem
  | .delete _ => False
  | .crash => False
  | .openFile _ micro => ∀ p r w todo clears f, s.tap = some ⟨p, r, w :: todo, none, clears⟩ →
      fileOf cfg s micro p r w = some f → ¬Named s (stemOf f.name)
  | _ => True

theorem NewNames.addsOnly (h : NewNames cfg s l) : AddsOnly cfg s l := by
  have hnew : ∀ stem, ¬Named s stem → stem ∉ s.active ∧ .quarantined stem ∉ s.log :=
    fun stem hn => ⟨fun hin => hn (.inl hin), fun hq => hn (.inr (.inl hq))⟩
  cases l with
  | put stem content => exact hnew stem h
  | delete stem => exact h
  | openFile ok micro => exact fun p r w todo clears f ht hf => hnew _ (h p r w todo clears f ht hf)
  | _ => trivial

/-! ### What is to hold -/

/-- **The message of this stem has its card**, if it waits for a decision and its last
hand-off did not raise. -/
def Tabled (cfg : Config) (s : State) (stem : Text) : Prop :=
  ∀ p overrides, readMessage cfg s stem = .ok (some p) →
    (decide cfg.py p.msg overrides).interactive → s.acks stem = none → ¬Raised s stem →
      s.pending stem = some p

/-- The stem has a message, or had one that is in the quarantine. -/
def Placed (cfg : Config) (s : State) (stem : Text) : Prop :=
  (∃ p, readMessage cfg s stem = .ok (some p)) ∨ .quarantined stem ∈ s.log

/-- **The invariant of the cards**, but for those of the stems that the start has lost. -/
structure Accounted (cfg : Config) (lost : Set Text) (s : State) : Prop where
  up : s.up
  steady : Steady cfg s
  key : ∀ stem p, s.pending stem = some p → p.msg.stem = stem
  /-- A tap that clears a card writes the `human.ack` before. -/
  tap : ∀ t ∈ s.tap, t.card.msg.stem = t.reply.requestId ∧
    (t.clears → (t.opened = none ∧ ∃ content rest, t.todo = .ack content :: rest) ∨
      s.acks t.card.msg.stem ≠ none)
  /-- A message file a tap has open is not marked. -/
  opened : ∀ p r w todo stem text clears,
    s.tap = some ⟨p, r, w :: todo, some (stem, text), clears⟩ → (∀ content, w ≠ .ack content) →
      '/'.toNat ∈ stem ∨ ¬Noted s stem
  noted : ∀ stem ∉ lost, Noted s stem → Tabled cfg s stem
  offered : ∀ stem, s.handOff stem ≠ none → Tabled cfg s stem
  handing : ∀ scan p interactive todo, s.phase = .handing scan p interactive todo →
    s.handOff p.msg.stem = some false
  firing : ∀ scan p surfaced todo, s.phase = .firing scan p surfaced todo →
    Tabled cfg s p.msg.stem
  done : ∀ scan ∈ s.phase.scan, ∀ p ∈ scan.done, Placed cfg s p.msg.stem ∧
    (p.msg.stem ∉ lost →
      Tabled cfg s p.msg.stem ∨ ∃ scan todo, s.phase = .quarantining scan p todo)

/-! ### The files -/

theorem Named.of_placed (hI : Placed cfg s stem) : Named s stem := by
  rcases hI with ⟨p, hp⟩ | hq
  · exact .inl (mem_of_readMessage hp)
  · exact .inr (.inl hq)

/-- A message of the watcher is in its place. -/
theorem Placed.of_seen (hI : Steady cfg s) (hp : Seen s p) : Placed cfg s p.msg.stem :=
  (hI.current p hp).imp_left fun h => ⟨p, h⟩

/-- An open file of a tap is not that of a message, nor marked. -/
theorem Accounted.opened_ne (hI : Accounted cfg lost s) (hstem : Noted s stem ∨ Placed cfg s stem)
    {p : Parsed} {r : Reply} {w : Write} {todo : List Write} {file text : Text} {clears : Bool}
    (ht : s.tap = some ⟨p, r, w :: todo, some (file, text), clears⟩)
    (hw : ∀ content, w ≠ .ack content) : '/'.toNat ∈ file ∨ file ≠ stem := by
  refine or_iff_not_imp_left.mpr fun hslash => ?_
  rintro rfl
  have hempty := (hI.steady.opened p r w todo file text clears ht hw).resolve_left hslash
  rcases hstem with hnoted | ⟨q, hq⟩ | hq
  · exact (hI.opened p r w todo file text clears ht hw).resolve_left hslash hnoted
  · exact absurd (hq.symm.trans (readMessage_empty hempty)) (by simp)
  · exact hI.steady.gone _ hq (AList.lookup_isSome.mp (by rw [hempty]; rfl))

/-- **What a step does to a file**: nothing, or it is moved to the quarantine. -/
theorem Accounted.file (hI : Accounted cfg lost s) (hstem : Noted s stem ∨ Placed cfg s stem)
    (h : Step cfg s l s') (hC : NewNames cfg s l) :
    s'.active.lookup stem = s.active.lookup stem ∨
      stem ∉ s'.active ∧ .quarantined stem ∈ s'.log := by
  have hnamed : Named s stem := hstem.elim (fun h => .inr (.inr h)) Named.of_placed
  cases h with
  | @put file content =>
    have hne : stem ≠ file := by
      rintro rfl
      exact hC hnamed
    exact .inl (AList.lookup_insert_ne hne)
  | delete => exact hC.elim
  -- the one step that takes a file away, and it is in the log
  | @quarantine scan p todo htap hp hin =>
    by_cases heq : stem = p.msg.stem
    · subst heq
      exact .inr ⟨by simp, List.mem_cons_self⟩
    · exact .inl (AList.lookup_erase_ne heq)
  | start hup h => exact absurd (hup.symm.trans hI.up) (by simp)
  | turn htap hp h => rcases h with ⟨_⟩ | ⟨_⟩ | ⟨_⟩ | ⟨_⟩ | ⟨_⟩ <;> exact .inl rfl
  | opens h =>
    rcases h with ⟨ht⟩ | @⟨p, r, w, todo, clears, f, ht, hf⟩
    · exact .inl rfl
    · refine .inl (lookup_putFile_of_ne (.inr ?_))
      rintro rfl
      exact hC p r w todo clears f ht hf hnamed
  -- a file that was opened under a new name is not the one of a message that was there before
  | writes h =>
    rcases h with ⟨ht⟩ | ⟨ht⟩ | ⟨ht⟩
    · exact .inl rfl
    · exact .inl (lookup_putFile_of_ne (hI.opened_ne hstem ht (by simp)))
    · exact .inl (lookup_putFile_of_ne (hI.opened_ne hstem ht (by simp)))
  | _ => exact .inl rfl

theorem Placed.step (hstem : Placed cfg s stem) (hI : Accounted cfg lost s) (h : Step cfg s l s')
    (hC : NewNames cfg s l) : Placed cfg s' stem := by
  rcases hI.file (.inr hstem) h hC with hfile | ⟨-, hq⟩
  · rcases hstem with ⟨p, hp⟩ | hq
    · exact .inl ⟨p, (readMessage_congr hfile).trans hp⟩
    · exact .inr (h.log_suffix.subset hq)
  · exact .inr hq

/-! ### One stem -/

/-- Steps after which the card is where it was. -/
theorem Tabled.frame (hT : Tabled cfg s stem)
    (hfile : s'.active.lookup stem = s.active.lookup stem ∨ stem ∉ s'.active)
    (hacks : s'.acks stem = none → s.acks stem = none)
    (hlog : s'.handOff stem = s.handOff stem)
    (hphase : ∀ scan p interactive todo, s'.phase = .handing scan p interactive todo →
      p.msg.stem = stem → s.phase = .handing scan p interactive todo)
    (hpending : s'.acks stem = none → s'.pending stem = s.pending stem) : Tabled cfg s' stem := by
  intro p overrides hp hinteractive hack hraised
  rcases hfile with hfile | hgone
  · rw [hpending hack]
    refine hT p overrides ((readMessage_congr hfile).symm.trans hp) hinteractive (hacks hack) ?_
    rintro ⟨hhand, hnot⟩
    refine hraised ⟨hlog.trans hhand, fun scan q interactive todo hphase' hq => ?_⟩
    exact hnot scan q interactive todo (hphase scan q interactive todo hphase' hq) hq
  · exact absurd (mem_of_readMessage hp) hgone

/-- A `human.ack` is written. -/
theorem acks_eq_none {acks : Text → Option Text} {file content : Text}
    (h : Function.update acks file (some content) stem = none) : acks stem = none := by
  rcases eq_or_ne stem file with rfl | hne
  · exact absurd ((Function.update_self ..).symm.trans h) (by simp)
  · exact (Function.update_of_ne hne ..).symm.trans h

/-- The last hand-off, after one that begins or returns. -/
theorem handOff_cons {e : Happened} (hlog : s'.log = e :: s.log) :
    s'.handOff stem = (e.handOff stem).or (s.handOff stem) := by
  unfold State.handOff
  rw [hlog, List.findSome?_cons]
  cases e.handOff stem <;> rfl

/-- A message that is handed on has its card. -/
theorem tabled_of_offers (hI : Accounted cfg lost s) {scan : Scan} {todo : List Parsed}
    (hp : s.phase = .looping scan (p :: todo)) (hactive : s'.active = s.active)
    (hpending : s'.pending = if (decide cfg.py p.msg scan.overrides).interactive then
      Function.update s.pending p.msg.stem (some p) else s.pending) :
    Tabled cfg s' p.msg.stem := by
  intro q overrides hq hinteractive _ _
  have hcurrent : readMessage cfg s p.msg.stem = .ok (some q) :=
    (readMessage_congr (by rw [hactive])).trans hq
  have hseen : Seen s p := .inl (by rw [hp]; exact List.mem_cons_self)
  obtain rfl := hI.steady.eq_of_readMessage hseen hcurrent
  rw [hpending, if_pos (interactive_decide hinteractive scan.overrides).1, Function.update_self]

/-- **No step takes a card away** that still waits for a decision. -/
theorem Tabled.step (hT : Tabled cfg s stem) (hI : Accounted cfg lost s)
    (hstem : Noted s stem ∨ Placed cfg s stem) (h : Step cfg s l s') (hC : NewNames cfg s l) :
    Tabled cfg s' stem := by
  have hfile : s'.active.lookup stem = s.active.lookup stem ∨ stem ∉ s'.active :=
    (hI.file hstem h hC).imp_right And.left
  cases h with
  | delete => exact hC.elim
  | crash => exact hC.elim
  | start hup h => exact absurd (hup.symm.trans hI.up) (by simp)
  | tick | put | confirm | tapIgnored | tapTaken | openFails | writeFails =>
    exact hT.frame hfile id rfl (fun _ _ _ _ h _ => h) fun _ => rfl
  | cliAck =>
    exact hT.frame hfile acks_eq_none rfl (fun _ _ _ _ h _ => h) fun _ => rfl
  | scan | readDone | readRaises | readSkips | reads | alerted | saved | saveFails | abort | gone
  | quarantine | fired =>
    exact hT.frame hfile id rfl (fun _ _ _ _ h _ => absurd h (by simp)) fun _ => rfl
  | @ends scan htap hp =>
    refine hT.frame hfile id rfl (fun _ _ _ _ h _ => absurd h ?_) fun _ => rfl
    dsimp only
    split_ifs <;> simp
  | @turn scan p todo s' htap hp h =>
    rcases h with ⟨_⟩ | ⟨_⟩ | ⟨_⟩ | ⟨_, _, _⟩ | ⟨_⟩
    case offers =>
      by_cases heq : p.msg.stem = stem
      · subst heq
        exact tabled_of_offers hI hp rfl rfl
      · refine hT.frame hfile id ?_ ?_ fun _ => ?_
        · rw [handOff_cons rfl]
          simp [Happened.handOff, heq]
        · rintro _ _ _ _ ⟨⟩ hq
          exact absurd hq heq
        · dsimp only
          split_ifs
          · exact Function.update_of_ne (Ne.symm heq) ..
          · rfl
    all_goals exact hT.frame hfile id rfl (fun _ _ _ _ h _ => absurd h (by simp)) fun _ => rfl
  | @handed scan p interactive todo htap hp =>
    by_cases heq : p.msg.stem = stem
    · -- it was under way, and the card was there
      subst heq
      intro q overrides hq hinteractive hack _
      refine hT q overrides hq hinteractive hack fun hraised => ?_
      exact hraised.2 scan p interactive todo hp rfl
    · refine hT.frame hfile id ?_ (fun _ _ _ _ h _ => absurd h (by simp)) fun _ => rfl
      rw [handOff_cons rfl]
      simp [Happened.handOff, heq]
  | @handFails scan p interactive todo htap hp =>
    by_cases heq : p.msg.stem = stem
    · -- the card is taken away, and the message will be offered again
      subst heq
      intro q overrides hq hinteractive hack hraised
      exact absurd ⟨hI.handing scan p interactive todo hp, by simp⟩ hraised
    · refine hT.frame hfile id rfl (fun _ _ _ _ h _ => absurd h (by simp)) fun _ => ?_
      dsimp only
      split_ifs
      · exact Function.update_of_ne (Ne.symm heq) ..
      · rfl
  | opens h =>
    rcases h with ⟨ht⟩ | ⟨ht⟩
    · exact hT.frame hfile acks_eq_none rfl (fun _ _ _ _ h _ => h) fun _ => rfl
    · exact hT.frame hfile id rfl (fun _ _ _ _ h _ => h) fun _ => rfl
  | writes h =>
    rcases h with ⟨ht⟩ | ⟨ht⟩ | ⟨ht⟩
    · exact hT.frame hfile acks_eq_none rfl (fun _ _ _ _ h _ => h) fun _ => rfl
    · exact hT.frame hfile id rfl (fun _ _ _ _ h _ => h) fun _ => rfl
    · exact hT.frame hfile id rfl (fun _ _ _ _ h _ => h) fun _ => rfl
  | @finish p r clears ht =>
    refine hT.frame hfile id rfl (fun _ _ _ _ h _ => h) fun hack => ?_
    obtain ⟨hstem', hcleared⟩ := hI.tap _ ht
    dsimp only at hack ⊢
    split_ifs with hclears
    · -- a tap that takes the card away has left a `human.ack`
      refine Function.update_of_ne ?_ ..
      rintro rfl
      rcases hcleared hclears with ⟨-, content, rest, hnil⟩ | hacked
      · exact absurd hnil (by simp)
      · exact hacked (hstem' ▸ hack)
    · rfl

/-! ### The clauses, one step -/

/-- What is on disk after the state was loaded was there before. -/
theorem mem_stored_of_mem_load (readable : Bool)
    (h : stem ∈ ({ s with persisted := (loadState s readable).2 } : State).stored) :
    stem ∈ s.stored := by
  unfold State.stored loadState at *
  rcases hp : s.persisted with _ | st
  · rcases hl : s.legacy with _ | st
    · simp [hp, hl] at h
    · cases readable with
      | false => simpa [hp, hl] using h
      | true => exact mem_prune (by simpa [hp, hl] using h)
  · simpa [hp] using h

/-- What is loaded is on disk. -/
theorem mem_stored_of_mem_loadState {readable : Bool} (h : stem ∈ (loadState s readable).1) :
    stem ∈ s.stored := by
  unfold State.stored
  unfold loadState at h
  rcases hp : s.persisted with _ | st
  · rcases hl : s.legacy with _ | st
    · simp [hp, hl] at h
    · cases readable with
      | false => simp [hp, hl] at h
      | true => simpa [hp, hl] using h
  · cases readable with
    | false => simp [hp] at h
    | true => simpa [hp] using h

/-- Only what was fired is marked. -/
theorem Accounted.noted_or (hI : Accounted cfg lost s) (h : Step cfg s l s') (hC : NewNames cfg s l)
    (hnoted : Noted s' stem) :
    Noted s stem ∨ ∃ scan p surfaced todo, s.phase = .firing scan p surfaced todo ∧
      p.msg.stem = stem := by
  have haside := h.aside
  -- nothing is marked, by a step that leaves the scan, ends it, or moves it on
  have hsame : s'.stored = s.stored → s'.phase.scan = s.phase.scan → Noted s stem := by
    intro hstored hscan
    unfold Noted at hnoted ⊢
    rwa [hstored, hscan] at hnoted
  have hended : s'.stored = s.stored → s'.phase.scan = none → Noted s stem := by
    intro hstored hscan
    unfold Noted at hnoted
    rw [hstored, hscan] at hnoted
    exact .inl (hnoted.resolve_right (by simp))
  have hmoved : ∀ {scan scan' : Scan}, s'.stored = s.stored → s.phase.scan = some scan →
      s'.phase.scan = some scan' → scan'.state = scan.state → Noted s stem := by
    intro scan scan' hstored hscan hscan' hstate
    unfold Noted at hnoted ⊢
    rw [hstored, hscan'] at hnoted
    rw [hscan]
    rcases hnoted with hnoted | ⟨scan'', hscan'', hin⟩
    · exact .inl hnoted
    · obtain rfl := Option.some.inj hscan''
      exact .inr ⟨scan, rfl, hstate ▸ hin⟩
  cases h with
  | crash => exact hC.elim
  | start hup h => exact absurd (hup.symm.trans hI.up) (by simp)
  | @scan overrides readable htap hidle hup =>
    left
    rcases hnoted with hin | ⟨scan, hscan, hin⟩
    · exact .inl (mem_stored_of_mem_load _ hin)
    · obtain rfl := Option.some.inj hscan
      exact .inl (mem_stored_of_mem_loadState hin)
  | @ends scan htap hp =>
    left
    by_cases hc : scan.changed
    · exact hsame rfl (by simp [hp, hc, Phase.scan])
    · exact hended rfl (by simp [hc, Phase.scan])
  | @turn scan p todo s' htap hp h =>
    left
    have hscan : s.phase.scan = some scan := by rw [hp]; rfl
    rcases h with ⟨_⟩ | ⟨_⟩ | ⟨_⟩ | ⟨_⟩ | ⟨_⟩
    case raises => exact hended rfl rfl
    all_goals exact hmoved rfl hscan rfl rfl
  | @fired scan p surfaced todo htap hp =>
    by_cases heq : p.msg.stem = stem
    · exact .inr ⟨scan, p, surfaced, todo, hp, heq⟩
    · left
      rcases hnoted with hnoted | ⟨scan', hscan', hin⟩
      · exact .inl hnoted
      · obtain rfl := Option.some.inj hscan'
        refine .inr ⟨scan, by rw [hp]; exact rfl, ?_⟩
        exact ((AList.mem_insert _).mp hin).resolve_left (Ne.symm heq)
  | @saved scan htap hp =>
    left
    rcases hnoted with hin | ⟨scan', hscan', -⟩
    · exact .inr ⟨scan, by rw [hp]; exact rfl, mem_prune hin⟩
    · exact absurd hscan' (by simp [Phase.scan])
  | readDone htap hp | readSkips htap hp | reads htap hp | handed htap hp | handFails htap hp
  | quarantine htap hp | alerted htap hp =>
    exact .inl (hmoved rfl (congrArg Phase.scan hp) rfl rfl)
  | readRaises | gone | saveFails | abort => exact .inl (hended rfl rfl)
  | _ =>
    have ha := haside rfl
    exact .inl (hsame ha.stored (by rw [ha.phase]))

/-- A card that clears comes with a `human.ack`. -/
theorem writesOf_clears {r : Reply} {todo : List Write} (h : writesOf cfg p r = some (todo, true)) :
    ∃ content rest, todo = .ack content :: rest := by
  simp only [writesOf] at h
  rcases ha : r.action with v | _ | _ | _
  · rw [ha] at h
    by_cases htype : p.msg.type cfg.py = specChangeRequest
    · obtain ⟨rfl, -⟩ := Prod.mk.inj (Option.some.inj ((if_pos htype).symm.trans h))
      exact ⟨_, _, rfl⟩
    · obtain ⟨rfl, -⟩ := Prod.mk.inj (Option.some.inj ((if_neg htype).symm.trans h))
      exact ⟨_, _, rfl⟩
  · rw [ha] at h
    obtain ⟨rfl, -⟩ := Prod.mk.inj (Option.some.inj h)
    exact ⟨_, _, rfl⟩
  · rw [ha] at h
    by_cases hempty : strip r.comment = []
    · exact absurd ((if_pos hempty).symm.trans h) (by simp)
    · exact absurd (Prod.mk.inj (Option.some.inj ((if_neg hempty).symm.trans h))).2 (by simp)
  · rw [ha] at h
    exact absurd h (by simp)

theorem Accounted.key_step (hI : Accounted cfg lost s) (h : Step cfg s l s')
    (hC : NewNames cfg s l) : ∀ stem p, s'.pending stem = some p → p.msg.stem = stem := by
  -- both ways out of the table, a hand-off that fails and a decision, only remove an entry
  have hremove : ∀ {key : Text} (c : Prop) [Decidable c] stem p,
      (if c then Function.update s.pending key none else s.pending) stem = some p →
        p.msg.stem = stem := by
    intro key c _ stem p hp
    split_ifs at hp
    · rcases Lts.update_eq_some hp with ⟨-, hnone⟩ | ⟨-, hp⟩
      · exact absurd hnone (by simp)
      · exact hI.key stem p hp
    · exact hI.key stem p hp
  cases h with
  | crash => exact hC.elim
  | start hup h => exact absurd (hup.symm.trans hI.up) (by simp)
  | turn htap hp h =>
    rcases h with ⟨_⟩ | ⟨_⟩ | ⟨_⟩ | ⟨_⟩ | ⟨_⟩
    case offers =>
      intro stem q hq
      dsimp only at hq
      split_ifs at hq
      · rcases Lts.update_eq_some hq with ⟨hkey, hnew⟩ | ⟨-, hq⟩
        · rw [← Option.some.inj hnew, hkey]
        · exact hI.key stem q hq
      · exact hI.key stem q hq
    all_goals exact hI.key
  | handFails => exact hremove _
  | finish => exact hremove _
  | opens h => rcases h with ⟨_⟩ | ⟨_⟩ <;> exact hI.key
  | writes h => rcases h with ⟨_⟩ | ⟨_⟩ | ⟨_⟩ <;> exact hI.key
  | _ => exact hI.key

/-- A tap that goes on after its `human.ack` is there. -/
theorem acks_ne_none {acks : Text → Option Text} {file content : Text} (h : acks stem ≠ none) :
    Function.update acks file (some content) stem ≠ none :=
  fun heq => h (acks_eq_none heq)

theorem Accounted.tap_step (hI : Accounted cfg lost s) (h : Step cfg s l s')
    (hC : NewNames cfg s l) : ∀ t ∈ s'.tap, t.card.msg.stem = t.reply.requestId ∧
      (t.clears → (t.opened = none ∧ ∃ content rest, t.todo = .ack content :: rest) ∨
        s'.acks t.card.msg.stem ≠ none) := by
  cases h with
  | crash => exact hC.elim
  | start hup h => exact absurd (hup.symm.trans hI.up) (by simp)
  | cliAck =>
    exact fun t ht =>
      (hI.tap t ht).imp_right fun hack hclears => (hack hclears).imp_right acks_ne_none
  | @tapTaken r p todo clears hup htap hawait hp hw =>
    intro t ht
    obtain rfl := Option.some.inj ht
    refine ⟨hI.key _ p hp, ?_⟩
    rintro rfl
    exact .inl ⟨rfl, writesOf_clears hw⟩
  | turn htap hp h =>
    rcases h with ⟨_⟩ | ⟨_⟩ | ⟨_⟩ | ⟨_⟩ | ⟨_⟩ <;> exact hI.tap
  | opens h =>
    rcases h with ⟨ht⟩ | @⟨p, r, w, todo, clears, f, ht, hf⟩
    · intro t ht'
      obtain rfl := Option.some.inj ht'
      exact ⟨(hI.tap _ ht).1, fun _ => .inr (by simp)⟩
    · intro t ht'
      obtain rfl := Option.some.inj ht'
      refine (hI.tap _ ht).imp_right fun hack hclears => .inr ((hack hclears).resolve_left ?_)
      -- the `human.ack` comes first, so another file is opened after it
      rintro ⟨-, content, rest, hcons⟩
      rw [(List.cons.inj hcons).1] at hf
      exact absurd hf (by simp [fileOf])
  | writes h =>
    rcases h with ⟨ht⟩ | ⟨ht⟩ | ⟨ht⟩
    all_goals
      intro t ht'
      obtain rfl := Option.some.inj ht'
      refine (hI.tap _ ht).imp_right fun hack hclears => .inr ?_
      have hacked := (hack hclears).resolve_left (by simp)
    · exact acks_ne_none hacked
    · exact hacked
    · exact hacked
  | openFails | writeFails | finish => simp
  | _ => exact hI.tap

theorem Accounted.opened_step (hI : Accounted cfg lost s) (h : Step cfg s l s')
    (hC : NewNames cfg s l) : ∀ p r w todo stem text clears,
      s'.tap = some ⟨p, r, w :: todo, some (stem, text), clears⟩ → (∀ content, w ≠ .ack content) →
        '/'.toNat ∈ stem ∨ ¬Noted s' stem := by
  have hno : s.tap = none → ∀ p r w todo stem text clears,
      s.tap = some ⟨p, r, w :: todo, some (stem, text), clears⟩ → (∀ content, w ≠ .ack content) →
        '/'.toNat ∈ stem ∨ ¬Noted s' stem :=
    fun hnone _ _ _ _ _ _ _ ht => absurd (hnone.symm.trans ht) (by simp)
  cases h with
  | crash => exact hC.elim
  | start hup h => exact absurd (hup.symm.trans hI.up) (by simp)
  | tick | put | delete | confirm | cliAck | tapIgnored => exact hI.opened
  | tapTaken | openFails | writeFails | finish => simp
  | turn htap hp h => rcases h with ⟨_⟩ | ⟨_⟩ | ⟨_⟩ | ⟨_⟩ | ⟨_⟩ <;> exact hno htap
  | opens h =>
    rcases h with ⟨ht⟩ | ⟨ht, hf⟩
    · rintro p r w todo stem text clears ⟨⟩ hw
      exact absurd rfl (hw _)
    · rintro p r w todo stem text clears ⟨⟩ -
      exact .inr fun hnoted => hC _ _ _ _ _ _ ht hf (.inr (.inr hnoted))
  | writes h => rcases h with ⟨_⟩ | ⟨_⟩ | ⟨_⟩ <;> simp
  | _ => exact hno ‹_›

theorem Placed.of_handOff (hI : Steady cfg s) (h : s.handOff stem ≠ none) :
    Placed cfg s stem := by
  obtain ⟨b, hb⟩ := Option.ne_none_iff_exists'.mp h
  obtain ⟨e, he, heb⟩ := List.exists_of_findSome?_eq_some hb
  cases e with
  | offered p interactive | handed p interactive =>
    obtain ⟨rfl, -⟩ : p.msg.stem = stem ∧ _ := by simpa [Happened.handOff] using heb
    exact .of_seen hI (.inr ⟨_, he, rfl⟩)
  | fired | quarantined | acked | announced => exact absurd heb (by simp [Happened.handOff])

/-- Steps aside say nothing of hand-offs. -/
theorem Aside.handOff (h : Aside s s') (stem : Text) : s'.handOff stem = s.handOff stem := by
  rcases h.log with hlog | ⟨_, _, _, hlog⟩ | ⟨_, _, _, _, hlog⟩
  · unfold State.handOff
    rw [hlog]
  · rw [handOff_cons hlog]
    rfl
  · rw [handOff_cons hlog]
    rfl

theorem Accounted.handing_step (hI : Accounted cfg lost s) (h : Step cfg s l s')
    (hC : NewNames cfg s l) : ∀ scan p interactive todo,
      s'.phase = .handing scan p interactive todo → s'.handOff p.msg.stem = some false := by
  have haside := h.aside
  cases h with
  | crash => exact hC.elim
  | start hup h => exact absurd (hup.symm.trans hI.up) (by simp)
  | @ends scan htap hp =>
    dsimp only
    split_ifs <;> simp
  | turn htap hp h =>
    rcases h with ⟨_⟩ | ⟨_⟩ | ⟨_⟩ | ⟨_⟩ | ⟨_⟩
    case offers =>
      rintro scan p interactive todo ⟨⟩
      rw [handOff_cons rfl]
      simp [Happened.handOff]
    all_goals simp
  | scan | readDone | readRaises | readSkips | reads | alerted | saved | saveFails | abort | gone
  | quarantine | fired | handed | handFails => simp
  -- the steps of the other parties leave the phase and the log of hand-offs as they are
  | _ =>
    have ha := haside rfl
    intro scan p interactive todo hp
    rw [ha.handOff]
    exact hI.handing scan p interactive todo (ha.phase ▸ hp)

/-- **What was handed off has its card**, after a step. -/
theorem Accounted.offered_step (hI : Accounted cfg lost s) (h : Step cfg s l s')
    (hC : NewNames cfg s l) (hhand : s'.handOff stem ≠ none) : Tabled cfg s' stem := by
  by_cases hs : s.handOff stem = none
  · -- the hand-off begins with this step
    have haside := h.aside
    cases h with
    | crash => exact hC.elim
    | start hup h => exact absurd (hup.symm.trans hI.up) (by simp)
    | @turn scan p todo s' htap hp h =>
      rcases h with ⟨_⟩ | ⟨_⟩ | ⟨_⟩ | ⟨_⟩ | ⟨_⟩
      case offers =>
        rw [handOff_cons rfl, hs, Option.or_none] at hhand
        obtain rfl : p.msg.stem = stem := by
          by_contra hne
          exact hhand (by simp [Happened.handOff, hne])
        exact tabled_of_offers hI hp rfl rfl
      all_goals exact absurd hs hhand
    | @handed scan p interactive todo htap hp =>
      rw [handOff_cons rfl, hs, Option.or_none] at hhand
      obtain rfl : p.msg.stem = stem := by
        by_contra hne
        exact hhand (by simp [Happened.handOff, hne])
      exact absurd (hs.symm.trans (hI.handing scan p interactive todo hp)) (by simp)
    | scan | readDone | readRaises | readSkips | reads | ends | alerted | saved | saveFails | abort
    | gone | handFails => exact absurd hs hhand
    | quarantine | fired =>
      rw [handOff_cons rfl, hs] at hhand
      exact absurd rfl hhand
    | _ => exact absurd (((haside rfl).handOff stem).trans hs) hhand
  · exact (hI.offered stem hs).step hI (.inr (.of_handOff hI.steady hs)) h hC

theorem Accounted.firing_step (hI : Accounted cfg lost s) (h : Step cfg s l s')
    (hC : NewNames cfg s l) : ∀ scan p surfaced todo, s'.phase = .firing scan p surfaced todo →
      Tabled cfg s' p.msg.stem := by
  have haside := h.aside
  have hstep := h
  cases h with
  | crash => exact hC.elim
  | start hup h => exact absurd (hup.symm.trans hI.up) (by simp)
  | @ends scan htap hp =>
    dsimp only
    split_ifs <;> simp
  | @turn scan p todo s' htap hp h =>
    rcases h with ⟨_⟩ | ⟨_⟩ | ⟨_⟩ | ⟨_⟩ | ⟨_, _, hsurface⟩
    case withholds =>
      rintro scan' p' surfaced todo' ⟨⟩
      intro q overrides hq hinteractive _ _
      -- what is not surfaced is not interactive
      have hseen : Seen s p := .inl (by rw [hp]; exact List.mem_cons_self)
      obtain rfl := hI.steady.eq_of_readMessage hseen hq
      have hshown := (interactive_decide hinteractive scan.overrides).2
      exact absurd (hsurface.symm.trans hshown) (by simp)
    all_goals simp
  | @handed scan p interactive todo htap hp =>
    rintro scan' p' surfaced todo' ⟨⟩
    refine hI.offered_step hstep hC ?_
    rw [handOff_cons rfl]
    simp [Happened.handOff]
  | scan | readDone | readRaises | readSkips | reads | alerted | saved | saveFails | abort | gone
  | quarantine | fired | handFails => simp
  | _ =>
    have ha := haside rfl
    intro scan p surfaced todo hp
    have hp := ha.phase ▸ hp
    have hseen : Seen s p := .inl (by rw [hp]; exact List.mem_cons_self)
    exact (hI.firing scan p surfaced todo hp).step hI (.inr (.of_seen hI.steady hseen)) hstep hC

theorem Accounted.noted_step (hI : Accounted cfg lost s) (h : Step cfg s l s')
    (hC : NewNames cfg s l) (hlost : stem ∉ lost) (hnoted : Noted s' stem) :
    Tabled cfg s' stem := by
  rcases hI.noted_or h hC hnoted with hnoted | ⟨scan, p, surfaced, todo, hp, rfl⟩
  · exact (hI.noted stem hlost hnoted).step hI (.inl hnoted) h hC
  · have hseen : Seen s p := .inl (by rw [hp]; exact List.mem_cons_self)
    exact (hI.firing scan p surfaced todo hp).step hI (.inr (.of_seen hI.steady hseen)) h hC

/-- A file that is gone has no message. -/
theorem tabled_of_gone (h : stem ∉ s.active) : Tabled cfg s stem :=
  fun _ _ hp => absurd (mem_of_readMessage hp) h

/-- The loop has come to one more message. -/
theorem Accounted.done_turn (hI : Accounted cfg lost s) {scan : Scan} {todo : List Parsed}
    (htap : s.tap = none) (hp : s.phase = .looping scan (p :: todo))
    (h : Turns cfg s scan p todo s') : ∀ scan' ∈ s'.phase.scan, ∀ q ∈ scan'.done,
      Placed cfg s' q.msg.stem ∧ (q.msg.stem ∉ lost →
        Tabled cfg s' q.msg.stem ∨ ∃ scan todo, s'.phase = .quarantining scan q todo) := by
  have hstep : Step cfg s .turn s' := .turn htap hp h
  have hC : NewNames cfg s .turn := trivial
  have hplace : ∀ q : Parsed, Placed cfg s q.msg.stem → Placed cfg s' q.msg.stem :=
    fun q hq => hq.step hI hstep hC
  have hseen : Seen s p := .inl (by rw [hp]; exact List.mem_cons_self)
  have hold : ∀ q ∈ scan.done,
      Placed cfg s' q.msg.stem ∧ (q.msg.stem ∉ lost → Tabled cfg s' q.msg.stem) := by
    intro q hq
    obtain ⟨hin, htabled⟩ := hI.done scan (by rw [hp]; exact rfl) q hq
    refine ⟨hplace q hin, fun hlost => ?_⟩
    exact ((htabled hlost).resolve_right (by simp [hp])).step hI (.inr hin) hstep hC
  -- the message it has come to is the only new one
  have hnew : ∀ {scan' : Scan}, s'.phase.scan = some scan' → scan'.done = scan.done ++ [p] →
      (p.msg.stem ∉ lost →
        Tabled cfg s' p.msg.stem ∨ ∃ scan todo, s'.phase = .quarantining scan p todo) →
        ∀ scan' ∈ s'.phase.scan, ∀ q ∈ scan'.done, Placed cfg s' q.msg.stem ∧
          (q.msg.stem ∉ lost →
            Tabled cfg s' q.msg.stem ∨ ∃ scan todo, s'.phase = .quarantining scan q todo) := by
    intro scan' hscan' hdone htabled scan'' hscan'' q hq
    obtain rfl := Option.some.inj (hscan'.symm.trans hscan'')
    rw [hdone] at hq
    rcases List.mem_append.mp hq with hq | hq
    · exact (hold q hq).imp_right fun htabled hlost => .inl (htabled hlost)
    · obtain rfl := List.mem_singleton.mp hq
      exact ⟨hplace _ (.of_seen hI.steady hseen), htabled⟩
  rcases h with ⟨hin⟩ | ⟨_⟩ | ⟨_⟩ | ⟨_, _, _⟩ | ⟨_, _, _⟩
  · exact hnew rfl rfl fun hlost => .inl (hI.noted_step hstep hC hlost (.inr ⟨_, rfl, hin⟩))
  · simp [Phase.scan]
  · exact hnew rfl rfl fun _ => .inr ⟨_, _, rfl⟩
  · refine hnew rfl rfl fun _ => .inl (hI.offered_step hstep hC ?_)
    rw [handOff_cons rfl]
    simp [Happened.handOff]
  · exact hnew rfl rfl fun _ => .inl (hI.firing_step hstep hC _ _ _ _ rfl)

theorem Accounted.done_step (hI : Accounted cfg lost s) (h : Step cfg s l s')
    (hC : NewNames cfg s l) : ∀ scan ∈ s'.phase.scan, ∀ p ∈ scan.done,
      Placed cfg s' p.msg.stem ∧ (p.msg.stem ∉ lost →
        Tabled cfg s' p.msg.stem ∨ ∃ scan todo, s'.phase = .quarantining scan p todo) := by
  have hstep := h
  have haside := h.aside
  have hkeep : ∀ scan ∈ s.phase.scan, (∀ scan p todo, s.phase ≠ .quarantining scan p todo) →
      ∀ scan' ∈ s'.phase.scan, scan'.done = scan.done → ∀ p ∈ scan'.done,
        Placed cfg s' p.msg.stem ∧ (p.msg.stem ∉ lost →
          Tabled cfg s' p.msg.stem ∨ ∃ scan todo, s'.phase = .quarantining scan p todo) := by
    intro scan hscan hnot scan' _ hdone p hp
    obtain ⟨hin, htabled⟩ := hI.done scan hscan p (hdone ▸ hp)
    refine ⟨hin.step hI hstep hC, fun hlost => .inl ?_⟩
    have htabled := (htabled hlost).resolve_right fun ⟨_, _, hq⟩ => hnot _ _ _ hq
    exact htabled.step hI (.inr hin) hstep hC
  cases h with
  | crash => exact hC.elim
  | start hup h => exact absurd (hup.symm.trans hI.up) (by simp)
  | scan =>
    intro scan hscan p hp
    obtain rfl := Option.some.inj hscan
    exact absurd hp List.not_mem_nil
  | @ends scan htap hp =>
    by_cases hc : scan.changed
    · intro scan' hscan'
      refine hkeep scan (by rw [hp]; exact rfl) (by simp [hp]) scan' hscan' ?_
      rw [if_pos hc] at hscan'
      rw [Option.some.inj hscan']
    · simp [hc, Phase.scan]
  | turn htap hp h => exact hI.done_turn htap hp h
  | readRaises | gone | saved | saveFails | abort => simp [Phase.scan]
  | readDone htap hp | readSkips htap hp | reads htap hp | handed htap hp | handFails htap hp
  | alerted htap hp | fired htap hp =>
    intro scan' hscan'
    refine hkeep _ (congrArg Phase.scan hp) (by simp [hp]) scan' hscan' ?_
    rw [← Option.some.inj hscan']
  | @quarantine scan p todo htap hp hin =>
    intro scan' hscan' q hq
    obtain rfl := Option.some.inj hscan'
    obtain ⟨hin', htabled⟩ := hI.done _ (congrArg Phase.scan hp) q hq
    refine ⟨hin'.step hI hstep hC, fun hlost => .inl ?_⟩
    rcases htabled hlost with htabled | ⟨_, _, hq'⟩
    · exact htabled.step hI (.inr hin') hstep hC
    · -- the file that was to be quarantined is gone
      obtain ⟨-, rfl, -⟩ := Phase.quarantining.inj (hp.symm.trans hq')
      exact tabled_of_gone (by simp)
  | _ =>
    have ha := haside rfl
    intro scan hscan p hp
    obtain ⟨hin, htabled⟩ := hI.done scan (ha.phase ▸ hscan) p hp
    refine ⟨hin.step hI hstep hC, fun hlost => ?_⟩
    rcases htabled hlost with htabled | ⟨scan', todo, hq⟩
    · exact .inl (htabled.step hI (.inr hin) hstep hC)
    · exact .inr ⟨scan', todo, ha.phase.trans hq⟩

theorem Accounted.up_step (hI : Accounted cfg lost s) (h : Step cfg s l s')
    (hC : NewNames cfg s l) : s'.up := by
  cases h with
  | crash => exact hC.elim
  | start hup h => exact absurd (hup.symm.trans hI.up) (by simp)
  | turn htap hp h => rcases h with ⟨_⟩ | ⟨_⟩ | ⟨_⟩ | ⟨_⟩ | ⟨_⟩ <;> exact hI.up
  | opens h => rcases h with ⟨_⟩ | ⟨_⟩ <;> exact hI.up
  | writes h => rcases h with ⟨_⟩ | ⟨_⟩ | ⟨_⟩ <;> exact hI.up
  | _ => exact hI.up

/-- **What a step keeps.** -/
theorem Accounted.step (hI : Accounted cfg lost s) (h : Step cfg s l s') (hC : NewNames cfg s l) :
    Accounted cfg lost s' where
  up := hI.up_step h hC
  steady := hI.steady.step h hC.addsOnly
  key := hI.key_step h hC
  tap := hI.tap_step h hC
  opened := hI.opened_step h hC
  noted _ := hI.noted_step h hC
  offered _ := hI.offered_step h hC
  handing := hI.handing_step h hC
  firing := hI.firing_step h hC
  done := hI.done_step h hC

end Bus

end OtamanBridge
