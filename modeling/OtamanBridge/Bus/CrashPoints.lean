import OtamanBridge.Bus.Finality

/-!
# A decision that is cut short

`record_decision` writes two files, the `human.ack` and the broadcast, and the bridge takes
the card from its table after that. It may raise at any of these steps, and the process may
die at any of them (`OtamanBridge.Bus.Stage`). What `_recover_undecided_pendings` looks at
afterwards is the first file alone: a decision is whole again when it was cut short before
that file was opened, or after the second was written
(`OtamanBridge.Bus.decision_whole_iff`), and it is lost in between.
-/

namespace OtamanBridge

namespace Bus

open Py

open Inbox (Content)

variable {cfg : Config} {s s₀ s' : State} {l : Label} {ls : List Label} {p q : Parsed} {stem : Text}
  {r : Reply} {v : Verdict} {overrides : Value} {readable : Bool}

/-! ### What a restart has to find -/

/-- **A broadcast of this decision is there**: it was written, and the directory has a file
of its name with its text. -/
def DecidedAs (s : State) (stem : Text) (v : Verdict) : Prop :=
  ∃ file text, .announced stem v file text ∈ s.log ∧ '/'.toNat ∉ file ∧
    s.active.lookup file = some (.text text)

/-- The message asks for a decision. -/
def Asks (cfg : Config) (overrides : Value) (p : Parsed) : Prop :=
  p.msg.type cfg.py = specChangeRequest ∧ (decide cfg.py p.msg overrides).interactive

/-- The gate lets a message through. -/
def Passes (cfg : Config) (s : State) (p : Parsed) : Prop :=
  cfg.privileged (p.msg.type cfg.py) → verifyProvenance cfg s p.msg = .ok true

/-- **A tap can decide the message**: there is a card for it, or the next scan makes one. -/
def Answerable (cfg : Config) (overrides : Value) (readable : Bool) (s : State) (stem : Text) :
    Prop :=
  (∃ p, s.pending stem = some p ∧ p.msg.type cfg.py = specChangeRequest) ∨
    stem ∉ (loadState s readable).1 ∧
      ∃ p, readMessage cfg s stem = .ok (some p) ∧ Asks cfg overrides p ∧ Passes cfg s p

/-- **A decision is not half-recorded**: there is no `human.ack` and a tap can decide the
message, or there is one with the verdict of a broadcast. -/
def Whole (cfg : Config) (overrides : Value) (readable : Bool) (s : State) (stem : Text) : Prop :=
  s.acks stem = none ∧ Answerable cfg overrides readable s stem ∨
    ∃ v : Verdict, s.acks stem = some v.ack ∧ DecidedAs s stem v

/-! ### The steps of a tap -/

/-- The steps of a tap that is dispatched. -/
def Label.ofTap : Label → Bool
  | .openFile .. | .writeFile _ | .finish => true
  | _ => false

/-- A file is opened. -/
def Label.opens : Label → Bool
  | .openFile true _ => true
  | _ => false

/-- A file is written. -/
def Label.writes : Label → Bool
  | .writeFile true => true
  | _ => false

/-- What a tap leaves alone. -/
structure Still (s s' : State) : Prop where
  now : s'.now = s.now
  ledger : s'.ledger = s.ledger
  persisted : s'.persisted = s.persisted
  legacy : s'.legacy = s.legacy

theorem Still.step (hI : Still s₀ s) (h : Step cfg s l s') (hl : l.ofTap) : Still s₀ s' := by
  cases h with
  | opens h => rcases h with ⟨_⟩ | ⟨_, _⟩ <;> exact ⟨hI.now, hI.ledger, hI.persisted, hI.legacy⟩
  | writes h => rcases h with ⟨_⟩ | ⟨_⟩ | ⟨_⟩ <;> exact ⟨hI.now, hI.ledger, hI.persisted, hI.legacy⟩
  | openFails | writeFails | finish => exact ⟨hI.now, hI.ledger, hI.persisted, hI.legacy⟩
  | _ => exact absurd hl Bool.false_ne_true

/-- The tap of a decision, before it has written anything. -/
def deciding (p : Parsed) (r : Reply) (v : Verdict) : Tap :=
  ⟨p, r, [.ack v.ack, .broadcast v], none, true⟩

/-- The stem of the file the broadcast goes to. -/
def targetOf (cfg : Config) (s : State) (p : Parsed) (r : Reply) (v : Verdict) : Text :=
  stemOf (broadcastDecision cfg.py p.msg (s.instant 0) r.responder r.comment v).name

/-- The name of the file has the second in it, and no microseconds. -/
theorem stemOf_eq_targetOf {micro : ℕ} {f : MessageFile} (hnow : s'.now = s.now)
    (hf : fileOf cfg s' micro p r (.broadcast v) = some f) :
    stemOf f.name = targetOf cfg s p r v := by
  obtain rfl := Option.some.inj hf
  unfold targetOf State.instant
  rw [hnow]
  cases v <;> rfl

/-- The directory, once the file of the broadcast is opened. -/
def emptied (cfg : Config) (s : State) (p : Parsed) (r : Reply) (v : Verdict) :
    AList fun _ : Text => Content :=
  putFile s.active (targetOf cfg s p r v) []

/-- The same broadcasts were written. -/
def SameBroadcasts (s s' : State) : Prop :=
  ∀ stem v file text, .announced stem v file text ∈ s'.log ↔ .announced stem v file text ∈ s.log

/-- **How far a decision has come**, after these steps from `s`, whether its tap is still
going on or was cut short. -/
inductive Stage (cfg : Config) (s : State) (p : Parsed) (r : Reply) (v : Verdict)
    (ls : List Label) (s' : State) : Prop
  | untouched (htap : ∀ t ∈ s'.tap, t = deciding p r v) (hopens : ls.countP Label.opens = 0)
      (hwrites : ls.countP Label.writes = 0) (hacks : s'.acks = s.acks)
      (hactive : s'.active = s.active) (hlog : s'.log = s.log)
  | opened (htap : ∀ t ∈ s'.tap, t = { deciding p r v with opened := some (p.msg.stem, v.ack) })
      (hopens : ls.countP Label.opens = 1) (hwrites : ls.countP Label.writes = 0)
      (hacks : s'.acks p.msg.stem = some []) (hactive : s'.active = s.active)
      (hlog : SameBroadcasts s s')
  | acked (htap : ∀ t ∈ s'.tap, t = ⟨p, r, [.broadcast v], none, true⟩)
      (hopens : ls.countP Label.opens = 1) (hwrites : ls.countP Label.writes = 1)
      (hacks : s'.acks p.msg.stem = some v.ack) (hactive : s'.active = s.active)
      (hlog : SameBroadcasts s s')
  | begun (htap : ∀ t ∈ s'.tap,
        ∃ text, t = ⟨p, r, [.broadcast v], some (targetOf cfg s p r v, text), true⟩)
      (hopens : ls.countP Label.opens = 2) (hwrites : ls.countP Label.writes = 1)
      (hacks : s'.acks p.msg.stem = some v.ack) (hactive : s'.active = emptied cfg s p r v)
      (hlog : SameBroadcasts s s')
  | announced {text : Text} (htap : ∀ t ∈ s'.tap, t = ⟨p, r, [], none, true⟩)
      (hopens : ls.countP Label.opens = 2) (hwrites : ls.countP Label.writes = 2)
      (hacks : s'.acks p.msg.stem = some v.ack)
      (hactive : s'.active = putFile (emptied cfg s p r v) (targetOf cfg s p r v) text)
      (hlog : ∀ stem v' file text', .announced stem v' file text' ∈ s'.log ↔
        (stem = p.msg.stem ∧ v' = v ∧ file = targetOf cfg s p r v ∧ text' = text) ∨
          .announced stem v' file text' ∈ s.log)

theorem SameBroadcasts.cons {s₁ s₂ : State} {e : Happened} (h : SameBroadcasts s s₁)
    (hlog : s₂.log = e :: s₁.log) (he : e.announcedStem = none) : SameBroadcasts s s₂ := by
  intro stem v file text
  rw [hlog, List.mem_cons, or_iff_right, h]
  rintro rfl
  exact absurd he (by simp [Happened.announcedStem])

theorem SameBroadcasts.of_log_eq {s₁ : State} (hlog : s₁.log = s.log) : SameBroadcasts s s₁ :=
  fun _ _ _ _ => by rw [hlog]

/-- The tap is cut short, or done. -/
theorem Stage.close {s₁ s₂ : State} (h : Stage cfg s p r v ls s₁) (hopens : l.opens = false)
    (hwrites : l.writes = false) (htap : s₂.tap = none) (hacks : s₂.acks = s₁.acks)
    (hactive : s₂.active = s₁.active) (hlog : s₂.log = s₁.log) :
    Stage cfg s p r v (ls ++ [l]) s₂ := by
  have ho : (ls ++ [l]).countP Label.opens = ls.countP Label.opens := by simp [hopens]
  have hw : (ls ++ [l]).countP Label.writes = ls.countP Label.writes := by simp [hwrites]
  have hsame : SameBroadcasts s s₁ → SameBroadcasts s s₂ := fun h _ _ _ _ => by rw [hlog, h]
  rcases h with ⟨-, h1, h2, h3, h4, h5⟩ | ⟨-, h1, h2, h3, h4, h5⟩ | ⟨-, h1, h2, h3, h4, h5⟩ |
    ⟨-, h1, h2, h3, h4, h5⟩ | ⟨-, h1, h2, h3, h4, h5⟩
  · exact .untouched (by simp [htap]) (ho.trans h1) (hw.trans h2) (hacks.trans h3)
      (hactive.trans h4) (hlog.trans h5)
  · exact .opened (by simp [htap]) (ho.trans h1) (hw.trans h2) (hacks ▸ h3) (hactive.trans h4)
      (hsame h5)
  · exact .acked (by simp [htap]) (ho.trans h1) (hw.trans h2) (hacks ▸ h3) (hactive.trans h4)
      (hsame h5)
  · exact .begun (by simp [htap]) (ho.trans h1) (hw.trans h2) (hacks ▸ h3) (hactive.trans h4)
      (hsame h5)
  · exact .announced (by simp [htap]) (ho.trans h1) (hw.trans h2) (hacks ▸ h3) (hactive.trans h4)
      (hlog ▸ h5)

/-- A file is opened. -/
theorem Stage.opens {s₁ s₂ : State} {micro : ℕ} (h : Stage cfg s p r v ls s₁)
    (hnow : s₁.now = s.now) (hstep : Opens cfg s₁ micro s₂) :
    Stage cfg s p r v (ls ++ [.openFile true micro]) s₂ := by
  have ho : (ls ++ [Label.openFile true micro]).countP Label.opens =
      ls.countP Label.opens + 1 := by
    simp [Label.opens]
  have hw : (ls ++ [Label.openFile true micro]).countP Label.writes = ls.countP Label.writes := by
    simp [Label.writes]
  -- the first file is the answer, the second the decision; each stage admits one of them
  rcases hstep with @⟨q, r', content, todo, clears, ht⟩ | @⟨q, r', w, todo, clears, f, ht, hf⟩
  · rcases h with ⟨h0, h1, h2, h3, h4, h5⟩ | ⟨h0, -⟩ | ⟨h0, -⟩ | ⟨h0, -⟩ | ⟨h0, -⟩
    · obtain ⟨rfl, rfl, hw', -, rfl⟩ := Tap.mk.inj (h0 _ ht)
      obtain ⟨hc, rfl⟩ := List.cons.inj hw'
      obtain rfl := Write.ack.inj hc
      refine .opened ?_ (by rw [ho, h1]) (hw.trans h2) (Function.update_self ..) h4
        ((SameBroadcasts.of_log_eq h5).cons rfl rfl)
      intro t ht'
      obtain rfl := Option.some.inj ht'
      rfl
    · exact absurd (h0 _ ht) (by simp [deciding])
    · exact absurd (h0 _ ht) (by simp)
    · obtain ⟨text, htext⟩ := h0 _ ht
      exact absurd htext (by simp)
    · exact absurd (h0 _ ht) (by simp)
  · rcases h with ⟨h0, -⟩ | ⟨h0, -⟩ | ⟨h0, h1, h2, h3, h4, h5⟩ | ⟨h0, -⟩ | ⟨h0, -⟩
    · obtain ⟨-, -, hw', -, -⟩ := Tap.mk.inj (h0 _ ht)
      obtain ⟨rfl, -⟩ := List.cons.inj hw'
      exact absurd hf (by simp [fileOf])
    · exact absurd (h0 _ ht) (by simp [deciding])
    · obtain ⟨rfl, rfl, hw', -, rfl⟩ := Tap.mk.inj (h0 _ ht)
      obtain ⟨rfl, rfl⟩ := List.cons.inj hw'
      have htarget := stemOf_eq_targetOf hnow hf
      refine .begun ?_ (by rw [ho, h1]) (hw.trans h2) h3 ?_ h5
      · intro t ht'
        obtain rfl := Option.some.inj ht'
        exact ⟨_, by rw [htarget]⟩
      · rw [emptied, ← htarget, ← h4]
    · obtain ⟨text, htext⟩ := h0 _ ht
      exact absurd htext (by simp)
    · exact absurd (h0 _ ht) (by simp)

/-- A file is written. -/
theorem Stage.writes {s₁ s₂ : State} (h : Stage cfg s p r v ls s₁) (hstep : Writes s₁ s₂) :
    Stage cfg s p r v (ls ++ [.writeFile true]) s₂ := by
  have ho : (ls ++ [Label.writeFile true]).countP Label.opens = ls.countP Label.opens := by
    simp [Label.opens]
  have hw : (ls ++ [Label.writeFile true]).countP Label.writes = ls.countP Label.writes + 1 := by
    simp [Label.writes]
  rcases hstep with @⟨q, r', content, todo, stem, text, clears, ht⟩ |
    @⟨q, r', v', todo, stem, text, clears, ht⟩ | @⟨q, r', t, todo, stem, text, clears, ht⟩
  -- a file is written in the stage that opened it
  · rcases h with ⟨h0, -⟩ | ⟨h0, h1, h2, h3, h4, h5⟩ | ⟨h0, -⟩ | ⟨h0, -⟩ | ⟨h0, -⟩
    · exact absurd (h0 _ ht) (by simp [deciding])
    · obtain ⟨rfl, rfl, hw', hfile, rfl⟩ := Tap.mk.inj (h0 _ ht)
      obtain ⟨-, rfl⟩ := List.cons.inj hw'
      obtain ⟨rfl, rfl⟩ := Prod.mk.inj (Option.some.inj hfile)
      refine .acked ?_ (ho.trans h1) (by rw [hw, h2]) (Function.update_self ..) h4 (h5.cons rfl rfl)
      intro t ht'
      obtain rfl := Option.some.inj ht'
      rfl
    · exact absurd (h0 _ ht) (by simp)
    · obtain ⟨text', htext⟩ := h0 _ ht
      exact absurd htext (by simp)
    · exact absurd (h0 _ ht) (by simp)
  · rcases h with ⟨h0, -⟩ | ⟨h0, -⟩ | ⟨h0, -⟩ | ⟨h0, h1, h2, h3, h4, h5⟩ | ⟨h0, -⟩
    · exact absurd (h0 _ ht) (by simp [deciding])
    · exact absurd (h0 _ ht) (by simp [deciding])
    · exact absurd (h0 _ ht) (by simp)
    · obtain ⟨text', htext⟩ := h0 _ ht
      obtain ⟨rfl, rfl, hw', hfile, rfl⟩ := Tap.mk.inj htext
      obtain ⟨hv, rfl⟩ := List.cons.inj hw'
      obtain rfl := Write.broadcast.inj hv
      obtain ⟨rfl, rfl⟩ := Prod.mk.inj (Option.some.inj hfile)
      refine .announced ?_ (ho.trans h1) (by rw [hw, h2]) h3 (by rw [← h4]) fun stem v' file t => ?_
      · intro t ht'
        obtain rfl := Option.some.inj ht'
        rfl
      · rw [List.mem_cons, h5, Happened.announced.injEq]
    · exact absurd (h0 _ ht) (by simp)
  · rcases h with ⟨h0, -⟩ | ⟨h0, -⟩ | ⟨h0, -⟩ | ⟨h0, -⟩ | ⟨h0, -⟩
    · exact absurd (h0 _ ht) (by simp [deciding])
    · exact absurd (h0 _ ht) (by simp [deciding])
    · exact absurd (h0 _ ht) (by simp)
    · obtain ⟨text', htext⟩ := h0 _ ht
      exact absurd htext (by simp)
    · exact absurd (h0 _ ht) (by simp)

/-- **One step of the tap.** -/
theorem Stage.step {s₁ s₂ : State} (h : Stage cfg s p r v ls s₁) (hnow : s₁.now = s.now)
    (hstep : Step cfg s₁ l s₂) (hl : l.ofTap) : Stage cfg s p r v (ls ++ [l]) s₂ := by
  cases hstep with
  | opens hstep => exact h.opens hnow hstep
  | writes hstep => exact h.writes hstep
  | openFails | writeFails | finish => exact h.close rfl rfl rfl rfl rfl rfl
  | _ => exact absurd hl Bool.false_ne_true

/-! ### Recovery -/

/-- What a start leaves alone. -/
theorem Starts.same (h : Starts cfg s overrides readable s') : s'.acks = s.acks ∧
    s'.active = s.active ∧ s'.ledger = s.ledger ∧ s'.legacy = s.legacy ∧ s'.now = s.now ∧
    s'.log = s.log ∧ s'.persisted = (loadState s readable).2 := by
  rcases h with ⟨_⟩ | ⟨_⟩ | ⟨_⟩ <;> exact ⟨rfl, rfl, rfl, rfl, rfl, rfl, rfl⟩

end Bus

end OtamanBridge
