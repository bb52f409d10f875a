import OtamanBridge.Bus.Provenance

/-!
# A decision is final

What makes a decision final is spread over the bridge: a card that is decided leaves the
pending table, a card that is recovered has no `human.ack`, and a message that is marked is
not offered again. None of the three looks at what was decided, so a message that is
offered once more can be decided once more, and a tap on a card writes the `human.ack` over
whatever is there. Without these two the decisions are final
(`OtamanBridge.Bus.decided_final`): a card in the table that was decided is the one whose
tap is just being finished (`OtamanBridge.Bus.Settled`).
-/

namespace OtamanBridge

namespace Bus

open Py

variable {cfg : Config} {s s₀ s' : State} {l : Label} {ls : List Label} {p : Parsed} {stem : Text}
  {t : Tap}

/-! ### Decisions -/

/-- The stem of the message a decision is announced for. -/
def Happened.announcedStem : Happened → Option Text
  | .announced stem _ _ _ => some stem
  | _ => none

/-- The stems of the messages that were decided, as often as a decision was announced. -/
def State.announced (s : State) : List Text := s.log.filterMap Happened.announcedStem

/-- What is written over does not say anything else: there is nothing, it is empty, or it
says the same. -/
def Agrees (before : Option Text) (content : Text) : Prop :=
  ∀ old ∈ before, old = [] ∨ old = content

instance (before : Option Text) (content : Text) : Decidable (Agrees before content) :=
  inferInstanceAs (Decidable (∀ old ∈ before, old = [] ∨ old = content))

/-- **Decisions are final**: no message has two decisions, and no `human.ack` was written
over by another one. -/
structure Final (s : State) : Prop where
  once : s.announced.Nodup
  kept : ∀ stem before content, .acked stem before content ∈ s.log → Agrees before content

/-! ### The condition -/

/-- **No decision is asked for twice, and no two disagree.** The loop does not come to a
request that was decided and is not marked, as after a crash before the state was saved, or
a failed hand-off; and a tap does not find a `human.ack` that says something else, whether
from an earlier tap that failed halfway or from another process, nor does another process
write one while the tap is dispatched. -/
def Undisputed (cfg : Config) (s : State) : Label → Prop
  | .turn => ∀ scan p todo, s.phase = .looping scan (p :: todo) → p.msg.stem ∉ scan.state →
      p.msg.type cfg.py = specChangeRequest →
      (decide cfg.py p.msg scan.overrides).interactive → p.msg.stem ∉ s.announced
  | .tap r => ∀ p todo clears, s.pending r.requestId = some p →
      writesOf cfg p r = some (todo, clears) →
      ∀ content, .ack content ∈ todo → Agrees (s.acks p.msg.stem) content
  | .cliAck stem content => ∀ t ∈ s.tap, t.card.msg.stem = stem →
      ∀ mine, .ack mine ∈ t.todo → Agrees (some content) mine
  | _ => True

/-! ### What a tap has still to write -/

/-- A tap on the way: what is left of its files, what became of the `human.ack`, and that
its message was not decided yet. -/
structure Underway (cfg : Config) (s : State) (t : Tap) : Prop where
  key : t.reply.requestId = t.card.msg.stem
  rest : ∃ all, writesOf cfg t.card t.reply = some (all, t.clears) ∧ t.todo <:+ all
  opened : ∀ content todo, t.todo = .ack content :: todo →
    ∀ f ∈ t.opened, f = (t.card.msg.stem, content)
  agrees : ∀ content, .ack content ∈ t.todo → Agrees (s.acks t.card.msg.stem) content
  acked : ∀ v, t.todo = [.broadcast v] → s.acks t.card.msg.stem ≠ none
  undecided : ∀ v, .broadcast v ∈ t.todo → t.card.msg.stem ∉ s.announced

/-- A card in the table was not decided, unless its tap has written everything. -/
def Open (cfg : Config) (s : State) (stem : Text) (p : Parsed) : Prop :=
  p.msg.type cfg.py = specChangeRequest → stem ∈ s.announced →
    ∃ t ∈ s.tap, t.todo = [] ∧ t.clears ∧ t.reply.requestId = stem

/-- **The invariant**: the cards in the table are open, what was announced has a
`human.ack`, and the tap on the way agrees with it. -/
structure Settled (cfg : Config) (s : State) : Prop where
  final : Final s
  key : ∀ stem p, s.pending stem = some p → p.msg.stem = stem
  cards : ∀ stem p, s.pending stem = some p → Open cfg s stem p
  acked : ∀ stem ∈ s.announced, s.acks stem ≠ none
  tap : ∀ t ∈ s.tap, Underway cfg s t

/-- What a tap writes: a reply, an acknowledgement, or a decision. -/
theorem writesOf_cases {r : Reply} {all : List Write} {clears : Bool}
    (h : writesOf cfg p r = some (all, clears)) :
    (∃ text, all = [.reply text]) ∨
      (∃ rest, all = .ack (lit "acknowledged\n") :: rest ∧ ∀ w ∈ rest, ∃ text, w = .reply text) ∨
      ∃ v, all = [.ack v.ack, .broadcast v] ∧ clears ∧ p.msg.type cfg.py = specChangeRequest := by
  have hrest : ∀ w ∈ if r.comment = [] then [] else [Write.reply r.comment],
      ∃ text, w = .reply text := by
    intro w hw
    split_ifs at hw
    · exact absurd hw (by simp)
    · exact ⟨_, List.mem_singleton.mp hw⟩
  simp only [writesOf] at h
  rcases ha : r.action with v | _ | _ | _
  · rw [ha] at h
    by_cases htype : p.msg.type cfg.py = specChangeRequest
    · obtain ⟨rfl, rfl⟩ := Prod.mk.inj (Option.some.inj ((if_pos htype).symm.trans h))
      exact .inr (.inr ⟨v, rfl, rfl, htype⟩)
    · obtain ⟨rfl, rfl⟩ := Prod.mk.inj (Option.some.inj ((if_neg htype).symm.trans h))
      exact .inr (.inl ⟨_, rfl, hrest⟩)
  · rw [ha] at h
    obtain ⟨rfl, rfl⟩ := Prod.mk.inj (Option.some.inj h)
    exact .inr (.inl ⟨_, rfl, hrest⟩)
  · rw [ha] at h
    by_cases hempty : strip r.comment = []
    · exact absurd ((if_pos hempty).symm.trans h) (by simp)
    · obtain ⟨rfl, rfl⟩ := Prod.mk.inj (Option.some.inj ((if_neg hempty).symm.trans h))
      exact .inl ⟨_, rfl⟩
  · rw [ha] at h
    exact absurd h (by simp)

/-- What a tap writes that announces a decision. -/
theorem writesOf_broadcast {r : Reply} {all : List Write} {clears : Bool} {v : Verdict}
    (h : writesOf cfg p r = some (all, clears)) (hv : .broadcast v ∈ all) :
    all = [.ack v.ack, .broadcast v] ∧ clears ∧ p.msg.type cfg.py = specChangeRequest := by
  rcases writesOf_cases h with ⟨text, rfl⟩ | ⟨rest, rfl, hrest⟩ | ⟨v', rfl, hclears, htype⟩
  · exact absurd hv (by simp)
  · obtain ⟨text, htext⟩ := hrest _ (by simpa using hv)
    exact absurd htext (by simp)
  · obtain rfl : v = v' := by simpa using hv
    exact ⟨rfl, hclears, htype⟩

/-- A `human.ack` comes first. -/
theorem writesOf_ack {r : Reply} {w : Write} {todo all : List Write} {clears : Bool}
    {content : Text} (h : writesOf cfg p r = some (all, clears)) (hall : w :: todo <:+ all) :
    .ack content ∉ todo := by
  have htail : todo <:+ all.tail := by
    obtain ⟨pre, rfl⟩ := hall
    cases pre with
    | nil => exact List.suffix_refl _
    | cons a pre => exact ⟨pre ++ [w], by simp⟩
  intro hin
  have hin := htail.subset hin
  rcases writesOf_cases h with ⟨text, rfl⟩ | ⟨rest, rfl, hrest⟩ | ⟨v', rfl, -, -⟩
  · exact absurd hin (by simp)
  · obtain ⟨text, htext⟩ := hrest _ hin
    exact absurd htext (by simp)
  · exact absurd hin (by simp)

/-! ### Steps that decide nothing -/

/-- An event that is about decisions. -/
def Happened.decides : Happened → Bool
  | .acked .. => true
  | .announced .. => true
  | _ => false

/-- The log has no more decisions than before. -/
def Undecided (s s' : State) : Prop :=
  s'.log = s.log ∨ ∃ e : Happened, e.decides = false ∧ s'.log = e :: s.log

theorem Undecided.announced (h : Undecided s s') : s'.announced = s.announced := by
  unfold State.announced
  rcases h with h | ⟨e, he, h⟩
  · rw [h]
  · rw [h]
    cases e with
    | acked | announced => exact absurd he.symm Bool.false_ne_true
    | _ => rfl

theorem Undecided.final (h : Undecided s s') (hI : Final s) : Final s' := by
  refine ⟨h.announced ▸ hI.once, fun stem before content hin => ?_⟩
  rcases h with h | ⟨e, he, h⟩
  · exact hI.kept stem before content (h ▸ hin)
  · rw [h] at hin
    rcases List.mem_cons.mp hin with rfl | hin
    · exact absurd he.symm Bool.false_ne_true
    · exact hI.kept stem before content hin

theorem Underway.of_eq (h : Underway cfg s t)
    (hacks : s'.acks t.card.msg.stem = s.acks t.card.msg.stem)
    (hann : s'.announced = s.announced) : Underway cfg s' t where
  key := h.key
  rest := h.rest
  opened := h.opened
  agrees := hacks ▸ h.agrees
  acked := hacks ▸ h.acked
  undecided := hann ▸ h.undecided

/-- Steps of the watcher: a card is added to the table, or taken from it. -/
theorem Settled.frame (hI : Settled cfg s) (hlog : Undecided s s') (hacks : s'.acks = s.acks)
    (htap : s'.tap = s.tap)
    (hpending : ∀ stem p, s'.pending stem = some p →
      s.pending stem = some p ∨ p.msg.stem = stem ∧ Open cfg s stem p) : Settled cfg s' := by
  have hann := hlog.announced
  refine ⟨hlog.final hI.final, fun stem p hp => ?_, fun stem p hp => ?_, ?_, fun t ht => ?_⟩
  · exact (hpending stem p hp).elim (hI.key stem p) And.left
  · have hopen := (hpending stem p hp).elim (hI.cards stem p) And.right
    unfold Open
    rwa [hann, htap]
  · rw [hann, hacks]
    exact hI.acked
  · exact (hI.tap t (htap ▸ ht)).of_eq (congrFun hacks _) hann

/-- A card in the table was not decided while a tap has more to write, or none is there. -/
theorem Settled.not_announced (hI : Settled cfg s) (hp : s.pending stem = some p)
    (htype : p.msg.type cfg.py = specChangeRequest)
    (htap : ∀ t ∈ s.tap, t.todo = [] → t.clears → t.reply.requestId ≠ stem) :
    stem ∉ s.announced := by
  intro hin
  obtain ⟨t, ht, htodo, hclears, hkey⟩ := hI.cards stem p hp htype hin
  exact htap t ht htodo hclears hkey

/-- The tap ends. -/
theorem Settled.drop (hI : Settled cfg s) (hlog : s'.log = s.log) (hacks : s'.acks = s.acks)
    (htap : s'.tap = none)
    (hpending : ∀ stem p, s'.pending stem = some p → s.pending stem = some p ∧
      ∀ t ∈ s.tap, t.todo = [] → t.clears → t.reply.requestId ≠ stem) : Settled cfg s' := by
  have hlog : Undecided s s' := .inl hlog
  have hann := hlog.announced
  refine ⟨hlog.final hI.final, fun stem p hp => hI.key stem p (hpending stem p hp).1,
    fun stem p hp htype hin => ?_, ?_, fun t ht => absurd ht (by simp [htap])⟩
  · obtain ⟨hp, hnot⟩ := hpending stem p hp
    exact absurd (hann ▸ hin) (hI.not_announced hp htype hnot)
  · rw [hann, hacks]
    exact hI.acked

/-! ### Start -/

/-- A card that is recovered is that of a marked message, and has no `human.ack`. -/
theorem of_recoverPendings {surfaced : Surfaced} {overrides : Value} {ps : List Parsed}
    (h : recoverPendings cfg s surfaced overrides ps stem = some p) :
    p ∈ ps ∧ p.msg.stem = stem ∧ stem ∈ surfaced ∧ s.acks stem = none ∧
      (decide cfg.py p.msg overrides).interactive := by
  induction ps with
  | nil => exact absurd h (by simp [recoverPendings])
  | cons q ps ih =>
    simp only [recoverPendings] at h
    split_ifs at h with hq
    · by_cases hstem : stem = q.msg.stem
      · subst hstem
        rw [Function.update_self] at h
        obtain rfl := Option.some.inj h
        exact ⟨List.mem_cons_self, rfl, hq⟩
      · rw [Function.update_of_ne hstem] at h
        exact ⟨List.mem_cons_of_mem _ (ih h).1, (ih h).2⟩
    · exact ⟨List.mem_cons_of_mem _ (ih h).1, (ih h).2⟩

/-! ### Taps -/

/-- A tap is taken. -/
theorem Settled.taken (hI : Settled cfg s) {r : Reply} {todo : List Write} {clears : Bool}
    (htap : s.tap = none) (hp : s.pending r.requestId = some p)
    (hw : writesOf cfg p r = some (todo, clears))
    (hC : ∀ content, .ack content ∈ todo → Agrees (s.acks p.msg.stem) content) :
    Settled cfg { s with tap := some ⟨p, r, todo, none, clears⟩ } := by
  have hkey := hI.key _ p hp
  have hnot : p.msg.type cfg.py = specChangeRequest → r.requestId ∉ s.announced := fun htype =>
    hI.not_announced hp htype (by simp [htap])
  refine ⟨⟨hI.final.once, hI.final.kept⟩, hI.key, fun stem q hq htype hin => ?_, hI.acked, ?_⟩
  · exact absurd hin (hI.not_announced hq htype (by simp [htap]))
  · intro t ht
    obtain rfl := Option.some.inj ht
    refine ⟨hkey.symm, ⟨todo, hw, List.suffix_refl _⟩, by simp, hC, fun v hv => ?_, fun v hv => ?_⟩
    · have hv : todo = [.broadcast v] := hv
      have hall := (writesOf_broadcast hw (hv ▸ List.mem_singleton_self _)).1
      exact absurd (hv.symm.trans hall) (by simp)
    · have htype := (writesOf_broadcast hw hv).2.2
      exact hkey ▸ hnot htype

/-- While a tap has something to write, no card in the table was decided. -/
theorem Settled.cards_of_write (hI : Settled cfg s) {w : Write} {todo : List Write}
    (ht : s.tap = some t) (htodo : t.todo = w :: todo) (hp : s.pending stem = some p)
    (htype : p.msg.type cfg.py = specChangeRequest) : stem ∉ s.announced := by
  refine hI.not_announced hp htype fun t' ht' hnil => ?_
  obtain rfl := Option.some.inj (ht.symm.trans ht')
  exact absurd (htodo.symm.trans hnil) (by simp)

/-- A tap opens a file. -/
theorem Settled.opens (hI : Settled cfg s) {micro : ℕ} (h : Opens cfg s micro s') :
    Settled cfg s' := by
  rcases h with @⟨p, r, content, todo, clears, ht⟩ | @⟨p, r, w, todo, clears, f, ht, hf⟩
  · have hway := hI.tap _ ht
    refine ⟨⟨hI.final.once, fun stem before c hin => ?_⟩, hI.key, fun stem q hq htype hin => ?_,
      fun stem hin => ?_, fun t ht' => ?_⟩
    · rcases List.mem_cons.mp hin with hin | hin
      · obtain ⟨rfl, rfl, rfl⟩ := Happened.acked.inj hin
        exact hway.agrees _ List.mem_cons_self
      · exact hI.final.kept stem before c hin
    · exact absurd hin (hI.cards_of_write ht rfl hq htype)
    · by_cases hstem : stem = p.msg.stem
      · simp [hstem]
      · simpa [Function.update_of_ne hstem] using hI.acked stem hin
    · obtain rfl := Option.some.inj ht'
      refine ⟨hway.key, hway.rest, fun c todo' htodo => ?_, fun c _ => ?_, by simp, hway.undecided⟩
      · obtain ⟨hc, -⟩ := List.cons.inj htodo
        simp [Write.ack.inj hc]
      · simp [Agrees]
  · have hway := hI.tap _ ht
    refine ⟨⟨hI.final.once, hI.final.kept⟩, hI.key, fun stem q hq htype hin => ?_, hI.acked,
      fun t ht' => ?_⟩
    · exact absurd hin (hI.cards_of_write ht rfl hq htype)
    · obtain rfl := Option.some.inj ht'
      refine ⟨hway.key, hway.rest, fun c todo' htodo => ?_, hway.agrees, hway.acked, hway.undecided⟩
      obtain ⟨rfl, -⟩ := List.cons.inj htodo
      exact absurd hf (by simp [fileOf])

/-- A tap writes a file. -/
theorem Settled.writes (hI : Settled cfg s) (h : Writes s s') : Settled cfg s' := by
  rcases h with @⟨p, r, content, todo, stem, text, clears, ht⟩ |
    @⟨p, r, v, todo, stem, text, clears, ht⟩ | @⟨p, r, t, todo, stem, text, clears, ht⟩
  · have hway := hI.tap _ ht
    obtain ⟨all, hall, hrest⟩ := hway.rest
    have hopened : stem = p.msg.stem ∧ text = content :=
      Prod.mk.inj (hway.opened content todo rfl _ rfl)
    obtain ⟨rfl, rfl⟩ := hopened
    refine ⟨⟨hI.final.once, fun stem before c hin => ?_⟩, hI.key, fun stem q hq htype hin => ?_,
      fun stem hin => ?_, fun t ht' => ?_⟩
    · rcases List.mem_cons.mp hin with hin | hin
      · obtain ⟨rfl, rfl, rfl⟩ := Happened.acked.inj hin
        exact hway.agrees _ List.mem_cons_self
      · exact hI.final.kept stem before c hin
    · exact absurd hin (hI.cards_of_write ht rfl hq htype)
    · by_cases hstem : stem = p.msg.stem
      · simp [hstem]
      · simpa [Function.update_of_ne hstem] using hI.acked stem hin
    · obtain rfl := Option.some.inj ht'
      refine ⟨hway.key, ⟨all, hall, (List.suffix_cons ..).trans hrest⟩, by simp, fun c hc => ?_,
        by simp, fun v hv => hway.undecided v (List.mem_cons_of_mem _ hv)⟩
      exact absurd hc (writesOf_ack hall hrest)
  · have hway := hI.tap _ ht
    obtain ⟨all, hall, hrest⟩ := hway.rest
    obtain ⟨hshape, hclears, htype⟩ := writesOf_broadcast hall (hrest.subset List.mem_cons_self)
    -- the decision is the last thing to be written
    obtain rfl : todo = [] := by
      rw [hshape] at hrest
      rcases List.suffix_cons_iff.mp hrest with h | h
      · exact absurd (List.cons.inj h).1 (by simp)
      · rcases List.suffix_cons_iff.mp h with h | h
        · exact (List.cons.inj h).2
        · exact absurd (List.suffix_nil.mp h) (by simp)
    have hnew : p.msg.stem ∉ s.announced := hway.undecided v List.mem_cons_self
    refine ⟨⟨List.nodup_cons.mpr ⟨hnew, hI.final.once⟩, fun stem before c hin => ?_⟩, hI.key,
      fun stem q hq hscr hin => ?_, fun stem hin => ?_, fun t ht' => ?_⟩
    · exact hI.final.kept stem before c (by simpa using hin)
    · rcases List.mem_cons.mp hin with rfl | hin
      · exact ⟨_, rfl, rfl, hclears, hway.key⟩
      · exact absurd hin (hI.cards_of_write ht rfl hq hscr)
    · rcases List.mem_cons.mp hin with rfl | hin
      · exact hway.acked v rfl
      · exact hI.acked stem hin
    · obtain rfl := Option.some.inj ht'
      exact ⟨hway.key, ⟨all, hall, (List.suffix_cons ..).trans hrest⟩, by simp, by simp, by simp,
        by simp⟩
  · have hway := hI.tap _ ht
    obtain ⟨all, hall, hrest⟩ := hway.rest
    refine ⟨⟨hI.final.once, hI.final.kept⟩, hI.key, fun stem q hq htype hin => ?_, hI.acked,
      fun t ht' => ?_⟩
    · exact absurd hin (hI.cards_of_write ht rfl hq htype)
    · obtain rfl := Option.some.inj ht'
      refine ⟨hway.key, ⟨all, hall, (List.suffix_cons ..).trans hrest⟩, by simp,
        fun c hc => hway.agrees c (List.mem_cons_of_mem _ hc), fun v hv => ?_,
        fun v hv => hway.undecided v (List.mem_cons_of_mem _ hv)⟩
      have hv : todo = [.broadcast v] := hv
      subst hv
      have hin : .broadcast v ∈ all := hrest.subset (List.mem_cons_of_mem _ List.mem_cons_self)
      have hshape := (writesOf_broadcast hall hin).1
      exact absurd (hrest.subset List.mem_cons_self) (by simp [hshape])

/-! ### Runs -/

/-- **One step.** -/
theorem Settled.step (hI : Settled cfg s) (h : Step cfg s l s') (hC : Undisputed cfg s l) :
    Settled cfg s' := by
  cases h with
  | start hup h =>
    rcases h with ⟨_⟩ | ⟨_⟩ | ⟨hread⟩
    · exact hI.frame (.inl rfl) rfl rfl fun _ _ h => .inl h
    · exact hI.frame (.inl rfl) rfl rfl fun _ _ h => .inl h
    · refine hI.frame (.inl rfl) rfl rfl fun stem p hp => .inr ?_
      obtain ⟨-, hkey, -, hack, -⟩ := of_recoverPendings hp
      exact ⟨hkey, fun _ hin => absurd hack (hI.acked stem hin)⟩
  | @turn scan p todo s' htap hp h =>
    rcases h with ⟨_⟩ | ⟨_⟩ | ⟨_⟩ | ⟨hin, hgate, hsurface⟩ | ⟨_⟩
    case offers =>
      -- the card of the message is the only one that is new
      refine hI.frame (.inr ⟨_, rfl, rfl⟩) rfl rfl fun stem q hq => ?_
      dsimp only at hq
      split_ifs at hq with hinteractive
      · by_cases hstem : stem = p.msg.stem
        · subst hstem
          rw [Function.update_self] at hq
          obtain rfl := Option.some.inj hq
          exact .inr ⟨rfl, fun htype hann => absurd hann (hC _ _ _ hp hin htype hinteractive)⟩
        · rw [Function.update_of_ne hstem] at hq
          exact .inl hq
      · exact .inl hq
    all_goals exact hI.frame (.inl rfl) rfl rfl fun _ _ h => .inl h
  | @handFails scan p interactive todo htap hp =>
    refine hI.frame (.inl rfl) rfl rfl fun stem q hq => ?_
    dsimp only at hq
    split_ifs at hq
    · by_cases hstem : stem = p.msg.stem
      · subst hstem
        rw [Function.update_self] at hq
        exact absurd hq (by simp)
      · rw [Function.update_of_ne hstem] at hq
        exact .inl hq
    · exact .inl hq
  | handed | fired | quarantine =>
    exact hI.frame (.inr ⟨_, rfl, rfl⟩) rfl rfl fun _ _ h => .inl h
  | crash => exact hI.drop rfl rfl rfl (by simp)
  | openFails ht | writeFails ht =>
    refine hI.drop rfl rfl rfl fun stem p hp => ⟨hp, fun t ht' hnil => ?_⟩
    obtain rfl := Option.some.inj (ht.symm.trans ht')
    exact absurd hnil (by simp)
  | @finish p r clears ht =>
    refine hI.drop rfl rfl rfl fun stem q hq => ?_
    dsimp only at hq
    cases hclears : clears with
    | false =>
      rw [hclears] at hq
      refine ⟨hq, fun t ht' _ hc => ?_⟩
      obtain rfl := Option.some.inj (ht.symm.trans ht')
      exact absurd (hclears.symm.trans hc) Bool.false_ne_true
    | true =>
      rw [hclears, if_pos rfl] at hq
      -- the tap is at its end and takes its card away
      by_cases hstem : stem = r.requestId
      · rw [hstem, Function.update_self] at hq
        exact absurd hq (by simp)
      · rw [Function.update_of_ne hstem] at hq
        refine ⟨hq, fun t ht' _ _ hkey => ?_⟩
        obtain rfl := Option.some.inj (ht.symm.trans ht')
        exact hstem hkey.symm
  | @cliAck stem content =>
    refine ⟨⟨hI.final.once, hI.final.kept⟩, hI.key, hI.cards, fun stem' hin => ?_, fun t ht => ?_⟩
    · by_cases hstem : stem' = stem
      · simp [hstem]
      · simpa [Function.update_of_ne hstem] using hI.acked stem' hin
    · -- an answer from the command line counts for a tap that is on its way
      have hway := hI.tap t ht
      by_cases hstem : t.card.msg.stem = stem
      · have hacks : Function.update s.acks stem (some content) t.card.msg.stem = some content := by
          rw [hstem, Function.update_self]
        refine ⟨hway.key, hway.rest, hway.opened, fun mine hmine => ?_, fun v _ => ?_,
          hway.undecided⟩
        · change Agrees (Function.update s.acks stem (some content) t.card.msg.stem) mine
          rw [hacks]
          exact hC t ht hstem mine hmine
        · simp [hacks]
      · exact hway.of_eq (Function.update_of_ne hstem ..) rfl
  | tapTaken hup htap hawait hp hw => exact hI.taken htap hp hw (hC _ _ _ hp hw)
  | opens h => exact hI.opens h
  | writes h => exact hI.writes h
  | _ => exact hI.frame (.inl rfl) rfl rfl fun _ _ h => .inl h

theorem Settled.of_initial (h0 : Initial s) : Settled cfg s where
  final := ⟨by simp [State.announced, h0.log], by simp [h0.log]⟩
  key stem p hp := absurd hp (by simp [h0.pending])
  cards stem p hp := absurd hp (by simp [h0.pending])
  acked stem hin := absurd hin (by simp [State.announced, h0.log])
  tap t ht := absurd ht (by simp [h0.tap])

/-- **Undisputed decisions are final**: in every run in which no request is offered again
after its decision and no two decisions disagree, the bridge announces one decision for a
message at most, and writes no `human.ack` over one that says something else. -/
theorem decided_final (cfg : Config) {s₀ s : State} {ls : List Label} (h0 : Initial s₀)
    (h : Lts.Run (Lts.Under (Undisputed cfg) (Lts.ofStep (step cfg))) s₀ ls s) : Final s :=
  (Lts.Run.inv_state (Settled.of_initial h0)
    (fun _ _ _ hI hR => hI.step (.of_step hR.2) hR.1) h).final

/-! ### A decision that is disputed -/

/-- A test that implies the condition. -/
def undisputed (cfg : Config) (s : State) : Label → Bool
  | .turn => match s.phase with
    | .looping scan (p :: _) => p.msg.stem ∈ scan.state || p.msg.type cfg.py ≠ specChangeRequest ||
        p.msg.stem ∉ s.announced
    | _ => true
  | .tap r => match s.pending r.requestId with
    | none => true
    | some p => s.acks p.msg.stem = none
  | .cliAck .. => s.tap.isNone
  | _ => true

theorem undisputed_of_check (s : State) (l : Label) (h : undisputed cfg s l) :
    Undisputed cfg s l := by
  cases l with
  | turn =>
    rintro scan p todo hp hin htype -
    rw [undisputed, hp] at h
    simpa [hin, htype] using h
  | tap r =>
    rintro p todo clears hp - content - old hold
    rw [undisputed, hp] at h
    exact absurd hold (by simp [of_decide_eq_true h])
  | cliAck stem content =>
    intro t ht
    rw [undisputed, Option.isNone_iff_eq_none] at h
    exact absurd ht (by simp [h])
  | _ => exact trivial

/-- An approval is final, also when the message is rejected afterwards. -/
theorem decided_final_approval : ∃ s, Lts.Run (Lts.Under (Undisputed plainConfig)
      (Lts.ofStep (step plainConfig))) requestState
      (surfaced ++ taps .approved ++ [.tap ⟨lit "req", .decide .rejected, lit "ada", []⟩]) s ∧
    lit "req" ∈ s.announced ∧ Final s := by
  obtain ⟨s, hrun, hs⟩ := Lts.exists_under_run_of_exec (step plainConfig) (undisputed plainConfig)
    undisputed_of_check requestState
    (surfaced ++ taps .approved ++ [.tap ⟨lit "req", .decide .rejected, lit "ada", []⟩])
    (fun s => lit "req" ∈ s.announced) (by decide +kernel)
  exact ⟨s, hrun, of_decide_eq_true hs, decided_final plainConfig initial_requestState hrun⟩

/-- The steps after which the request is offered again: its approval is quarantined on the
way. -/
def offeredAgain : List Label :=
  [.crash, .start .none true] ++ rescanned ++ [.quarantine, .alerted, .turn]

/-- **A request that was approved is rejected**: the bridge dies before the state is saved,
and offers the request once more. -/
theorem not_decided_final : ¬∀ (cfg : Config) (s₀ s : State) (ls : List Label), Initial s₀ →
    Lts.Run (Lts.ofStep (step cfg)) s₀ ls s → Final s := by
  intro h
  obtain ⟨s, hrun, hs⟩ := Lts.exists_run_of_exec (step plainConfig) requestState
    (scanned ++ [.turn] ++ taps .approved ++ offeredAgain ++ taps .rejected)
    (fun s => s.announced = [lit "req", lit "req"]) (by decide +kernel)
  have honce := (h plainConfig _ s _ initial_requestState hrun).once
  rw [of_decide_eq_true hs] at honce
  exact absurd honce (by simp)

end Bus

end OtamanBridge
