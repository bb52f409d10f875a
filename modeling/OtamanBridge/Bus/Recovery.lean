import OtamanBridge.Bus.Cards
import OtamanBridge.Bus.CrashPoints

/-!
# No card is lost by a restart

What a start establishes, whatever is in the directory, in the state file and among the acks,
and what it means for the runs after it: every message that waits for a decision, that
recovery or a scan has come to, and whose last hand-off did not raise has its card
(`OtamanBridge.Bus.cards_complete`), and a tap on the card resolves it. The exception are the
marked messages of a start that cannot read the state file. It recovers none of them, and the
scans after it, which can, pass over them (`OtamanBridge.Bus.not_cards_complete`).

A state file that cannot be made sense of is loaded as an empty one, and is one here.
-/

namespace OtamanBridge

namespace Bus

open Py

variable {cfg : Config} {s s₀ s₁ s' : State} {l : Label} {ls : List Label} {p : Parsed}
  {stem : Text} {overrides : Value} {readable : Bool}

/-! ### Start -/

/-- The replies that resolve a card. -/
def BusAction.resolves : BusAction → Bool
  | .decide _ => true
  | .acknowledge => true
  | _ => false

/-- They write a `human.ack`, and then other files. -/
theorem writesOf_of_resolves {r : Reply} (h : r.action.resolves) :
    ∃ content rest, writesOf cfg p r = some (.ack content :: rest, true) ∧
      ∀ w ∈ rest, ∀ content, w ≠ .ack content := by
  have hreply : ∀ w ∈ (if r.comment = [] then [] else [Write.reply r.comment]),
      ∀ content, w ≠ .ack content := by
    intro w hw content
    split_ifs at hw
    · exact absurd hw List.not_mem_nil
    · rw [List.mem_singleton.mp hw]
      simp
  unfold writesOf
  rcases ha : r.action with v | _ | _ | _
  · by_cases htype : p.msg.type cfg.py = specChangeRequest
    · exact ⟨_, _, if_pos htype, by simp⟩
    · exact ⟨_, _, if_neg htype, hreply⟩
  · exact ⟨_, _, rfl, hreply⟩
  · exact absurd h (by simp [ha, BusAction.resolves])
  · exact absurd h (by simp [ha, BusAction.resolves])

/-- A message file of a tap is opened. -/
theorem step_openFile {r : Reply} {w : Write} {todo : List Write} {clears : Bool} {f : MessageFile}
    (ht : s.tap = some ⟨p, r, w :: todo, none, clears⟩) (hf : fileOf cfg s 0 p r w = some f) :
    step cfg s (.openFile true 0) = some { s with
      active := putFile s.active (stemOf f.name) []
      tap := some ⟨p, r, w :: todo, some (stemOf f.name, f.text), clears⟩ } := by
  cases w with
  | ack content => exact absurd hf (by simp [fileOf])
  | broadcast v | reply text => simp [step, openStep, ht, hf]

/-- The next file of a tap, if it is no `human.ack`, is opened and written. -/
theorem exists_run_written {r : Reply} {w : Write} {todo : List Write} {clears : Bool}
    (hrun : Lts.Run (Lts.ofStep (step cfg)) s₀ ls s)
    (ht : s.tap = some ⟨p, r, w :: todo, none, clears⟩) (hw : ∀ content, w ≠ .ack content) :
    ∃ s', Lts.Run (Lts.ofStep (step cfg)) s₀ (ls ++ [.openFile true 0] ++ [.writeFile true]) s' ∧
      s'.tap = some ⟨p, r, todo, none, clears⟩ ∧ s'.acks = s.acks ∧ s'.pending = s.pending := by
  obtain ⟨f, hf⟩ : ∃ f, fileOf cfg s 0 p r w = some f := by
    cases w with
    | ack content => exact absurd rfl (hw content)
    | broadcast v | reply text => exact ⟨_, rfl⟩
  have hopen := hrun.snoc (step_openFile ht hf)
  cases w with
  | ack content => exact absurd rfl (hw content)
  | broadcast v | reply text => exact ⟨_, hopen.snoc rfl, rfl, rfl, rfl⟩

/-- And so are all the files after it. -/
theorem exists_run_all_written {r : Reply} {todo : List Write} {clears : Bool}
    (hrun : Lts.Run (Lts.ofStep (step cfg)) s₀ ls s)
    (ht : s.tap = some ⟨p, r, todo, none, clears⟩)
    (htodo : ∀ w ∈ todo, ∀ content, w ≠ .ack content) :
    ∃ ls' s', Lts.Run (Lts.ofStep (step cfg)) s₀ (ls ++ ls') s' ∧ (∀ l ∈ ls', l.ofTap) ∧
      s'.tap = some ⟨p, r, [], none, clears⟩ ∧ s'.acks = s.acks ∧ s'.pending = s.pending := by
  induction todo generalizing ls s with
  | nil => exact ⟨[], s, by simpa using hrun, by simp, ht, rfl, rfl⟩
  | cons w todo ih =>
    obtain ⟨a, ha, hta, hacks, hpending⟩ :=
      exists_run_written hrun ht (htodo w List.mem_cons_self)
    obtain ⟨ls', s', hs', hls', hts', hacks', hpending'⟩ :=
      ih ha hta fun w hw => htodo w (List.mem_cons_of_mem _ hw)
    refine ⟨[.openFile true 0] ++ [.writeFile true] ++ ls', s', by simpa using hs', ?_, hts',
      hacks'.trans hacks, hpending'.trans hpending⟩
    simpa [Label.ofTap] using hls'

/-- **A tap resolves the card**: its dispatch can go on to its end, and then there is a
`human.ack`, and no card. -/
def Resolves (cfg : Config) (s : State) (stem : Text) (r : Reply) : Prop :=
  ∃ ls s', Lts.Run (Lts.ofStep (step cfg)) s (.tap r :: ls) s' ∧ (∀ l ∈ ls, l.ofTap) ∧
    s'.tap = none ∧ s'.acks stem ≠ none ∧ s'.pending stem = none

/-- A card in the table is resolved by a tap on it. -/
theorem Accounted.resolves {lost : Set Text} (hI : Accounted cfg lost s)
    (hp : s.pending stem = some p) {r : Reply} (hr : r.requestId = stem)
    (haction : r.action.resolves) (htap : s.tap = none) (hawaits : s.phase.awaits) :
    Resolves cfg s stem r := by
  subst hr
  have hstem : p.msg.stem = r.requestId := hI.key _ p hp
  obtain ⟨content, rest, hwrites, hrest⟩ : ∃ content rest,
      writesOf cfg p r = some (.ack content :: rest, true) ∧
        ∀ w ∈ rest, ∀ content, w ≠ .ack content := writesOf_of_resolves haction
  -- the tap is taken, `human.ack` opened and written, the other files after it, and the card goes
  have htaken : Bus.step cfg s (.tap r) =
      some { s with tap := some ⟨p, r, .ack content :: rest, none, true⟩ } := by
    simp [Bus.step, tapStep, hI.up, htap, hawaits, hp, hwrites]
  have hnil : Lts.Run (Lts.ofStep (Bus.step cfg)) s [] s := .nil
  have hopened := (hnil.snoc htaken).snoc (l := Label.openFile true 0) rfl
  have hwritten := hopened.snoc (l := Label.writeFile true) rfl
  obtain ⟨ls, a, ha, hls, hta, hacks, hpending⟩ := exists_run_all_written hwritten rfl hrest
  have hfinish : Bus.step cfg a .finish = some { a with
      tap := none, pending := Function.update a.pending r.requestId none } := by
    simp [Bus.step, finishStep, hta]
  refine ⟨_, _, by simpa using ha.snoc hfinish, ?_, rfl, ?_, Function.update_self ..⟩
  · simpa [Label.ofTap, or_imp, forall_and] using hls
  · dsimp only
    rw [hacks, hstem]
    simp

end Bus

end OtamanBridge
