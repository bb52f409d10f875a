import OtamanBridge.Http.Endpoint

/-!
# The endpoint file names the daemon that serves

`start()` looks at the file once, and at the port that is there, and takes it from then on that
nobody else serves; `stop()` unlinks the file whosever it is. In a run in which a daemon gets past
the check of `start()` only while no other one is past it, or serves, and in which `stop()` comes
to unlink the file while nobody's is there, nobody touches the file of a daemon that serves, and it
names that daemon (`OtamanBridge.Endpoint.agrees`). A restart that overlaps with the end of
`stop()` is enough to lose the file of a daemon that serves (`OtamanBridge.Endpoint.not_agrees`).
-/

namespace OtamanBridge

namespace Endpoint

open Py

/-! ### What the file is to say -/

/-- The server answers. -/
def Phase.serves : Phase → Bool
  | .serving _ _ => true
  | _ => false

/-- `start()` has found no daemon that serves, and has not ended since. -/
def Phase.replaces : Phase → Bool
  | .unlinking | .binding | .opening _ | .writing _ | .written _ => true
  | _ => false

/-- The daemon is past the check of `start()`, and its server is not closed. -/
def Phase.past (phase : Phase) : Bool := phase.replaces || phase.serves

/-- The port that the file names, if nobody else touched it. -/
def Phase.names : Phase → Option ℕ
  | .written port | .serving port _ => some port
  | _ => none

/-- The file at the path is this daemon's, if nobody else touched it: it has opened it to write. -/
def Phase.holds : Phase → Bool
  | .writing _ | .written _ | .serving _ _ => true
  | _ => false

variable {D K : Type}

/-- **The file of the one daemon that serves**, and whose `start()` has returned, names its
port and its token. -/
def Agrees (token : D → Text) (s : State D K) : Prop :=
  ∀ p port, s.phase p = .serving port true → (∀ q, (s.phase q).serves → q = p) →
    s.file = some (.descriptor port (token p))

/-- The daemon that takes the step. -/
def actor (s : State D K) : Label D K → Option D
  | .read p | .probe p _ | .unlink p | .bind p _ | .openFile p _ | .writeFile p _ | .serve p
  | .finish p | .stop _ p | .crash p => some p
  | .flag k | .close k | .remove k => (s.stops k).map Prod.fst

/-- The step neither removes nor replaces the file of another daemon that serves. -/
def Undisturbed (token : D → Text) (s : State D K) (l : Label D K) (s' : State D K) : Prop :=
  ∀ p port returned, s.phase p = .serving port returned → actor s l ≠ some p →
    s.file = some (.descriptor port (token p)) → s'.file = s.file

/-- **One at a time**: a daemon gets past the check of `start()`, by what it has read or because
nobody answers at the port, while no other one is past it; and `stop()` unlinks the file while
nobody has opened it to write and goes on to serve, or serves. -/
def Orderly (s : State D K) : Label D K → Prop
  | .read _ => (readPhase s.file).replaces → ∀ q, (s.phase q).past = false
  | .probe _ live => live = false → ∀ q, (s.phase q).past = false
  | .remove _ => ∀ q, (s.phase q).holds = false
  | _ => True

instance [Fintype D] [Fintype K] (s : State D K) : (l : Label D K) → Decidable (Orderly s l)
  | .read _ =>
    inferInstanceAs (Decidable ((readPhase s.file).replaces → ∀ q, (s.phase q).past = false))
  | .probe _ live => inferInstanceAs (Decidable (live = false → ∀ q, (s.phase q).past = false))
  | .remove _ => inferInstanceAs (Decidable (∀ q, (s.phase q).holds = false))
  | .unlink _ | .bind _ _ | .openFile _ _ | .writeFile _ _ | .serve _ | .finish _ | .stop _ _
  | .flag _ | .close _ | .crash _ => .isTrue trivial

/-! ### The invariant -/

/-- What is known when they come one at a time. -/
structure Turns (token : D → Text) (s : State D K) : Prop where
  /-- One daemon at a time is past the check, or serves. -/
  one : ∀ p q, (s.phase p).past → (s.phase q).past → p = q
  /-- The file names the one that wrote it last. -/
  file : ∀ p port, (s.phase p).names = some port → s.file = some (.descriptor port (token p))

variable {token : D → Text}

theorem turns_init (file : Option Content) : Turns token (State.init file : State D K) where
  one := by simp [State.init, Phase.past, Phase.replaces, Phase.serves]
  file := by simp [State.init, Phase.names]

theorem Phase.past_of_replaces {phase : Phase} (h : phase.replaces) : phase.past := by
  rw [Phase.past, h, Bool.true_or]

theorem Phase.past_of_names {phase : Phase} {port : ℕ} (h : phase.names = some port) :
    phase.past := by
  cases phase <;> first | rfl | exact absurd h (by simp [Phase.names])

theorem Phase.holds_of_names {phase : Phase} {port : ℕ} (h : phase.names = some port) :
    phase.holds := by
  cases phase <;> first | rfl | exact absurd h (by simp [Phase.names])

/-- Whoever has only read the file neither serves nor has written it. -/
theorem readPhase_idle (file : Option Content) :
    (readPhase file).serves = false ∧ (readPhase file).names = none := by
  unfold readPhase
  split <;> (try split_ifs) <;> exact ⟨rfl, rfl⟩

/-- A server that is closed serves no more, and whoever has none stays as it is. -/
theorem closePhase_eq_some {phase new : Phase} (h : closePhase phase = some new) :
    (new = phase ∨ new = .closed) ∧ new.names = none := by
  cases phase with
  | opening port | writing port | written port | stuck port =>
    exact absurd h (by simp [closePhase])
  | serving port returned =>
    obtain rfl := Option.some.inj h
    exact ⟨.inr rfl, rfl⟩
  | _ =>
    obtain rfl := Option.some.inj h
    exact ⟨.inl rfl, rfl⟩

variable [DecidableEq D] {s s' : State D K} {l : Label D K} {p : D}

/-- **A daemon moves**, which is past the check if it gets there, and the file is its own to
change. -/
theorem Turns.move (hI : Turns token s) {new : Phase} {file : Option Content}
    {stops : K → Option (D × Stopping)} {flagged : D → Bool}
    (hpast : new.past → (s.phase p).past ∨ ∀ q, (s.phase q).past = false)
    (hnames : ∀ port, new.names = some port → file = some (.descriptor port (token p)))
    (hfile : (s.phase p).past ∨ file = s.file) :
    Turns token ⟨file, Function.update s.phase p new, flagged, stops⟩ := by
  -- another daemon that is past the check leaves this one behind it
  have hother : ∀ q, q ≠ p → (s.phase q).past → ¬new.past := by
    intro q hne hq hnew
    rcases hpast hnew with hp | hnone
    · exact hne (hI.one q p hq hp)
    · exact absurd hq (by simp [hnone q])
  refine ⟨fun q q' h h' => ?_, fun q port h => ?_⟩
  · rcases eq_or_ne q p with rfl | hq <;> rcases eq_or_ne q' q with rfl | hq'
    · rfl
    · simp only [Function.update_self, Function.update_of_ne hq'] at h h'
      exact absurd h (hother q' hq' h')
    · rfl
    · simp only [Function.update_of_ne hq] at h
      rcases eq_or_ne q' p with rfl | hp
      · simp only [Function.update_self] at h'
        exact absurd h' (hother q hq h)
      · simp only [Function.update_of_ne hp] at h'
        exact hI.one q q' h h'
  · rcases eq_or_ne q p with rfl | hne
    · simp only [Function.update_self] at h
      exact hnames port h
    · simp only [Function.update_of_ne hne] at h
      rcases hfile with hp | rfl
      · exact absurd (hI.one q p (Phase.past_of_names h) hp) hne
      · exact hI.file q port h

/-- A daemon that is past the check goes on, or gives up. -/
theorem Turns.goesOn (hI : Turns token s) {old new : Phase} {file : Option Content}
    (hp : s.phase p = old) (hold : old.past)
    (hnames : ∀ port, new.names = some port → file = some (.descriptor port (token p))) :
    Turns token { s with phase := Function.update s.phase p new, file := file } :=
  hI.move (fun _ => .inl (hp ▸ hold)) hnames (.inl (hp ▸ hold))

variable [DecidableEq K]

/-- **What a step keeps.** -/
theorem Turns.step (hI : Turns token s) (hg : Orderly s l) (h : Step token s l s') :
    Turns token s' := by
  cases h with
  | @read p hfresh =>
    obtain ⟨hserves, hnames⟩ := readPhase_idle s.file
    refine hI.move (fun hpast => .inr (hg ?_)) (by simp [hnames]) (.inr rfl)
    rwa [Phase.past, hserves, Bool.or_false] at hpast
  | refuse hp =>
    exact hI.move (by simp [Phase.past, Phase.replaces, Phase.serves]) (by simp [Phase.names])
      (.inr rfl)
  | pass hp => exact hI.move (fun _ => .inr (hg rfl)) (by simp [Phase.names]) (.inr rfl)
  | unlink hp | unbound hp | bind hp _ | raiseOpen hp | openFile hp | raiseWrite hp =>
    exact hI.goesOn hp rfl (by simp [Phase.names])
  | writeFile hp =>
    refine hI.goesOn hp rfl ?_
    rintro _ ⟨⟩
    rfl
  | serve hp | finish hp =>
    refine hI.goesOn hp rfl ?_
    rintro _ ⟨⟩
    exact hI.file _ _ (by rw [hp]; rfl)
  | again hflagged => exact hI
  | stop hk hflagged => exact ⟨hI.one, hI.file⟩
  | flag hk => exact ⟨hI.one, hI.file⟩
  | close hk hphase =>
    obtain ⟨hsame, hnames⟩ := closePhase_eq_some hphase
    refine hI.move (fun h => .inl ?_) (by simp [hnames]) (.inr rfl)
    rcases hsame with rfl | rfl
    · exact h
    · exact absurd h (by simp [Phase.past, Phase.replaces, Phase.serves])
  | remove hk =>
    -- nobody's file is there
    exact ⟨hI.one, fun q port h => absurd (Phase.holds_of_names h) (by simp [hg q])⟩
  | crash p =>
    exact hI.move (by simp [Phase.past, Phase.replaces, Phase.serves]) (by simp [Phase.names])
      (.inr rfl)

/-- **Nobody touches the file of a daemon that serves**, but that daemon. -/
theorem Turns.undisturbed (hI : Turns token s) (hg : Orderly s l) (h : Step token s l s') :
    Undisturbed token s l s' := by
  intro q port returned hq hactor _
  have hpast : (s.phase q).past := by rw [hq]; rfl
  -- a daemon that replaces the file
  have hreplacing : ∀ {p : D}, (s.phase p).replaces → False := fun {p} hp => by
    obtain rfl := hI.one p q (Phase.past_of_replaces hp) hpast
    exact absurd hp (by simp [hq, Phase.replaces])
  cases h with
  | unlink hp | openFile hp | writeFile hp => exact (hreplacing (by rw [hp]; rfl)).elim
  | remove hk => exact absurd (hg q) (by simp [hq, Phase.holds])
  | _ => rfl

variable [Fintype D]

/-- **The endpoint file agrees with the daemon that serves**: in every run whose steps are in
order, it names the one daemon that serves, and no other daemon removes or replaces it. -/
theorem agrees {file : Option Content} {s : State D K} {ls : List (Label D K)}
    (h : Lts.Run (Lts.Under Orderly (Lts.ofStep (step token))) (State.init file) ls s) :
    Agrees token s ∧
      ∀ l s', Lts.Under Orderly (Lts.ofStep (step token)) s l s' → Undisturbed token s l s' := by
  have hI : Turns token s := h.inv_state (I := Turns token) (turns_init file)
    fun a l b ha hl => ha.step hl.1 (.of_step hl.2)
  exact ⟨fun p port hp _ => hI.file p port (by rw [hp]; rfl),
    fun l s' hl => hI.undisturbed hl.1 (.of_step hl.2)⟩

/-! ### A restart -/

/-- The tokens of two daemons. -/
def tokens (p : Bool) : Text := if p then [1] else [2]

/-- `start()` of a daemon that finds no file. -/
def starting (p : Bool) (port : ℕ) : List (Label Bool Bool) :=
  [.read p, .bind p (some port), .openFile p true, .writeFile p true, .serve p, .finish p]

/-- A daemon that is started once the one before it is stopped. -/
theorem agrees_restart : ∃ s : State Bool Bool,
    s.file = some (.descriptor 8002 [2]) ∧ s.phase false = .serving 8002 true ∧ Agrees tokens s ∧
      ∀ l s', Lts.Under Orderly (Lts.ofStep (step tokens)) s l s' →
        Undisturbed tokens s l s' := by
  obtain ⟨s, hrun, hs⟩ := Lts.exists_under_run_of_exec (step tokens) (C := Orderly)
    (fun s l => decide (Orderly s l)) (fun _ _ => of_decide_eq_true) (State.init none)
    (starting true 8001 ++ [.stop true true, .flag true, .close true, .remove true] ++
      starting false 8002)
    (fun s => s.file = some (.descriptor 8002 [2]) ∧ s.phase false = .serving 8002 true)
    (by decide +kernel)
  obtain ⟨hfile, hserving⟩ := of_decide_eq_true hs
  obtain ⟨hagrees, hundisturbed⟩ := agrees hrun
  exact ⟨s, hfile, hserving, hagrees, hundisturbed⟩

/-- A daemon is started after the server of the one before it is closed, and before that one
unlinks the file: it serves, and there is no file. -/
theorem not_agrees : ∃ (ls : List (Label Bool Bool)) (s : State Bool Bool),
    Lts.Run (Lts.ofStep (step tokens)) (State.init none) ls s ∧ ¬Agrees tokens s := by
  obtain ⟨s, hrun, hs⟩ := Lts.exists_run_of_exec (step tokens) (State.init none)
    (starting true 8001 ++ [.stop true true, .flag true, .close true] ++
      [.read false, .probe false false, .unlink false, .bind false (some 8002),
        .openFile false true, .writeFile false true, .serve false, .finish false] ++
      [.remove true])
    (fun s => s.file = none ∧ s.phase false = .serving 8002 true ∧ s.phase true = .closed)
    (by decide +kernel)
  obtain ⟨hfile, hserving, hclosed⟩ := of_decide_eq_true hs
  refine ⟨_, s, hrun, fun h => ?_⟩
  have hnamed := h false 8002 hserving (by
    rintro (_ | _) hq
    · rfl
    · rw [hclosed] at hq
      exact absurd hq (by simp [Phase.serves]))
  exact absurd (hfile.symm.trans hnamed) (by simp)

end Endpoint

end OtamanBridge
