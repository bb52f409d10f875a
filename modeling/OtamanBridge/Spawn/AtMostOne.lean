import Mathlib.Data.Fintype.Basic
import OtamanBridge.Spawn.Session

/-!
# One headless session for an agent and a human

A call asks the registry, then the runner, then claims what the runner gave it, and goes on
as if it had the claim whatever the registry answered. In a run in which the runner is asked
only for a key that has no session, neither claimed nor about to be, and no row is removed
under a call that has just claimed it, every session that is spawned was removed before the
next one of its key is, and a call reports, and lets linger, the session that has the row
(`OtamanBridge.Spawn.atMostOne`). Two threads that ask the registry before either claims
are not such a run (`OtamanBridge.Spawn.not_atMostOne`).
-/

namespace OtamanBridge

namespace Spawn

open Py

/-! ### What is claimed -/

/-- **One session at a time**: of two that are spawned for one key, the row of the first is
removed before the second is spawned; and a session that is reported, or lingers, has the
row. -/
structure AtMostOne (log : List Event) : Prop where
  spawned : ∀ later key sid₂ between sid₁ earlier,
    log = later ++ .spawned key sid₂ :: (between ++ .spawned key sid₁ :: earlier) →
    .removed key sid₁ ∈ between
  returned : ∀ key sid holder, .returned key (.spawned sid) holder ∈ log → holder = some sid
  lingered : ∀ key sid holder, .lingered key sid holder ∈ log → holder = some sid

/-- The session that comes to be claimed next. -/
def Phase.claims : Phase → Option Text
  | .claiming sid => some sid
  | _ => none

/-- The session that the call takes for claimed. -/
def Phase.holds : Phase → Option Text
  | .lingering sid => some sid
  | .leaving (.spawned sid) => some sid
  | _ => none

variable {T : Type}

/-- A call has a session of this key that it has not claimed. -/
def Unclaimed (s : State T) (key : Key) : Prop :=
  ∃ t, ∃ call ∈ s.calls t, call.task.key = key ∧ call.phase.claims.isSome

/-- A call is about to let this session linger, or to report it. -/
def InHand (s : State T) (key : Key) (sid : Text) : Prop :=
  ∃ t, ∃ call ∈ s.calls t, call.task.key = key ∧ call.phase.holds = some sid

/-- The runner is asked only where the key has no session, none is dropped before it is
claimed, and no row is removed that a call is about to report. -/
def Guarded (s : State T) : Label T → Prop
  | .spawn t (some _) => ∀ call ∈ s.calls t,
      s.rows call.task.key = none ∧ ¬Unclaimed s call.task.key
  | .abort t => ∀ call ∈ s.calls t, call.phase.claims = none
  | .release key sid => ¬InHand s key sid
  | .cleanup key threshold => ∀ row ∈ s.rows key,
      row.heartbeatAt < s.now - threshold → ¬InHand s key row.sessionId
  | _ => True

section Decidable

variable [Fintype T] (s : State T)

instance (key : Key) : Decidable (Unclaimed s key) :=
  inferInstanceAs (Decidable (∃ t, ∃ call ∈ s.calls t, _ ∧ _))

instance (key : Key) (sid : Text) : Decidable (InHand s key sid) :=
  inferInstanceAs (Decidable (∃ t, ∃ call ∈ s.calls t, _ ∧ _))

instance : (l : Label T) → Decidable (Guarded s l)
  | .spawn t (some _) => inferInstanceAs (Decidable (∀ call ∈ s.calls t, _ ∧ ¬Unclaimed s _))
  | .abort t => inferInstanceAs (Decidable (∀ call ∈ s.calls t, _ = none))
  | .release key sid => inferInstanceAs (Decidable (¬InHand s key sid))
  | .cleanup key _ => inferInstanceAs (Decidable (∀ row ∈ s.rows key, _ → ¬InHand s key _))
  | .spawn _ none | .tick _ | .call _ _ | .look _ | .claim _ | .linger _ | .leave _
  | .heartbeat _ _ | .wake _ | .fire _ | .expire _ | .reset _ | .cancel _ => .isTrue trivial

end Decidable

/-! ### What is spawned is kept track of -/

/-- The sessions that were spawned and not removed since are those that `K` says, and at most
one of a key. -/
structure Kept (K : Key → Text → Prop) (log : List Event) : Prop where
  tracked : ∀ later key sid earlier, log = later ++ .spawned key sid :: earlier →
    .removed key sid ∉ later → K key sid
  spawned : ∀ later key sid₂ between sid₁ earlier,
    log = later ++ .spawned key sid₂ :: (between ++ .spawned key sid₁ :: earlier) →
    .removed key sid₁ ∈ between

section Kept

variable {K K' : Key → Text → Prop} {log : List Event}

theorem kept_nil : Kept K [] :=
  ⟨fun _ _ _ _ h => absurd h (by simp), fun _ _ _ _ _ _ h => absurd h (by simp)⟩

theorem Kept.mono (h : Kept K log) (hK : ∀ key sid, K key sid → K' key sid) : Kept K' log :=
  ⟨fun later key sid earlier heq hnot => hK key sid (h.tracked later key sid earlier heq hnot),
    h.spawned⟩

/-- **One more event**: a removal ends what is kept of a session, and nothing is spawned where
something is kept. -/
theorem Kept.cons {x : Event} (h : Kept K log)
    (hK : ∀ key sid, K key sid → x = .removed key sid ∨ K' key sid)
    (hx : ∀ key sid, x = .spawned key sid → K' key sid ∧ ∀ sid', ¬K key sid') :
    Kept K' (x :: log) := by
  refine ⟨fun later key sid earlier heq hnot => ?_,
    fun later key sid₂ between sid₁ earlier heq => ?_⟩
  · rcases later with _ | ⟨y, later⟩
    · exact (hx key sid (List.cons.inj heq).1).1
    · obtain ⟨rfl, hlog⟩ := List.cons.inj heq
      rw [List.mem_cons, not_or] at hnot
      rcases hK key sid (h.tracked later key sid earlier hlog hnot.2) with hremoved | hkept
      · exact absurd hremoved.symm hnot.1
      · exact hkept
  · rcases later with _ | ⟨y, later⟩
    · obtain ⟨hspawned, hlog⟩ := List.cons.inj heq
      by_contra hnot
      exact (hx key sid₂ hspawned).2 sid₁ (h.tracked between key sid₁ earlier hlog hnot)
    · exact h.spawned later key sid₂ between sid₁ earlier (List.cons.inj heq).2

/-- An event that is no spawn and no removal. -/
theorem Kept.cons_of_quiet {x : Event} (h : Kept K log) (hK : ∀ key sid, K key sid → K' key sid)
    (hx : ∀ key sid, x ≠ .spawned key sid) : Kept K' (x :: log) :=
  h.cons (fun key sid hkept => .inr (hK key sid hkept)) fun key sid heq => absurd heq (hx key sid)

end Kept

/-! ### Who has a session -/

/-- The session has the row of its key, or is about to be claimed. -/
def Custody (s : State T) (key : Key) (sid : Text) : Prop :=
  s.holder key = some sid ∨
    ∃ t call, s.calls t = some call ∧ call.task.key = key ∧ call.phase.claims = some sid

/-- What is known of the calls: one that has a session to claim is alone with it, and one that
takes it for claimed has claimed it. -/
structure Claims (s : State T) : Prop where
  free : ∀ t call, s.calls t = some call → call.phase.claims.isSome →
    s.rows call.task.key = none
  alone : ∀ t t' call call', s.calls t = some call → s.calls t' = some call' →
    call.phase.claims.isSome → call'.phase.claims.isSome → call.task.key = call'.task.key →
    t = t'
  held : ∀ t call sid, s.calls t = some call → call.phase.holds = some sid →
    s.holder call.task.key = some sid

theorem claims_init (rows : Key → Option Row) : Claims (State.init rows : State T) :=
  ⟨fun _ _ h => absurd h (by simp [State.init]), fun _ _ _ _ h => absurd h (by simp [State.init]),
    fun _ _ _ h => absurd h (by simp [State.init])⟩

variable {cfg : Config} {s s' : State T} {l : Label T} {t : T} {key : Key} {sid : Text}

/-- Nothing of this reads more than the rows and the calls. -/
theorem Claims.of_eq (h : Claims s) (hrows : s'.rows = s.rows) (hcalls : s'.calls = s.calls) :
    Claims s' := by
  obtain ⟨now, rows, calls, entries, timers, next, log⟩ := s'
  obtain rfl : rows = s.rows := hrows
  obtain rfl : calls = s.calls := hcalls
  exact ⟨h.free, h.alone, h.held⟩

/-- A row goes that no call takes for its own. -/
theorem Claims.removeRow (h : Claims s) {row : Row} (hrow : s.rows key = some row)
    (hhand : ¬InHand s key row.sessionId) : Claims (removeRow s key row) := by
  refine ⟨fun t call hcall hsome => ?_, h.alone, fun t call sid hcall hholds => ?_⟩
  · have hfree := h.free t call hcall hsome
    have hne : call.task.key ≠ key := by
      rintro rfl
      simp [hrow] at hfree
    exact (Function.update_of_ne hne ..).trans hfree
  · have hheld := h.held t call sid hcall hholds
    have hne : call.task.key ≠ key := by
      rintro rfl
      obtain rfl : row.sessionId = sid := by simpa [State.holder, hrow] using hheld
      exact hhand ⟨t, call, hcall, rfl, hholds⟩
    rw [← hheld]
    exact congrArg (Option.map Row.sessionId) (Function.update_of_ne hne ..)

variable [DecidableEq T]

/-- A call moves that has nothing to claim, before or after. -/
theorem Custody.setCall (h : Custody s key sid) {new : Option Call}
    (hbefore : ∀ call, s.calls t = some call → call.phase.claims = none) :
    Custody (s.setCall t new) key sid := by
  rcases h with h | ⟨t', call, hcall, hkey, hclaims⟩
  · exact .inl h
  · refine .inr ⟨t', call, ?_, hkey, hclaims⟩
    have hne : t' ≠ t := by
      rintro rfl
      simp [hbefore call hcall] at hclaims
    exact (Function.update_of_ne hne ..).trans hcall

/-- A call moves, and what it takes for claimed it has claimed. -/
theorem Claims.setCall (h : Claims s) {new : Option Call}
    (hclaims : ∀ call, new = some call → call.phase.claims = none)
    (hholds : ∀ call sid, new = some call → call.phase.holds = some sid →
      s.holder call.task.key = some sid) : Claims (s.setCall t new) := by
  -- whoever has something to claim is another call
  have hother : ∀ t' call', (s.setCall t new).calls t' = some call' →
      call'.phase.claims.isSome → s.calls t' = some call' := by
    refine Lts.forall_update (P := fun t' call' => call'.phase.claims.isSome →
      s.calls t' = some call') (fun call' hcall' hsome => ?_) fun t' call' _ hcall' _ => hcall'
    simp [hclaims call' hcall'] at hsome
  refine ⟨fun t' call' hcall' hsome => h.free t' call' (hother t' call' hcall' hsome) hsome,
    fun t₁ t₂ call₁ call₂ h₁ h₂ hsome₁ hsome₂ hkey =>
      h.alone t₁ t₂ call₁ call₂ (hother _ _ h₁ hsome₁) (hother _ _ h₂ hsome₂) hsome₁ hsome₂ hkey,
    fun t' call' sid' hcall' => ?_⟩
  exact Lts.forall_update (P := fun _ call' => call'.phase.holds = some sid' →
    s.holder call'.task.key = some sid') (fun call' hnew => hholds call' sid' hnew)
    (fun t' call' _ hcall' => h.held t' call' sid' hcall') t' call' hcall'

/-! ### A step -/

/-- A session that is reported has the row. -/
def Event.Honest : Event → Prop
  | .returned _ (.spawned sid) holder => holder = some sid
  | .lingered _ sid holder => holder = some sid
  | _ => True

/-- The invariant. -/
structure Single (s : State T) : Prop where
  claims : Claims s
  kept : Kept (Custody s) s.log
  honest : ∀ e ∈ s.log, e.Honest

section Moves

omit [DecidableEq T]

theorem single_init (rows : Key → Option Row) : Single (State.init rows : State T) :=
  ⟨claims_init rows, kept_nil, fun _ h => absurd h List.not_mem_nil⟩

/-- A step that is not about the rows, the calls or the log. -/
theorem Single.of_eq (hI : Single s) (hrows : s'.rows = s.rows) (hcalls : s'.calls = s.calls)
    (hlog : s'.log = s.log) : Single s' := by
  refine ⟨hI.claims.of_eq hrows hcalls, ?_, hlog ▸ hI.honest⟩
  rw [hlog]
  refine hI.kept.mono fun key sid h => ?_
  simpa only [Custody, State.holder, hrows, hcalls] using h

/-- Something is noted that is no spawn and no removal. -/
theorem Single.note (hI : Single s) (e : Event) (hquiet : ∀ key sid, e ≠ .spawned key sid)
    (hhonest : e.Honest) : Single (s.note e) :=
  ⟨hI.claims.of_eq rfl rfl, hI.kept.cons_of_quiet (fun _ _ => id) hquiet,
    List.forall_mem_cons.mpr ⟨hhonest, hI.honest⟩⟩

/-- A row goes that no call takes for its own. -/
theorem Single.removeRow (hI : Single s) {row : Row} (hrow : s.rows key = some row)
    (hhand : ¬InHand s key row.sessionId) : Single (removeRow s key row) := by
  refine ⟨hI.claims.removeRow hrow hhand, hI.kept.cons (fun key' sid h => ?_)
    (fun _ _ h => absurd h (by simp)), List.forall_mem_cons.mpr ⟨trivial, hI.honest⟩⟩
  rcases h with hholder | hclaims
  · by_cases hkey : key' = key
    · subst hkey
      obtain rfl : row.sessionId = sid := by simpa [State.holder, hrow] using hholder
      exact .inl rfl
    · refine .inr (.inl (Eq.trans ?_ hholder))
      exact congrArg (Option.map Row.sessionId) (Function.update_of_ne hkey ..)
  · exact .inr (.inr hclaims)

/-- A row is written again, for its own session. -/
theorem Single.beat (hI : Single s) {row : Row} (hrow : s.rows key = some row) :
    Single (s.setRow key (some { row with heartbeatAt := s.now })) := by
  have hholder : (s.setRow key (some { row with heartbeatAt := s.now })).holder = s.holder := by
    funext key'
    rcases eq_or_ne key' key with rfl | hne
    · simp [State.holder, State.setRow, hrow]
    · exact congrArg (Option.map Row.sessionId) (Function.update_of_ne hne ..)
  refine ⟨⟨fun t call hcall hsome => ?_, hI.claims.alone, fun t call sid hcall hholds => ?_⟩,
    hI.kept.mono fun key' sid h => ?_, hI.honest⟩
  · have hfree := hI.claims.free t call hcall hsome
    have hne : call.task.key ≠ key := by
      rintro rfl
      simp [hrow] at hfree
    exact (Function.update_of_ne hne ..).trans hfree
  · rw [hholder]
    exact hI.claims.held t call sid hcall hholds
  · exact h.imp_left fun h => by rw [hholder]; exact h

end Moves

/-- A call moves that has nothing to claim, before or after. -/
theorem Single.setCall (hI : Single s) {new : Option Call}
    (hbefore : ∀ call, s.calls t = some call → call.phase.claims = none)
    (hclaims : ∀ call, new = some call → call.phase.claims = none)
    (hholds : ∀ call sid, new = some call → call.phase.holds = some sid →
      s.holder call.task.key = some sid) : Single (s.setCall t new) :=
  ⟨hI.claims.setCall hclaims hholds, hI.kept.mono fun _ _ h => h.setCall hbefore, hI.honest⟩

/-- A call moves to where it has no session. -/
theorem Single.setCall_of_none (hI : Single s) {new : Option Call}
    (hbefore : ∀ call, s.calls t = some call → call.phase.claims = none)
    (hnew : ∀ call, new = some call → call.phase.claims = none ∧ call.phase.holds = none) :
    Single (s.setCall t new) :=
  hI.setCall hbefore (fun call h => (hnew call h).1)
    fun call sid h hholds => absurd ((hnew call h).2.symm.trans hholds) (by simp)

/-- The runner gives a call a session, for a key that has none. -/
theorem Single.spawned (hI : Single s) {task : Task} (hcall : s.calls t = some ⟨task, .spawning⟩)
    (hrows : s.rows task.key = none) (hunclaimed : ¬Unclaimed s task.key) :
    Single ((s.setCall t (some ⟨task, .claiming sid⟩)).note (.spawned task.key sid)) := by
  -- the calls of the key have nothing to claim
  have hnone : ∀ t' call', s.calls t' = some call' → call'.phase.claims.isSome →
      call'.task.key ≠ task.key :=
    fun t' call' hcall' hsome hkey => hunclaimed ⟨t', call', hcall', hkey, hsome⟩
  refine ⟨⟨fun t' call' hcall' hsome => ?_, fun t₁ t₂ call₁ call₂ h₁ h₂ hsome₁ hsome₂ hkey => ?_,
    fun t' call' sid' hcall' hholds => ?_⟩, hI.kept.cons (fun key' sid' h => .inr ?_) ?_,
    List.forall_mem_cons.mpr ⟨trivial, hI.honest⟩⟩
  · rcases Lts.update_eq_some hcall' with ⟨-, ⟨⟩⟩ | ⟨-, hcall'⟩
    · exact hrows
    · exact hI.claims.free t' call' hcall' hsome
  · rcases Lts.update_eq_some h₁ with ⟨hat₁, ⟨⟩⟩ | ⟨-, h₁⟩ <;>
      rcases Lts.update_eq_some h₂ with ⟨hat₂, ⟨⟩⟩ | ⟨-, h₂⟩
    · exact hat₁.trans hat₂.symm
    · exact absurd hkey.symm (hnone t₂ call₂ h₂ hsome₂)
    · exact absurd hkey (hnone t₁ call₁ h₁ hsome₁)
    · exact hI.claims.alone t₁ t₂ call₁ call₂ h₁ h₂ hsome₁ hsome₂ hkey
  · rcases Lts.update_eq_some hcall' with ⟨-, ⟨⟩⟩ | ⟨-, hcall'⟩
    · exact absurd hholds (by simp [Phase.holds])
    · exact hI.claims.held t' call' sid' hcall' hholds
  · refine h.setCall fun call h => ?_
    obtain rfl := Option.some.inj (hcall.symm.trans h)
    rfl
  · rintro key' sid' ⟨⟩
    refine ⟨.inr ⟨t, _, Function.update_self .., rfl, rfl⟩, fun sid' h => ?_⟩
    rcases h with hholder | ⟨t', call', hcall', hkey, hclaims⟩
    · simp [State.holder, hrows] at hholder
    · exact hnone t' call' hcall' (by simp [hclaims]) hkey

/-- A call claims its session, which the registry accepts. -/
theorem Single.claimed (hI : Single s) {task : Task}
    (hcall : s.calls t = some ⟨task, .claiming sid⟩) :
    Single ((s.setRow task.key (claimSession s.now (s.rows task.key) sid).2).setCall t
      (some ⟨task, .lingering sid⟩)) := by
  have hfree : s.rows task.key = none := hI.claims.free t _ hcall rfl
  rw [hfree]
  have hself : (s.setRow task.key (claimSession s.now none sid).2).holder task.key = some sid := by
    simp [State.holder, State.setRow, claimSession]
  have hholder : ∀ key sid', s.holder key = some sid' →
      (s.setRow task.key (claimSession s.now none sid).2).holder key = some sid' := by
    intro key sid' h
    have hne : key ≠ task.key := by
      rintro rfl
      simp [State.holder, hfree] at h
    rw [← h]
    exact congrArg (Option.map Row.sessionId) (Function.update_of_ne hne ..)
  -- whoever else has a session to claim has it for another key
  have hother : ∀ t' call', t' ≠ t → s.calls t' = some call' → call'.phase.claims.isSome →
      call'.task.key ≠ task.key :=
    fun t' call' hne hcall' hsome hkey =>
      hne (hI.claims.alone t' t call' _ hcall' hcall hsome rfl hkey)
  refine ⟨⟨fun t' call' hcall' hsome => ?_, fun t₁ t₂ call₁ call₂ h₁ h₂ hsome₁ hsome₂ hkey => ?_,
    fun t' call' sid' hcall' hholds => ?_⟩, hI.kept.mono fun key' sid' h => ?_, hI.honest⟩
  · rcases Lts.update_eq_some hcall' with ⟨-, ⟨⟩⟩ | ⟨hne, hcall'⟩
    · exact absurd hsome (by simp [Phase.claims])
    · rw [← hI.claims.free t' call' hcall' hsome]
      exact Function.update_of_ne (hother t' call' hne hcall' hsome) ..
  · rcases Lts.update_eq_some h₁ with ⟨-, ⟨⟩⟩ | ⟨-, h₁⟩
    · exact absurd hsome₁ (by simp [Phase.claims])
    · rcases Lts.update_eq_some h₂ with ⟨-, ⟨⟩⟩ | ⟨-, h₂⟩
      · exact absurd hsome₂ (by simp [Phase.claims])
      · exact hI.claims.alone t₁ t₂ call₁ call₂ h₁ h₂ hsome₁ hsome₂ hkey
  · rcases Lts.update_eq_some hcall' with ⟨-, ⟨⟩⟩ | ⟨-, hcall'⟩
    · obtain rfl := Option.some.inj hholds
      exact hself
    · exact hholder _ _ (hI.claims.held t' call' sid' hcall' hholds)
  · rcases h with h | ⟨t', call', hcall', hkey, hclaims⟩
    · exact .inl (hholder _ _ h)
    · rcases eq_or_ne t' t with rfl | hne
      · obtain rfl := Option.some.inj (hcall.symm.trans hcall')
        obtain rfl := Option.some.inj hclaims
        exact .inl (hkey ▸ hself)
      · exact .inr ⟨t', call', (Function.update_of_ne hne ..).trans hcall', hkey, hclaims⟩

/-- A call comes to its end, with what it takes for claimed. -/
theorem Single.lingered (hI : Single s) {task : Task}
    (hcall : s.calls t = some ⟨task, .lingering sid⟩) :
    Single (s.setCall t (some ⟨task, .leaving (.spawned sid)⟩)) := by
  refine hI.setCall (fun call h => ?_) ?_ ?_
  · obtain rfl := Option.some.inj (hcall.symm.trans h)
    rfl
  · rintro _ ⟨⟩
    rfl
  · rintro _ sid' ⟨⟩ hholds
    obtain rfl := Option.some.inj hholds
    exact hI.claims.held t ⟨task, .lingering sid⟩ sid hcall rfl

/-- **What a step keeps.** -/
theorem Single.step (hI : Single s) (hg : Guarded s l) (h : Step cfg s l s') : Single s' := by
  -- the call that moves
  have hat : ∀ {t : T} {task : Task} {phase : Phase}, s.calls t = some ⟨task, phase⟩ →
      phase.claims = none → ∀ call, s.calls t = some call → call.phase.claims = none := by
    intro t task phase hcall hclaims call hcall'
    obtain rfl := Option.some.inj (hcall.symm.trans hcall')
    exact hclaims
  cases h with
  | tick | idle | reset | cancel | wake | fire | lapse => exact hI.of_eq rfl rfl rfl
  | @expire i key entry htimer =>
    have hended : Single (s.setTimer i ⟨key, .ended⟩) := hI.of_eq rfl rfl rfl
    exact hended.note (.expired _ _ _) (by simp) trivial
  | call task hnone => exact hI.setCall_of_none (by simp [hnone]) (by rintro _ ⟨⟩; exact ⟨rfl, rfl⟩)
  | warm hcall hrow =>
    exact hI.setCall_of_none (hat hcall rfl) (by rintro _ ⟨⟩; exact ⟨rfl, rfl⟩)
  | cold hcall hrow =>
    refine hI.setCall_of_none (hat hcall rfl) ?_
    rintro _ ⟨⟩
    split_ifs <;> exact ⟨rfl, rfl⟩
  | refused hcall => exact hI.setCall_of_none (hat hcall rfl) (by rintro _ ⟨⟩; exact ⟨rfl, rfl⟩)
  | spawned sid hcall =>
    obtain ⟨hrows, hunclaimed⟩ := hg _ hcall
    exact hI.spawned hcall hrows hunclaimed
  | claim hcall => exact hI.claimed hcall
  | skip hcall => exact hI.lingered hcall
  | @linger t task sid hcall hlingers =>
    have harmed : Single (arm cfg (s.setCall t (some ⟨task, .leaving (.spawned sid)⟩)) task.key
        sid task.changeId) := (hI.lingered hcall).of_eq rfl rfl rfl
    exact harmed.note (.lingered task.key sid _) (by simp) (hI.claims.held _ _ sid hcall rfl)
  | @leave t task action hcall hcold =>
    have hleft : Single (s.setCall t none) := hI.setCall_of_none (hat hcall rfl) (by simp)
    refine hleft.note (.returned _ _ _) (by simp) ?_
    cases action with
    | spawned sid => exact hI.claims.held _ _ sid hcall rfl
    | _ => trivial
  | @leaveWarm t task hcall =>
    have hleft : Single (s.setCall t none) := hI.setCall_of_none (hat hcall rfl) (by simp)
    exact (hleft.note (.returned _ .warmSession _) (by simp) trivial).note (.warm _ _ _)
      (by simp) trivial
  | abort hcall =>
    exact hI.setCall_of_none hg (by simp)
  | release hrow => exact hI.removeRow hrow hg
  | beat hrow => exact hI.beat hrow
  | clean hrow hold => exact hI.removeRow hrow (hg _ hrow hold)

/-- **At most one session of a key**: in every run in which the runner is asked only for keys
that have no session, claimed or not, and no row is removed under the call that has claimed
it. -/
theorem atMostOne {rows : Key → Option Row} {s : State T} {ls : List (Label T)}
    (h : Lts.Run (Lts.Under Guarded (Lts.ofStep (step cfg))) (State.init rows) ls s) :
    AtMostOne s.log := by
  have hI : Single s := h.inv_state (I := Single) (single_init rows)
    fun a l b ha hl => ha.step hl.1 (.of_step hl.2)
  exact ⟨hI.kept.spawned, fun key sid holder he => hI.honest _ he,
    fun key sid holder he => hI.honest _ he⟩

/-- A second session, after the first is released. -/
theorem atMostOne_released : ∃ s : State Bool,
    s.log.head? = some (.returned ([1], [2]) (.spawned [5]) (some [5])) ∧ AtMostOne s.log := by
  obtain ⟨s, hrun, hs⟩ := Lts.exists_under_run_of_exec (step lingering) (C := Guarded)
    (fun s l => decide (Guarded s l)) (fun _ _ => of_decide_eq_true) (State.init fun _ => none)
    (spawning true [4] ++ [.release ([1], [2]) [4]] ++ spawning false [5])
    (fun s => s.log.head? = some (.returned ([1], [2]) (.spawned [5]) (some [5])))
    (by decide +kernel)
  exact ⟨s, of_decide_eq_true hs, atMostOne hrun⟩

/-- Both threads ask the registry before either claims: two sessions, and the second is
reported while the first has the row. -/
theorem not_atMostOne : ∃ (ls : List (Label Bool)) (s : State Bool),
    Lts.Run (Lts.ofStep (step lingering)) (State.init fun _ => none) ls s ∧
      ¬AtMostOne s.log := by
  obtain ⟨s, hrun, hs⟩ := Lts.exists_run_of_exec (step lingering) (State.init fun _ => none)
    [.call true headlessTask, .call false headlessTask, .look true, .look false,
      .spawn true (some [4]), .spawn false (some [5]), .claim true, .claim false, .linger false,
      .leave false]
    (fun s => .returned ([1], [2]) (.spawned [5]) (some [4]) ∈ s.log ∧
      s.log.drop 2 = [.spawned ([1], [2]) [5], .spawned ([1], [2]) [4]])
    (by decide +kernel)
  obtain ⟨hreturned, hspawned⟩ := of_decide_eq_true hs
  refine ⟨_, s, hrun, fun h => ?_⟩
  have hbetween := h.spawned (s.log.take 2) ([1], [2]) [5] [] [4] [] (by
    rw [List.nil_append, ← hspawned, List.take_append_drop])
  exact absurd hbetween List.not_mem_nil

end Spawn

end OtamanBridge
