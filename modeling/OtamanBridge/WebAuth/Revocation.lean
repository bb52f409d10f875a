import OtamanBridge.WebAuth.SingleUse

/-!
# Revocation and the file

`revoke_user` takes the tokens of a user out of the map, and saves if there were any. A
save that raises leaves them in the file, and the call that is repeated finds none in the
map, saves nothing and returns: after a restart they are accepted again
(`OtamanBridge.WebAuth.not_durable`). Revocation is for good in every run in which a call
that finds none finds none in the file either (`OtamanBridge.WebAuth.durable`).
-/

namespace OtamanBridge

namespace WebAuth

open Py

/-- The file holds a record of this user that is not expired. -/
def fileHolds (now : ℤ) (username : String) : Option File → Bool
  | some (.records records) =>
    (victims username records).entries.any fun e => decide (now < e.2.exp)
  | _ => false

variable {D : Type}

/-- **Revocation is for good**: once a revocation has returned, no token that was made
before it for its user is accepted. -/
def Durable (s : State D) : Prop :=
  ∀ later earlier p t username n q raw,
    s.log = later ++ .returned p t (.revoked username n) :: earlier →
    .minted q raw username ∈ earlier → ∀ p' time, .accepted p' raw time ∉ later

/-- The condition on a step: where `revoke_user` finds no record of the user in the map,
the file holds none that is not expired. -/
def backed (s : State D) : Label D → Bool
  | .act p _ =>
    match s.procs p with
    | some ⟨records, some (_, .entered (.revoke username)), _⟩ =>
      !(victims username records).entries.isEmpty || !fileHolds s.now username s.file
    | _ => true
  | _ => true

variable {cfg : Config} {s s' : State D} {records : Records} {raw : Text} {username : String}

/-! ### The records of one user -/

/-- The map has no record of the user. -/
def NoneFor (username : String) (records : Records) : Prop :=
  ∀ k record, records.lookup k = some record → record.username ≠ username

/-- The file has no record of the user, other than expired ones. -/
def NoneGood (username : String) (s : State D) : Prop :=
  ∀ r, s.file = some (.records r) → ∀ k record, r.lookup k = some record →
    record.username = username → record.exp ≤ s.now

theorem noneFor_withoutUser : NoneFor username (withoutUser username records) := by
  intro k record hk
  exact of_decide_eq_true (Dict.lookup_keep_eq_some.mp hk).2

theorem NoneFor.mono {records' : Records} (h : NoneFor username records)
    (hsub : ∀ k record, records'.lookup k = some record → records.lookup k = some record) :
    NoneFor username records' :=
  fun k record hk => h k record (hsub k record hk)

theorem noneFor_of_victims (h : (victims username records).entries = []) :
    NoneFor username records := by
  intro k record hk heq
  exact Dict.not_of_lookup_of_keep_eq_nil h hk (decide_eq_true heq)

theorem noneGood_of_fileHolds (h : fileHolds s.now username s.file = false) :
    NoneGood username s := by
  intro r hr k record hk heq
  rw [hr] at h
  have hmem : ⟨k, record⟩ ∈ (victims username r).entries :=
    AList.mem_lookup_iff.mp (Dict.lookup_keep_eq_some.mpr ⟨hk, decide_eq_true heq⟩)
  have := List.any_eq_false.mp h _ hmem
  simpa using this

theorem NoneGood.of_le (h : NoneGood username s) (hfile : s'.file = s.file)
    (hnow : s.now ≤ s'.now) : NoneGood username s' := by
  intro r hr k record hk heq
  exact (h r (hfile ▸ hr) k record hk heq).trans hnow

/-! ### What a revocation leaves behind -/

section OneStore

/-- A revocation that has gone through the map: the map has no record of the user, and once
the call has saved, neither has the file. -/
def Revoking (s : State D) (proc : Proc) : Prop :=
  ∀ t position username n, proc.holder = some (t, position) →
    position.outcome = some (.revoked username n) →
    NoneFor username proc.records ∧ (position.leaves → NoneGood username s)

/-- The event is a revocation of this token, which was made before it. -/
def Event.Revokes (e : Event D) (earlier : List (Event D)) (raw : Text) : Prop :=
  ∃ p t username n q, e = .returned p t (.revoked username n) ∧
    .minted q raw username ∈ earlier

/-- What is known of the revocations: the tokens they were about are gone, and have not been
accepted since. -/
structure Revoked (cfg : Config) (s : State D) : Prop where
  log : Lts.Respected (fun e earlier => ∀ raw, e.Revokes earlier raw → Gone cfg s raw)
    (fun e earlier x => ∃ raw, e.Revokes earlier raw ∧ ∃ p time, x = .accepted p raw time) s.log
  revoking : ∀ p proc, s.procs p = some proc → Revoking s proc

theorem revoked_init : Revoked cfg (State.init : State D) :=
  ⟨Lts.respected_nil, fun _ _ h => absurd h (by simp [State.init])⟩

theorem Revoked.allDurable (h : Revoked cfg s) : Durable s := by
  intro later earlier p t username n q raw heq hin p' time haccepted
  exact (h.log later _ earlier heq).2 _ haccepted
    ⟨raw, ⟨p, t, username, n, q, rfl, hin⟩, p', time, rfl⟩

theorem revoking_of_outcome {holder : Option (ℕ × Position)} {base : ℕ}
    (h : ∀ t position username n, holder = some (t, position) →
      position.outcome ≠ some (.revoked username n)) : Revoking s ⟨records, holder, base⟩ :=
  fun t position username n ht ho => absurd ho (h t position username n ht)

variable [DecidableEq D] {l : Label D}

/-- Tokens that were revoked stay gone. -/
theorem Gone.of_revokes (hK : Known cfg s) (hown : Own s) (hstep : Step cfg s l s') (e : Event D)
    (earlier : List (Event D)) (hearlier : ∀ x ∈ e :: earlier, x ∈ s.log)
    (h : ∀ raw, e.Revokes earlier raw → Gone cfg s raw) :
    ∀ raw, e.Revokes earlier raw → Gone cfg s' raw := by
  intro raw hrevokes
  obtain ⟨_, _, _, _, _, -, hin⟩ := id hrevokes
  obtain ⟨o, ho, -⟩ := hK.log _ (hearlier _ (List.mem_cons_of_mem _ hin))
  exact (h raw hrevokes).step hown (by simp [ho]) hstep

variable [Subsingleton D]

/-- The process that moves, and what it logs. -/
theorem Revoked.of_move (hI : Revoked cfg s) (hK : Known cfg s) (hown : Own s)
    (hstep : Step cfg s l s') {p : D} {new : Option Proc}
    (hprocs : s'.procs = Function.update s.procs p new)
    (hlog : s'.log = s.log ∨ ∃ x, s'.log = x :: s.log ∧
      (∀ raw p time, x = .accepted p raw time → ¬Gone cfg s raw) ∧
      ∀ raw, x.Revokes s.log raw → Gone cfg s' raw)
    (hnew : ∀ proc, new = some proc → Revoking s' proc) : Revoked cfg s' := by
  refine ⟨?_, ?_⟩
  · rcases hlog with hlog | ⟨x, hlog, haccepted, hrevokes⟩
    · rw [hlog]
      exact hI.log.mono (Gone.of_revokes hK hown hstep)
    · rw [hlog]
      refine hI.log.cons (Gone.of_revokes hK hown hstep) ?_ hrevokes
      rintro e earlier hgone ⟨raw, hraw, p, time, hx⟩
      exact haccepted raw p time hx (hgone raw hraw)
  · rw [hprocs]
    exact Lts.forall_update (P := fun _ proc => Revoking s' proc) hnew
      fun q proc hne _ => absurd (Subsingleton.elim q p) hne

omit [DecidableEq D] in
/-- A revocation that returns: every token of its user is gone. -/
theorem Revoked.gone (hI : Revoked cfg s) (hK : Known cfg s) {p : D} {t base n : ℕ}
    (hat : s.At p t records (.leaving (.revoked username n)) base) {o : Origin}
    (ho : s.origin raw = some o) (husername : o.username = username) : Gone cfg s raw := by
  obtain ⟨hmap, hfile⟩ := hI.revoking p _ hat t _ username n rfl rfl
  refine ⟨fun q proc hq => ?_, ?_⟩
  · obtain rfl := Subsingleton.elim q p
    obtain rfl := Option.some.inj (hat.symm.trans hq)
    rintro ⟨record, hfound, -⟩
    obtain ⟨o', ho', hrecord⟩ := (hK.procs _ _ hat).sound.lookup hfound
    obtain rfl := Option.some.inj (ho.symm.trans ho')
    exact hmap _ _ hfound (by rw [hrecord, husername])
  · rintro ⟨r, hr, record, hfound, hlive⟩
    obtain ⟨o', ho', hrecord⟩ := (hK.file r hr).lookup hfound
    obtain rfl := Option.some.inj (ho.symm.trans ho')
    have := hfile rfl r hr _ _ hfound (by rw [hrecord, husername])
    omega

theorem Revoked.step (hI : Revoked cfg s) (hK : Known cfg s) (hown : Own s)
    (hback : backed s l) (h : Step cfg s l s') : Revoked cfg s' := by
  have hstep := h
  -- an event that is no answer, and accepts nothing
  have hquiet : ∀ x : Event D, (∀ p t outcome, x ≠ .returned p t outcome) →
      (∀ p raw time, x ≠ .accepted p raw time) →
      (∀ raw p time, x = .accepted p raw time → ¬Gone cfg s raw) ∧
      ∀ raw, x.Revokes s.log raw → Gone cfg s' raw := by
    intro x hreturned haccepted
    refine ⟨fun raw p time heq => absurd heq (haccepted p raw time), ?_⟩
    rintro raw ⟨p, t, username, n, q, heq, -⟩
    exact absurd heq (hreturned p t _)
  cases h with
  | tick d =>
    refine ⟨hI.log.mono (Gone.of_revokes hK hown hstep), fun p proc hp t position username n ht
      ho => ?_⟩
    obtain ⟨hmap, hfile⟩ := hI.revoking p proc hp t position username n ht ho
    exact ⟨hmap, fun hleaves => (hfile hleaves).of_le rfl hstep.now_le⟩
  | start readable hdown =>
    refine hI.of_move hK hown hstep rfl (.inl rfl) ?_
    rintro proc ⟨⟩
    exact revoking_of_outcome (by simp)
  | crash hup => exact hI.of_move hK hown hstep rfl (.inl rfl) (by simp)
  | enter call hup =>
    refine hI.of_move hK hown hstep rfl (.inl rfl) ?_
    rintro proc ⟨⟩
    exact revoking_of_outcome (by rintro t position username n ⟨⟩; simp [Position.outcome])
  | @pass p t base records call outcome hat hout =>
    refine hI.of_move hK hown hstep rfl (.inl rfl) ?_
    rintro proc ⟨⟩
    refine revoking_of_outcome ?_
    rintro t position username n ⟨⟩ heq
    obtain rfl := Option.some.inj heq
    exact absurd hout (by simp [Outcome.quiet])
  | drop hat _ _ | tear hat | fail hat _ =>
    refine hI.of_move hK hown hstep rfl (.inl rfl) ?_
    rintro proc ⟨⟩
    exact revoking_of_outcome (by rintro t position username n ⟨⟩; simp [Position.outcome])
  | @accept p t base records raw hat record hfound hlive =>
    refine hI.of_move hK hown hstep rfl (.inr ⟨_, rfl, ?_, ?_⟩) ?_
    · rintro raw' p' time ⟨⟩ hgone
      exact hgone.procs _ _ hat ⟨record, hfound, hlive⟩
    · rintro raw' ⟨p', t', username, n, q, heq, -⟩
      exact absurd heq (by simp)
    · rintro proc ⟨⟩
      exact revoking_of_outcome (by rintro t position username n ⟨⟩; simp [Position.outcome])
  | @strike p t base n records username hat hn =>
    refine hI.of_move hK hown hstep rfl (.inl rfl) ?_
    rintro proc ⟨⟩ t' position username' n' heq ho
    have hsame : username' = username := by
      cases heq
      split_ifs at ho <;> simp [Position.outcome] at ho <;> exact ho.1.symm
    subst hsame
    refine ⟨noneFor_withoutUser, fun hleaves => ?_⟩
    -- the call saves, or found nothing
    cases heq
    split_ifs at hleaves with hzero
    · have hnil : (victims username' records).entries = [] :=
        List.eq_nil_of_length_eq_zero (hn.symm.trans hzero)
      have hfile : fileHolds s.now username' s.file = false := by
        have hat' : s.procs p = _ := hat
        simpa [backed, hat', hnil] using hback
      exact (noneGood_of_fileHolds hfile).of_le rfl hstep.now_le
    · exact absurd hleaves (by simp [Position.leaves])
  | issue hat _ | rotate hat _ =>
    refine hI.of_move hK hown hstep rfl (.inr ⟨_, rfl, hquiet _ (by simp) (by simp)⟩) ?_
    rintro proc ⟨⟩
    exact revoking_of_outcome (by rintro t position username n ⟨⟩; simp [Position.outcome])
  | write hat =>
    refine hI.of_move hK hown hstep rfl (.inl rfl) ?_
    rintro proc ⟨⟩ t position username n ⟨⟩ ho
    obtain ⟨hmap, -⟩ := hI.revoking _ _ hat _ _ username n rfl ho
    exact ⟨hmap, by simp [Position.leaves]⟩
  | replace hat htmp =>
    refine hI.of_move hK hown hstep rfl (.inr ⟨_, rfl, hquiet _ (by simp) (by simp)⟩) ?_
    rintro proc ⟨⟩ t position username n ⟨⟩ ho
    obtain ⟨hmap, -⟩ := hI.revoking _ _ hat _ _ username n rfl ho
    refine ⟨hmap, fun _ r hr k record hk heq => ?_⟩
    obtain rfl := File.records.inj (Option.some.inj (hr.symm.trans
      (htmp.symm.trans (hown _ _ hat _ _ rfl))))
    exact absurd heq (hmap k record hk)
  | @leave p t base records outcome hat =>
    refine hI.of_move hK hown hstep rfl (.inr ⟨_, rfl, by simp, ?_⟩) ?_
    · rintro raw ⟨p', t', username, n, q, ⟨⟩, hin⟩
      obtain ⟨o, ho, husername⟩ := hK.log _ hin
      exact (hI.gone hK hat ho husername).step hown (by simp [ho]) hstep
    · rintro proc ⟨⟩
      exact revoking_of_outcome (by simp)

end OneStore

/-- **When revocation is for good.** In every run of one store in which a revocation that
finds no record of its user in the map finds none in the file either, a revocation that has
returned is for good. -/
theorem durable {s : State Unit} {ls : List (Label Unit)}
    (h : Lts.Run (Lts.Under (fun s l => backed s l) (Lts.ofStep (step cfg))) State.init ls s) :
    Durable s := by
  obtain ⟨-, -, hR⟩ : Known cfg s ∧ Own s ∧ Revoked cfg s := by
    refine h.inv_state (I := fun s => Known cfg s ∧ Own s ∧ Revoked cfg s)
      ⟨known_init, own_init, revoked_init⟩ ?_
    rintro a l b ⟨hK, hown, hR⟩ ⟨hback, hl⟩
    have hstep := Step.of_step hl
    exact ⟨hK.step hstep, hown.step (serial_of_subsingleton a) hstep,
      hR.step hK hown hback hstep⟩
  exact hR.allDurable

/-- A revocation begins. -/
def revoking {D : Type} (p : D) (username : String) : List (Label D) :=
  [.enter p 0 (.revoke username), .act p 0]

/-- A revocation that is saved, before a restart. -/
theorem durable_saved : ∃ s : State Unit,
    .returned () 0 (.revoked "ada" 1) ∈ s.log ∧ .minted () [1] "ada" ∈ s.log ∧ Durable s := by
  obtain ⟨s, hrun, hs⟩ := Lts.exists_under_run_of_exec (step plainConfig) backed
    (fun _ _ => id) State.init
    (issuing () "ada" [1] ++ revoking () "ada" ++ saved () ++ [.crash (), .start () true])
    (fun s => .returned () 0 (.revoked "ada" 1) ∈ s.log ∧ .minted () [1] "ada" ∈ s.log)
    (by decide +kernel)
  obtain ⟨hreturned, hminted⟩ := of_decide_eq_true hs
  exact ⟨s, hreturned, hminted, durable hrun⟩

/-- A token that is given out; a revocation whose save raises, and its repetition, which
returns; a restart, and the token is accepted. -/
def forgotten : List (Label Unit) :=
  issuing () "ada" [1] ++ revoking () "ada" ++ [.fail () 0, .leave () 0] ++
    revoking () "ada" ++ [.leave () 0, .crash (), .start () true, .enter () 0 (.consume [1]),
      .act () 0]

/-- **A revocation is forgotten.** -/
theorem not_durable : ¬∀ (cfg : Config) (ls : List (Label Unit)) (s : State Unit),
    Lts.Run (Lts.ofStep (step cfg)) State.init ls s → Durable s := by
  intro h
  obtain ⟨s, hrun, hs⟩ := Lts.exists_run_of_exec (step plainConfig) State.init forgotten
    (fun s => s.log = [.accepted () [1] 0] ++ .returned () 0 (.revoked "ada" 0) ::
      [.returned () 0 .raised, .returned () 0 (.issued "ada" [1]),
        .saved () (.issued "ada" [1]), .minted () [1] "ada"]) (by decide +kernel)
  exact h plainConfig forgotten s hrun _ _ () 0 "ada" 0 () [1] (of_decide_eq_true hs) (by simp) ()
    0 (by simp)

end WebAuth

end OtamanBridge
