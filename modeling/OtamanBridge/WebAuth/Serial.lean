import OtamanBridge.WebAuth.RefreshStore

/-!
# One call at a time

The lock of a process keeps the calls of its threads apart. Where it also keeps apart all
calls there are, because there is one process or because the processes take turns, a save
moves into place what the same call has written
(`OtamanBridge.WebAuth.Own.step`), and a token that no copy of the map holds any more
stays away (`OtamanBridge.WebAuth.Gone.step`).
-/

namespace OtamanBridge

namespace WebAuth

open Py

variable {D : Type} {cfg : Config} {s s' : State D}

/-! ### Tokens that are still good -/

/-- The map holds the token, and it is not expired. -/
def Live (cfg : Config) (s : State D) (records : Records) (raw : Text) : Prop :=
  ∃ record, records.lookup (cfg.sha256 raw) = some record ∧ s.now < record.exp

/-- The file holds the token, and it is not expired. -/
def LiveFile (cfg : Config) (s : State D) (raw : Text) : Prop :=
  ∃ records, s.file = some (.records records) ∧ Live cfg s records raw

/-- No copy of the map holds the token, other than as an expired one. -/
structure Gone (cfg : Config) (s : State D) (raw : Text) : Prop where
  procs : ∀ p proc, s.procs p = some proc → ¬Live cfg s proc.records raw
  file : ¬LiveFile cfg s raw

variable {records : Records} {raw : Text}

theorem Live.of_keep {f : Record → Bool} (h : Live cfg s (Dict.keep f records) raw) :
    Live cfg s records raw := by
  obtain ⟨record, hfound, hlive⟩ := h
  exact ⟨record, (Dict.lookup_keep_eq_some.mp hfound).1, hlive⟩

theorem Live.of_erase {k : Text} (h : Live cfg s (records.erase k) raw) :
    Live cfg s records raw := by
  obtain ⟨record, hfound, hlive⟩ := h
  exact ⟨record, Dict.lookup_of_erase hfound, hlive⟩

/-- Another token that is put into the map changes nothing. -/
theorem Live.of_insert {new : Text} {record : Record} (hne : raw ≠ new)
    (h : Live cfg s (records.insert (cfg.sha256 new) record) raw) : Live cfg s records raw := by
  obtain ⟨record', hfound, hlive⟩ := h
  refine ⟨record', ?_, hlive⟩
  rwa [AList.lookup_insert_ne (cfg.sha256.injective.ne hne)] at hfound

/-- What was expired stays expired. -/
theorem Live.of_le (hnow : s.now ≤ s'.now) (h : Live cfg s' records raw) :
    Live cfg s records raw := by
  obtain ⟨record, hfound, hlive⟩ := h
  exact ⟨record, hfound, by omega⟩

/-- Pruning drops only what is expired. -/
theorem live_prune : Live cfg s (prune s.now records) raw ↔ Live cfg s records raw := by
  refine ⟨Live.of_keep, ?_⟩
  rintro ⟨record, hfound, hlive⟩
  exact ⟨record, Dict.lookup_keep_eq_some.mpr ⟨hfound, decide_eq_true hlive⟩, hlive⟩

/-- What is loaded is what is good in the file. -/
theorem live_load : Live cfg s (load s.now true s.file) raw ↔ LiveFile cfg s raw := by
  unfold load LiveFile
  rcases s.file with _ | (_ | records)
  · simp [Live]
  · simp [Live]
  · simp [live_prune]

theorem Live.of_load {readable : Bool} (h : Live cfg s (load s.now readable s.file) raw) :
    LiveFile cfg s raw := by
  rcases readable with _ | _
  · unfold load at h
    split at h <;> simp [Live] at h
  · exact live_load.mp h

theorem LiveFile.of_le (hnow : s.now ≤ s'.now) (hfile : s'.file = s.file)
    (h : LiveFile cfg s' raw) : LiveFile cfg s raw := by
  obtain ⟨records, hr, hlive⟩ := h
  exact ⟨records, hfile ▸ hr, hlive.of_le hnow⟩

/-! ### What the lock keeps apart -/

/-- At most one process has a thread in a call. -/
def Serial (s : State D) : Prop :=
  ∀ p q proc proc', s.procs p = some proc → s.procs q = some proc' → proc.holder.isSome →
    proc'.holder.isSome → p = q

/-- No other process has a thread in a call. -/
def Alone (s : State D) (p : D) : Prop :=
  ∀ q proc, q ≠ p → s.procs q = some proc → proc.holder = none

/-- What a call is about to move into place is what it has written. -/
def Own (s : State D) : Prop :=
  ∀ p proc, s.procs p = some proc → ∀ t outcome, proc.holder = some (t, .replacing outcome) →
    s.tmp = some (.records proc.records)

theorem serial_of_subsingleton [Subsingleton D] (s : State D) : Serial s :=
  fun p q _ _ _ _ _ _ => Subsingleton.elim p q

theorem Serial.alone (h : Serial s) {p : D} {t base : ℕ} {position : Position}
    (hat : s.At p t records position base) : Alone s p := by
  intro q proc hne hq
  rcases hholder : proc.holder with _ | holder
  · rfl
  · exact absurd (h q p _ _ hq hat (by simp [hholder]) rfl) hne

theorem own_init : Own (State.init : State D) :=
  fun _ _ h => absurd h (by simp [State.init])

variable [DecidableEq D] {l : Label D}

/-- A process that is written, while no other is in a call. -/
theorem Serial.of_update {p : D} {new : Option Proc} (halone : Alone s p)
    (hprocs : s'.procs = Function.update s.procs p new) : Serial s' := by
  have hother : ∀ q proc, s'.procs q = some proc → proc.holder.isSome → q = p := by
    rw [hprocs]
    refine Lts.forall_update (fun _ _ _ => rfl) fun q proc hne hq hholder => ?_
    rw [halone q proc hne hq] at hholder
    exact absurd hholder (by simp)
  intro q q' proc proc' hq hq' hholder hholder'
  rw [hother q proc hq hholder, hother q' proc' hq' hholder']

/-- Ending or starting a process takes up no lock. -/
theorem Serial.of_idle {p : D} {new : Option Proc} (h : Serial s)
    (hnew : ∀ proc, new = some proc → proc.holder = none)
    (hprocs : s'.procs = Function.update s.procs p new) : Serial s' := by
  have hother : ∀ q proc, s'.procs q = some proc → proc.holder.isSome →
      ∃ proc', s.procs q = some proc' ∧ proc'.holder.isSome := by
    rw [hprocs]
    refine Lts.forall_update (fun proc hproc hholder => ?_) fun q proc _ hq hholder =>
      ⟨proc, hq, hholder⟩
    rw [hnew proc hproc] at hholder
    exact absurd hholder (by simp)
  intro q q' proc proc' hq hq' hholder hholder'
  obtain ⟨proc₁, hq₁, hholder₁⟩ := hother q proc hq hholder
  obtain ⟨proc₂, hq₂, hholder₂⟩ := hother q' proc' hq' hholder'
  exact h q q' proc₁ proc₂ hq₁ hq₂ hholder₁ hholder₂

/-- **Calls stay apart**, as long as none begins while another process is in one. -/
theorem Serial.step (h : Serial s) (hstep : Step cfg s l s')
    (hl : ∀ p t call, l = .enter p t call → Alone s p) : Serial s' := by
  cases hstep with
  | tick d => exact h
  | start readable hdown =>
    refine h.of_idle ?_ rfl
    rintro proc ⟨⟩
    rfl
  | crash hup => exact h.of_idle (by simp) rfl
  | enter call hup => exact .of_update (hl _ _ _ rfl) rfl
  | leave hat =>
    refine h.of_idle ?_ rfl
    rintro proc ⟨⟩
    rfl
  | pass hat _ | drop hat _ _ | accept hat _ _ | strike hat _ | issue hat _ | rotate hat _
  | write hat | tear hat | replace hat _ | fail hat _ =>
    exact .of_update (h.alone hat) rfl

/-- **A call moves into place what it has written.** -/
theorem Own.step (hown : Own s) (h : Serial s) (hstep : Step cfg s l s') : Own s' := by
  -- the file is left alone, and the process that is written is not before `os.replace`
  have hother : ∀ {p : D} {new : Option Proc},
      s'.procs = Function.update s.procs p new → s'.tmp = s.tmp →
      (∀ proc, new = some proc → ∀ t outcome, proc.holder ≠ some (t, .replacing outcome)) →
      Own s' := by
    intro p new hprocs htmp hnew
    unfold Own
    rw [hprocs, htmp]
    exact Lts.forall_update (fun proc hproc t outcome heq => absurd heq (hnew proc hproc t outcome))
      fun q proc _ hq => hown q proc hq
  -- the file is written, and no other process is in a call
  have halone : ∀ {p : D} {t base : ℕ} {records : Records} {position : Position} {proc' : Proc},
      s.At p t records position base → s'.procs = Function.update s.procs p (some proc') →
      (∀ t outcome, proc'.holder = some (t, .replacing outcome) →
        s'.tmp = some (.records proc'.records)) → Own s' := by
    intro p t base records position proc' hat hprocs hnew
    unfold Own
    rw [hprocs]
    refine Lts.forall_update ?_ fun q proc hne hq t outcome heq => ?_
    · rintro proc ⟨⟩
      exact hnew
    · exact absurd ((h.alone hat q proc hne hq).symm.trans heq) (by simp)
  cases hstep with
  | tick d => exact hown
  | start readable hdown =>
    refine hother rfl rfl ?_
    rintro proc ⟨⟩
    simp
  | crash hup => exact hother rfl rfl (by simp)
  | strike hat hn =>
    refine hother rfl rfl ?_
    rintro proc ⟨⟩ t outcome heq
    split_ifs at heq <;> simp at heq
  | enter _ _ | pass _ _ | drop _ _ _ | accept _ _ _ | issue _ _ | rotate _ _ | fail _ _
  | leave _ =>
    refine hother rfl rfl ?_
    rintro proc ⟨⟩
    simp
  | write hat => exact halone hat rfl fun _ _ _ => rfl
  | tear hat | replace hat _ => exact halone hat rfl (by simp)

/-! ### What is gone -/

/-- A process that is written with no more good tokens than it had. -/
theorem Gone.of_update (h : Gone cfg s raw) {p : D} {new : Option Proc} (hnow : s.now ≤ s'.now)
    (hprocs : s'.procs = Function.update s.procs p new)
    (hnew : ∀ proc, new = some proc → ¬Live cfg s' proc.records raw)
    (hfile : s'.file = s.file) : Gone cfg s' raw := by
  refine ⟨?_, fun hlive => h.file (hlive.of_le hnow hfile)⟩
  rw [hprocs]
  exact Lts.forall_update (P := fun _ proc => ¬Live cfg s' proc.records raw) hnew
    fun q proc _ hq hlive => h.procs q proc hq (hlive.of_le hnow)

/-- **What is gone stays gone**: no later step brings a token back that was made before. -/
theorem Gone.step (h : Gone cfg s raw) (hown : Own s) (hmade : s.origin raw ≠ none)
    (hstep : Step cfg s l s') : Gone cfg s' raw := by
  have hkept := hstep.now_le
  cases hstep with
  | tick d =>
    exact ⟨fun q proc hq hlive => h.procs q proc hq (hlive.of_le hkept),
      fun hlive => h.file (hlive.of_le hkept rfl)⟩
  | start readable hdown =>
    refine h.of_update hkept rfl ?_ rfl
    rintro proc ⟨⟩ hlive
    exact h.file hlive.of_load
  | crash hup => exact h.of_update hkept rfl (by simp) rfl
  | enter call hup =>
    refine h.of_update hkept rfl ?_ rfl
    rintro proc ⟨⟩ hlive
    dsimp only at hlive
    split_ifs at hlive
    · exact h.procs _ _ hup hlive.of_keep
    · exact h.procs _ _ hup hlive
  | issue hat hnew | rotate hat hnew =>
    refine h.of_update hkept rfl ?_ rfl
    rintro proc ⟨⟩ hlive
    refine h.procs _ _ hat (hlive.of_insert ?_)
    rintro rfl
    exact hmade hnew
  | drop hat _ _ | accept hat _ _ =>
    refine h.of_update hkept rfl ?_ rfl
    rintro proc ⟨⟩ hlive
    exact h.procs _ _ hat hlive.of_erase
  | strike hat _ =>
    refine h.of_update hkept rfl ?_ rfl
    rintro proc ⟨⟩ hlive
    exact h.procs _ _ hat hlive.of_keep
  | @replace p t base records outcome file hat htmp =>
    refine ⟨?_, ?_⟩
    · refine Lts.forall_update (P := fun _ proc => ¬Live cfg _ proc.records raw) ?_
        fun q proc _ hq => h.procs q proc hq
      rintro proc ⟨⟩ hlive
      exact h.procs _ _ hat hlive
    · rintro ⟨r, hr, hlive⟩
      obtain rfl : r = records := by
        rw [hown _ _ hat _ _ rfl] at htmp
        exact File.records.inj (Option.some.inj (hr.symm.trans htmp.symm))
      exact h.procs _ _ hat hlive
  | pass hat _ | write hat | tear hat | fail hat _ | leave hat =>
    refine h.of_update hkept rfl ?_ rfl
    rintro proc ⟨⟩ hlive
    exact h.procs _ _ hat hlive

end WebAuth

end OtamanBridge
