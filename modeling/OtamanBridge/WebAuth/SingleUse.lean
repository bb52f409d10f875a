import OtamanBridge.WebAuth.Serial

/-!
# A refresh token is good for one exchange

In every run of one store, with any calls from any threads, saves that raise, crashes and
restarts: no token is exchanged twice, of the tokens of one login at most one is accepted,
a token yields the user its login was for, and none is accepted once it is expired
(`OtamanBridge.WebAuth.singleUse`).

The file may lag behind the map, so a token that was taken out of the map may come back
with a restart. It does so only where the save raised or was cut short, and then the
exchange has not been answered.
-/

namespace OtamanBridge

namespace WebAuth

open Py

/-! ### What is used, and what is accepted -/

/-- The token that is exchanged. -/
def Outcome.spent : Outcome → Option Text
  | .consumed raw _ _ => some raw
  | _ => none

/-- The token that a call is exchanging. -/
def Position.spends : Position → Option Text
  | .taken raw _ => some raw
  | .saving o => o.spent
  | .replacing o => o.spent
  | .leaving o => o.spent
  | .entered _ => none

/-- The call has saved what it had to. -/
def Position.leaves : Position → Bool
  | .leaving _ => true
  | _ => false

variable {D : Type}

/-- The token that was exchanged, by a call that returned. -/
def Event.spends : Event D → Option Text
  | .returned _ _ o => o.spent
  | _ => none

/-- The tokens that were exchanged, the last one first. -/
def uses (log : List (Event D)) : List Text := log.filterMap Event.spends

/-- The token would be accepted now. -/
def Accepts (cfg : Config) (s : State D) (p : D) (raw : Text) : Prop :=
  ∃ proc, s.procs p = some proc ∧ Live cfg s proc.records raw

/-- The two tokens descend from one login. -/
def SameLogin (s : State D) (raw raw' : Text) : Prop :=
  ∃ o o', s.origin raw = some o ∧ s.origin raw' = some o' ∧ o.login = o'.login

/-- **Tokens are single-use.** -/
structure SingleUse (cfg : Config) (s : State D) : Prop where
  once : (uses s.log).Nodup
  login : ∀ p raw raw', Accepts cfg s p raw → Accepts cfg s p raw' → SameLogin s raw raw' →
    raw = raw'
  username : ∀ p t raw username new, .returned p t (.consumed raw username new) ∈ s.log →
    ∃ o, s.origin raw = some o ∧ o.username = username
  expiry : ∀ p raw time, .accepted p raw time ∈ s.log →
    ∃ o, s.origin raw = some o ∧ time < o.exp

variable {cfg : Config} {s s' : State D} {records : Records} {raw : Text}

/-! ### One token of each login -/

/-- No two tokens of one login have a record. -/
def Single (cfg : Config) (s : State D) (records : Records) : Prop :=
  ∀ raw raw', SameLogin s raw raw' → (records.lookup (cfg.sha256 raw)).isSome →
    (records.lookup (cfg.sha256 raw')).isSome → raw = raw'

/-- No token of this login has a record. -/
def NoneOf (cfg : Config) (s : State D) (raw : Text) (records : Records) : Prop :=
  ∀ raw', SameLogin s raw raw' → records.lookup (cfg.sha256 raw') = none

/-- What is known of the logins. -/
structure Logins (cfg : Config) (s : State D) : Prop where
  procs : ∀ p proc, s.procs p = some proc → Single cfg s proc.records ∧
    ∀ t raw record, proc.holder = some (t, .taken raw record) → NoneOf cfg s raw proc.records
  file : ∀ r, s.file = some (.records r) → Single cfg s r
  tmp : ∀ r, s.tmp = some (.records r) → Single cfg s r
  rooted : ∀ raw o, s.origin raw = some o → s.origin o.login ≠ none

theorem logins_init : Logins cfg (State.init : State D) :=
  ⟨fun _ _ h => absurd h (by simp [State.init]), fun _ h => absurd h (by simp [State.init]),
    fun _ h => absurd h (by simp [State.init]), fun _ _ h => absurd h (by simp [State.init])⟩

/-- A part of the map has a record where the whole has one. -/
theorem Single.subset {records' : Records} (h : Single cfg s records)
    (hsub : ∀ k record, records'.lookup k = some record → records.lookup k = some record) :
    Single cfg s records' := by
  have hsome : ∀ k, (records'.lookup k).isSome → (records.lookup k).isSome := by
    intro k hk
    obtain ⟨record, hrecord⟩ := Option.isSome_iff_exists.mp hk
    rw [hsub k record hrecord]
    rfl
  exact fun raw raw' hlogin hraw hraw' => h raw raw' hlogin (hsome _ hraw) (hsome _ hraw')

/-- Without the one token of a login, there is none of it. -/
theorem Single.erase (h : Single cfg s records)
    (hraw : (records.lookup (cfg.sha256 raw)).isSome) :
    NoneOf cfg s raw (records.erase (cfg.sha256 raw)) := by
  intro raw' hlogin
  rcases eq_or_ne raw' raw with rfl | hne
  · exact AList.lookup_erase ..
  · rw [AList.lookup_erase_ne (cfg.sha256.injective.ne hne)]
    by_contra hsome
    exact hne (h raw raw' hlogin hraw (Option.isSome_iff_ne_none.mpr hsome)).symm

/-- A new token of a login of which there is none. -/
theorem Single.insert {new : Text} {record : Record} (h : Single cfg s' records)
    (hnone : NoneOf cfg s' new records) :
    Single cfg s' (records.insert (cfg.sha256 new) record) := by
  intro raw raw' hlogin hraw hraw'
  rcases eq_or_ne raw new with rfl | hne
  · by_contra hne
    rw [AList.lookup_insert_ne (cfg.sha256.injective.ne (Ne.symm hne)), hnone raw' hlogin] at hraw'
    exact absurd hraw' (by simp)
  rw [AList.lookup_insert_ne (cfg.sha256.injective.ne hne)] at hraw
  rcases eq_or_ne raw' new with rfl | hne'
  · obtain ⟨o, o', ho, ho', heq⟩ := hlogin
    rw [hnone raw ⟨o', o, ho', ho, heq.symm⟩] at hraw
    exact absurd hraw (by simp)
  rw [AList.lookup_insert_ne (cfg.sha256.injective.ne hne')] at hraw'
  exact h raw raw' hlogin hraw hraw'

theorem single_empty : Single cfg s ∅ := by
  intro raw raw' _ hraw
  exact absurd hraw (by simp)

theorem Single.load (h : ∀ r, s.file = some (.records r) → Single cfg s r) (now : ℤ)
    (readable : Bool) : Single cfg s (load now readable s.file) := by
  unfold WebAuth.load
  split
  next r hr =>
    split_ifs
    · exact (h r hr).subset fun _ _ hk => (Dict.lookup_keep_eq_some.mp hk).1
    · exact single_empty
  · exact single_empty

variable [DecidableEq D] {l : Label D}

/-- A token with a record was made, so that a step does not change its login. -/
theorem origin_of_lookup (hsound : Sound cfg s records) (hstep : Step cfg s l s') {o : Origin}
    (ho : s'.origin raw = some o) (hsome : (records.lookup (cfg.sha256 raw)).isSome) :
    s.origin raw = some o := by
  obtain ⟨record, hrecord⟩ := Option.isSome_iff_exists.mp hsome
  obtain ⟨o', ho', -⟩ := hsound.lookup hrecord
  rw [ho', ← ho, hstep.origin ho']

theorem Single.mono (h : Single cfg s records) (hsound : Sound cfg s records)
    (hstep : Step cfg s l s') : Single cfg s' records := by
  rintro raw raw' ⟨o, o', ho, ho', hlogin⟩ hraw hraw'
  exact h raw raw' ⟨o, o', origin_of_lookup hsound hstep ho hraw,
    origin_of_lookup hsound hstep ho' hraw', hlogin⟩ hraw hraw'

theorem NoneOf.mono (h : NoneOf cfg s raw records) (hmade : s.origin raw ≠ none)
    (hsound : Sound cfg s records) (hstep : Step cfg s l s') : NoneOf cfg s' raw records := by
  rintro raw' ⟨o, o', ho, ho', hlogin⟩
  by_contra hne
  have hsome := Option.isSome_iff_ne_none.mpr hne
  refine hne (h raw' ⟨o, o', ?_, origin_of_lookup hsound hstep ho' hsome, hlogin⟩)
  obtain ⟨o₁, ho₁⟩ := Option.ne_none_iff_exists'.mp hmade
  rw [ho₁, ← ho, hstep.origin ho₁]

/-- One step writes one process and the two files. -/
theorem Logins.of_move (hI : Logins cfg s) (hK : Known cfg s) (hstep : Step cfg s l s') {p : D}
    {new : Option Proc} (hprocs : s'.procs = Function.update s.procs p new)
    (hnew : ∀ proc, new = some proc → Single cfg s' proc.records ∧
      ∀ t raw record, proc.holder = some (t, .taken raw record) → NoneOf cfg s' raw proc.records)
    (hfile : ∀ r, s'.file = some (.records r) →
      s.file = some (.records r) ∨ s.tmp = some (.records r))
    (htmp : ∀ r, s'.tmp = some (.records r) → s.tmp = some (.records r) ∨ Single cfg s' r)
    (hrooted : ∀ raw o, s'.origin raw = some o → s'.origin o.login ≠ none) : Logins cfg s' := by
  have holdtmp : ∀ r, s.tmp = some (.records r) → Single cfg s' r := fun r hr =>
    (hI.tmp r hr).mono (hK.tmp r hr) hstep
  refine ⟨?_, fun r hr => ?_, fun r hr => (htmp r hr).elim (holdtmp r) id, hrooted⟩
  · rw [hprocs]
    refine Lts.forall_update hnew fun q proc _ hq => ?_
    obtain ⟨hsingle, htaken⟩ := hI.procs q proc hq
    have hknown := hK.procs q proc hq
    refine ⟨hsingle.mono hknown.sound hstep, fun t raw record ht => ?_⟩
    obtain ⟨o, ho, -⟩ := hknown.taken t raw record ht
    exact (htaken t raw record ht).mono (by simp [ho]) hknown.sound hstep
  · exact (hfile r hr).elim (fun h => (hI.file r h).mono (hK.file r h) hstep) (holdtmp r)

/-- A token is made, of a login that has none: the first of a new login, or the next one. -/
theorem Logins.of_mint (hI : Logins cfg s) (hK : Known cfg s) {p : D} {t base : ℕ} {new : Text}
    {position : Position} {username : String} {outcome : Outcome} {o : Origin}
    (hat : s.At p t records position base) (hnew : s.origin new = none)
    (hstep : Step cfg s l (s.mint p cfg t records base new username (some o) outcome))
    (hlogin : o.login = new ∨ s.origin o.login ≠ none)
    (hnone : ∀ raw o', s.origin raw = some o' → o'.login = o.login →
      records.lookup (cfg.sha256 raw) = none) :
    Logins cfg (s.mint p cfg t records base new username (some o) outcome) := by
  have hself : (s.mint p cfg t records base new username (some o) outcome).origin new = some o :=
    Function.update_self ..
  have hmade : ∀ raw, s.origin raw ≠ none →
      (s.mint p cfg t records base new username (some o) outcome).origin raw ≠ none := by
    intro raw hraw
    obtain ⟨o', ho'⟩ := Option.ne_none_iff_exists'.mp hraw
    simp [hstep.origin ho']
  refine hI.of_move hK hstep rfl ?_ (fun r => .inl) (fun r => .inl) ?_
  · rintro proc ⟨⟩
    refine ⟨((hI.procs _ _ hat).1.mono (hK.procs _ _ hat).sound hstep).insert ?_, by simp⟩
    rintro raw ⟨o₁, o', ho₁, ho', heq⟩
    obtain rfl := Option.some.inj (ho₁.symm.trans hself)
    by_contra hne
    exact hne (hnone raw o' (origin_of_lookup (hK.procs _ _ hat).sound hstep ho'
      (Option.isSome_iff_ne_none.mpr hne)) heq.symm)
  · intro raw o' ho'
    rcases eq_or_ne raw new with rfl | hne
    · obtain rfl := Option.some.inj (ho'.symm.trans hself)
      rcases hlogin with heq | hlogin
      · rw [heq, hself]
        simp
      · exact hmade _ hlogin
    · exact hmade _ (hI.rooted raw o' (((Function.update_of_ne hne ..).symm.trans ho')))

theorem Logins.step (hI : Logins cfg s) (hK : Known cfg s) (h : Step cfg s l s') :
    Logins cfg s' := by
  have hstep := h
  -- a process that is written with a part of what it had
  have hpart : ∀ {p : D} {holder holder' : Option (ℕ × Position)} {base base' : ℕ}
      {records records' : Records} {new : Option Proc},
      s.procs p = some ⟨records, holder, base⟩ → new = some ⟨records', holder', base'⟩ →
      (∀ k record, records'.lookup k = some record → records.lookup k = some record) →
      (∀ t raw record, holder' = some (t, .taken raw record) → NoneOf cfg s' raw records') →
      ∀ proc, new = some proc → Single cfg s' proc.records ∧ ∀ t raw record,
        proc.holder = some (t, .taken raw record) → NoneOf cfg s' raw proc.records := by
    rintro p holder holder' base base' records records' _ hat rfl hsub htaken proc ⟨⟩
    exact ⟨((hI.procs _ _ hat).1.mono (hK.procs _ _ hat).sound hstep).subset hsub, htaken⟩
  have hsame : ∀ {records : Records} (k : Text) (record : Record),
      records.lookup k = some record → records.lookup k = some record := fun _ _ => id
  cases h with
  | tick d => exact ⟨hI.procs, hI.file, hI.tmp, hI.rooted⟩
  | start readable hdown =>
    refine hI.of_move hK hstep rfl ?_ (fun r => .inl) (fun r => .inl) hI.rooted
    rintro proc ⟨⟩
    exact ⟨Single.load hI.file s.now readable, by simp⟩
  | crash hup => exact hI.of_move hK hstep rfl (by simp) (fun r => .inl) (fun r => .inl) hI.rooted
  | enter call hup =>
    refine hI.of_move hK hstep rfl (hpart hup rfl ?_ (by simp)) (fun r => .inl) (fun r => .inl)
      hI.rooted
    intro k record hk
    split_ifs at hk
    · exact (Dict.lookup_keep_eq_some.mp hk).1
    · exact hk
  | pass hat _ | fail hat _ =>
    exact hI.of_move hK hstep rfl (hpart hat rfl hsame (by simp)) (fun r => .inl) (fun r => .inl)
      hI.rooted
  | drop hat _ _ =>
    exact hI.of_move hK hstep rfl (hpart hat rfl (fun _ _ hk => Dict.lookup_of_erase hk) (by simp))
      (fun r => .inl) (fun r => .inl) hI.rooted
  | accept hat hfound hlive =>
    refine hI.of_move hK hstep rfl (hpart hat rfl (fun _ _ hk => Dict.lookup_of_erase hk) ?_)
      (fun r => .inl) (fun r => .inl) hI.rooted
    rintro t raw record ⟨⟩
    exact (hI.procs _ _ hat).1.erase (by rw [hfound]; rfl)
  | strike hat hn =>
    refine hI.of_move hK hstep rfl (hpart hat rfl
      (fun _ _ hk => (Dict.lookup_keep_eq_some.mp hk).1) ?_) (fun r => .inl) (fun r => .inl)
      hI.rooted
    intro t raw record heq
    split_ifs at heq <;> simp at heq
  | @issue p t base records username new hat hnew =>
    refine hI.of_mint hK hat hnew hstep (.inl rfl) fun raw o' ho' heq => ?_
    have hrooted := hI.rooted raw o' ho'
    rw [show o'.login = new from heq] at hrooted
    exact absurd hnew hrooted
  | @rotate p t base records raw new record hat hnew =>
    obtain ⟨o, ho, -⟩ := (hK.procs _ _ hat).taken _ _ _ rfl
    simp only [ho, Option.map_some] at hstep ⊢
    exact hI.of_mint hK hat hnew hstep (.inr (hI.rooted raw o ho)) fun raw' o' ho' heq =>
      (hI.procs _ _ hat).2 _ _ _ rfl raw' ⟨o, o', ho, ho', heq.symm⟩
  | write hat =>
    refine hI.of_move hK hstep rfl (hpart hat rfl hsame (by simp)) (fun r => .inl) ?_ hI.rooted
    rintro r ⟨⟩
    exact .inr ((hI.procs _ _ hat).1.mono (hK.procs _ _ hat).sound hstep)
  | tear hat =>
    exact hI.of_move hK hstep rfl (hpart hat rfl hsame (by simp)) (fun r => .inl) (by simp)
      hI.rooted
  | replace hat htmp =>
    refine hI.of_move hK hstep rfl (hpart hat rfl hsame (by simp)) ?_ (by simp) hI.rooted
    rintro r ⟨⟩
    exact .inr htmp
  | leave hat =>
    exact hI.of_move hK hstep rfl (hpart hat rfl hsame (by simp)) (fun r => .inl) (fun r => .inl)
      hI.rooted

/-! ### No token is exchanged twice

Here there is one process, so that what it does not hold and the file does not hold is
gone. -/

section OneStore

variable {D : Type} {s s' : State D}

/-- A call that is exchanging a token: it was not exchanged before, and once the call has
saved, it is in the file no more. -/
def Pending (cfg : Config) (s : State D) (proc : Proc) : Prop :=
  ∀ t position raw, proc.holder = some (t, position) → position.spends = some raw →
    raw ∉ uses s.log ∧ ¬Live cfg s proc.records raw ∧ (position.leaves → ¬LiveFile cfg s raw)

/-- What is known of the tokens that were exchanged. -/
structure Once (cfg : Config) (s : State D) : Prop where
  nodup : (uses s.log).Nodup
  gone : ∀ raw ∈ uses s.log, Gone cfg s raw
  pending : ∀ p proc, s.procs p = some proc → Pending cfg s proc

theorem once_init : Once cfg (State.init : State D) :=
  ⟨List.nodup_nil, fun _ h => absurd h (by simp [uses, State.init]),
    fun _ _ h => absurd h (by simp [State.init])⟩

theorem origin_ne_none_of_uses (hK : Known cfg s) (h : raw ∈ uses s.log) :
    s.origin raw ≠ none := by
  obtain ⟨e, he, hspends⟩ := List.mem_filterMap.mp h
  cases e with
  | returned p t outcome =>
    cases outcome with
    | consumed raw' username new =>
      obtain rfl := Option.some.inj hspends
      obtain ⟨o, ho, -⟩ := hK.log _ he _ _ _ rfl
      simp [ho]
    | _ => exact absurd hspends (by simp [Event.spends, Outcome.spent])
  | _ => exact absurd hspends (by simp [Event.spends])

theorem pending_of_spends_eq_none {records : Records} {holder : Option (ℕ × Position)} {base : ℕ}
    (h : ∀ t position, holder = some (t, position) → position.spends = none) :
    Pending cfg s ⟨records, holder, base⟩ := by
  intro t position raw ht hspends
  exact absurd ((h t position ht).symm.trans hspends) (by simp)

variable [DecidableEq D] [Subsingleton D] {l : Label D}

/-- A step that answers no exchange: what was exchanged stays gone, and the process that
moves is looked at. -/
theorem Once.of_move (hI : Once cfg s) (hK : Known cfg s) (hown : Own s)
    (hstep : Step cfg s l s') {p : D} {new : Option Proc}
    (hprocs : s'.procs = Function.update s.procs p new) (hlog : uses s'.log = uses s.log)
    (hnew : ∀ proc, new = some proc → Pending cfg s' proc) : Once cfg s' := by
  refine ⟨hlog ▸ hI.nodup, fun raw hraw => ?_, ?_⟩
  · rw [hlog] at hraw
    exact (hI.gone raw hraw).step hown (origin_ne_none_of_uses hK hraw) hstep
  · rw [hprocs]
    exact Lts.forall_update (P := fun _ proc => Pending cfg s' proc) hnew
      fun q proc hne _ => absurd (Subsingleton.elim q p) hne

theorem Once.step (hI : Once cfg s) (hK : Known cfg s) (hown : Own s) (h : Step cfg s l s') :
    Once cfg s' := by
  have hstep := h
  -- the process is not exchanging a token
  have hother : ∀ {p : D} {records : Records} {holder : Option (ℕ × Position)} {base : ℕ},
      s'.procs = Function.update s.procs p (some ⟨records, holder, base⟩) →
      uses s'.log = uses s.log →
      (∀ t position, holder = some (t, position) → position.spends = none) → Once cfg s' := by
    intro p records holder base hprocs hlog hspends
    refine hI.of_move hK hown hstep hprocs hlog ?_
    rintro proc ⟨⟩
    exact pending_of_spends_eq_none hspends
  cases h with
  | tick d =>
    refine ⟨hI.nodup, fun raw hraw => (hI.gone raw hraw).step hown
      (origin_ne_none_of_uses hK hraw) hstep, fun p proc hp t position raw ht hspends => ?_⟩
    obtain ⟨huses, hlive, hfile⟩ := hI.pending p proc hp t position raw ht hspends
    exact ⟨huses, fun h => hlive (h.of_le hstep.now_le),
      fun hleaves h => hfile hleaves (h.of_le hstep.now_le rfl)⟩
  | start readable hdown => exact hother rfl rfl (by simp)
  | crash hup => exact hI.of_move hK hown hstep rfl rfl (by simp)
  | enter call hup => exact hother rfl rfl (by simp [Position.spends])
  | @pass p t base records call outcome hat hquiet =>
    refine hother rfl rfl ?_
    rintro t position ⟨⟩
    cases outcome <;> simp [Outcome.quiet] at hquiet <;> rfl
  | drop hat _ _ => exact hother rfl rfl (by simp [Position.spends, Outcome.spent])
  | @accept p t base records raw hat record hfound hlive =>
    refine hI.of_move hK hown hstep rfl rfl ?_
    rintro proc ⟨⟩ t position raw' ⟨⟩ hspends
    obtain rfl := Option.some.inj hspends
    refine ⟨fun huses => ?_, fun h => ?_, by simp [Position.leaves]⟩
    · exact (hI.gone raw huses).procs _ _ hat ⟨record, hfound, hlive⟩
    · obtain ⟨record', hfound', -⟩ := h
      rw [AList.lookup_erase] at hfound'
      exact absurd hfound' (by simp)
  | strike hat hn =>
    refine hother rfl rfl ?_
    rintro t position ⟨⟩
    split_ifs <;> rfl
  | issue hat hnew => exact hother rfl rfl (by simp [Position.spends, Outcome.spent])
  | @rotate p t base records raw new record hat hnew =>
    refine hI.of_move hK hown hstep rfl rfl ?_
    rintro proc ⟨⟩ t position raw' ⟨⟩ hspends
    obtain rfl := Option.some.inj hspends
    obtain ⟨huses, hlive, -⟩ := hI.pending _ _ hat _ _ raw rfl rfl
    obtain ⟨o, ho, -⟩ := (hK.procs _ _ hat).taken _ _ _ rfl
    refine ⟨huses, fun h => hlive (h.of_insert ?_), by simp [Position.leaves]⟩
    rintro rfl
    exact absurd (ho.symm.trans hnew) (by simp)
  | write hat =>
    refine hI.of_move hK hown hstep rfl rfl ?_
    rintro proc ⟨⟩ t position raw ⟨⟩ hspends
    obtain ⟨huses, hlive, -⟩ := hI.pending _ _ hat _ _ raw rfl hspends
    exact ⟨huses, hlive, by simp [Position.leaves]⟩
  | tear hat => exact hother rfl rfl (by simp [Position.spends, Outcome.spent])
  | replace hat htmp =>
    refine hI.of_move hK hown hstep rfl rfl ?_
    rintro proc ⟨⟩ t position raw ⟨⟩ hspends
    obtain ⟨huses, hlive, -⟩ := hI.pending _ _ hat _ _ raw rfl hspends
    refine ⟨huses, hlive, fun _ => ?_⟩
    rintro ⟨r, hr, hfile⟩
    obtain rfl := File.records.inj (Option.some.inj (hr.symm.trans
      (htmp.symm.trans (hown _ _ hat _ _ rfl))))
    exact hlive hfile
  | fail hat _ => exact hother rfl rfl (by simp [Position.spends, Outcome.spent])
  | @leave p t base records outcome hat =>
    rcases hspent : outcome.spent with _ | raw
    · refine hother rfl ?_ (by simp)
      exact List.filterMap_cons_none hspent
    · -- the exchange is answered
      obtain ⟨huses, hlive, hfile⟩ := hI.pending _ _ hat _ _ raw rfl hspent
      have hlog : uses ((s.setProc p (some ⟨records, none, base⟩)).note
          (.returned p t outcome)).log = raw :: uses s.log := List.filterMap_cons_some hspent
      refine ⟨hlog ▸ List.nodup_cons.mpr ⟨huses, hI.nodup⟩, fun raw' hraw' => ?_, ?_⟩
      · rw [hlog] at hraw'
        rcases List.mem_cons.mp hraw' with rfl | hraw'
        · refine ⟨Lts.forall_update (P := fun _ (proc : Proc) => ¬Live cfg _ proc.records raw')
            ?_ fun q proc hne _ => absurd (Subsingleton.elim q p) hne, hfile rfl⟩
          rintro proc ⟨⟩
          exact hlive
        · exact (hI.gone raw' hraw').step hown (origin_ne_none_of_uses hK hraw') hstep
      · refine Lts.forall_update (P := fun _ proc => Pending cfg _ proc) ?_
          fun q proc hne _ => absurd (Subsingleton.elim q p) hne
        rintro proc ⟨⟩
        exact pending_of_spends_eq_none (by simp)

end OneStore

/-- **Refresh tokens are single-use**: in every run of one store, each token is exchanged at
most once, each login has at most one token that is accepted, a token yields the user it was
made for, and none is accepted when it is expired. -/
theorem singleUse {s : State Unit} {ls : List (Label Unit)}
    (h : Lts.Run (Lts.ofStep (step cfg)) State.init ls s) : SingleUse cfg s := by
  obtain ⟨hK, hL, hown, hO⟩ : Known cfg s ∧ Logins cfg s ∧ Own s ∧ Once cfg s := by
    refine h.inv_state (I := fun s => Known cfg s ∧ Logins cfg s ∧ Own s ∧ Once cfg s)
      ⟨known_init, logins_init, own_init, once_init⟩ ?_
    rintro a l b ⟨hK, hL, hown, hO⟩ hl
    have hstep := Step.of_step hl
    exact ⟨hK.step hstep, hL.step hK hstep, hown.step (serial_of_subsingleton a) hstep,
      hO.step hK hown hstep⟩
  refine ⟨hO.nodup, ?_, fun p t raw username new he => hK.log _ he _ _ _ rfl,
    fun p raw time he => hK.log _ he⟩
  rintro p raw raw' ⟨proc, hproc, record, hfound, -⟩ ⟨proc', hproc', record', hfound', -⟩ hlogin
  obtain rfl := Option.some.inj (hproc.symm.trans hproc')
  exact (hL.procs p proc hproc).1 raw raw' hlogin (by simp [hfound]) (by simp [hfound'])

/-- A store whose tokens are their own hash. -/
def plainConfig : Config := ⟨defaultRefreshTtl, Function.Embedding.refl _⟩

/-- A save that goes well, and the end of the call. -/
def saved {D : Type} (p : D) : List (Label D) := [.write p 0, .replace p 0, .leave p 0]

/-- A process starts, and gives out a token. -/
def issuing {D : Type} (p : D) (username : String) (new : Text) : List (Label D) :=
  [.start p true, .enter p 0 (.issue username), .draw p 0 new] ++ saved p

/-- A token is exchanged. -/
def exchanging {D : Type} (p : D) (raw new : Text) : List (Label D) :=
  [.enter p 0 (.consume raw), .act p 0, .draw p 0 new] ++ saved p

/-- A token that is exchanged after a restart. -/
theorem singleUse_exchange : ∃ s : State Unit, uses s.log = [[1]] ∧ SingleUse plainConfig s := by
  obtain ⟨s, hrun, hs⟩ := Lts.exists_run_of_exec (step plainConfig) State.init
    (issuing () "ada" [1] ++ [.crash (), .start () true] ++ exchanging () [1] [2])
    (fun s => uses s.log = [[1]]) (by decide +kernel)
  exact ⟨s, of_decide_eq_true hs, singleUse hrun⟩

end WebAuth

end OtamanBridge
