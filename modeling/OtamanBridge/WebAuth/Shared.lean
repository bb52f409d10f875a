import OtamanBridge.WebAuth.Revocation

/-!
# A store that several daemons share

Daemons whose endpoint files lie in one directory keep their tokens in one file. Each has
its own map, loads it once, and writes all of it back: what the others have saved in
between is lost, and what they have consumed or revoked is still accepted
(`OtamanBridge.WebAuth.not_consistent`). The store stays consistent in every run in which
the daemons take turns (`OtamanBridge.WebAuth.InTurn`): a call begins when no other daemon
is in one, at a daemon that has loaded or saved the file after every other did
(`OtamanBridge.WebAuth.consistent`).

Then the map of such a daemon agrees with the file, but for what the call it is in has
done so far (`OtamanBridge.WebAuth.InStep`).
-/

namespace OtamanBridge

namespace WebAuth

open Py

variable {D : Type}

/-! ### What the daemons owe each other -/

/-- The token a call has made. -/
def Outcome.made : Outcome → Option Text
  | .issued _ new => some new
  | .consumed _ _ new => some new
  | _ => none

/-- The call has ended the token: it was exchanged, or revoked after it was made. -/
def Outcome.Ends (raw : Text) (earlier : List (Event D)) (o : Outcome) : Prop :=
  (∃ username new, o = .consumed raw username new) ∨
    ∃ username n q, o = .revoked username n ∧ .minted q raw username ∈ earlier

/-- A call has returned the token. -/
def GivenOut (log : List (Event D)) (raw : Text) : Prop :=
  ∃ p t o, .returned p t o ∈ log ∧ o.made = some raw

/-- A call that has ended the token has saved. -/
def Ended (log : List (Event D)) (raw : Text) : Prop :=
  ∃ later earlier p o, log = later ++ .saved p o :: earlier ∧ o.Ends raw earlier

/-- **The store is consistent**: a token that was given out stays in the file until it
expires or is ended; and once a call that has ended it returned, it is not in the file, and
no daemon accepts it. -/
structure Consistent (cfg : Config) (s : State D) : Prop where
  issued : ∀ raw o, GivenOut s.log raw → s.origin raw = some o → s.now < o.exp →
    LiveFile cfg s raw ∨ Ended s.log raw
  ended : ∀ later earlier p t o raw, s.log = later ++ .returned p t o :: earlier →
    o.Ends raw earlier → ¬LiveFile cfg s raw ∧ ∀ q time, .accepted q raw time ∉ later

/-- The condition on a step: a call begins when no other daemon is in one, at a daemon that
was the last to load or save the file; and every file operation goes well. -/
def InTurn (s : State D) : Label D → Prop
  | .enter p _ _ => Alone s p ∧ ∀ proc, s.procs p = some proc → proc.base = s.version
  | .start _ readable => readable = true
  | .tear .. => False
  | .fail .. => False
  | _ => True

variable {cfg : Config} {s s' : State D} {records : Records} {raw : Text}

/-! ### What is logged -/

theorem GivenOut.of_cons {x : Event D} {log : List (Event D)} (h : GivenOut (x :: log) raw)
    (hx : ∀ p t o, x = .returned p t o → o.made ≠ some raw) : GivenOut log raw := by
  obtain ⟨p, t, o, hin, hmade⟩ := h
  rcases List.mem_cons.mp hin with rfl | hin
  · exact absurd hmade (hx p t o rfl)
  · exact ⟨p, t, o, hin, hmade⟩

theorem Ended.cons {log : List (Event D)} (h : Ended log raw) (x : Event D) :
    Ended (x :: log) raw := by
  obtain ⟨later, earlier, p, o, rfl, hends⟩ := h
  exact ⟨x :: later, earlier, p, o, rfl, hends⟩

/-! ### The map of a daemon and the file -/

/-- The call takes the token out. -/
def Outcome.Removes (s : State D) (raw : Text) (o : Outcome) : Prop :=
  (∃ username new, o = .consumed raw username new) ∨
    ∃ username n origin, o = .revoked username n ∧ s.origin raw = some origin ∧
      origin.username = username

/-- The call has taken the token out of the map, and not yet out of the file. -/
def Position.Removes (s : State D) (raw : Text) : Position → Prop
  | .taken raw' _ => raw' = raw
  | .saving o => o.Removes s raw
  | .replacing o => o.Removes s raw
  | _ => False

/-- The call has put the token into the map, and not yet into the file. -/
def Position.makes : Position → Option Text
  | .saving o => o.made
  | .replacing o => o.made
  | _ => none

/-- The map agrees with the file, but for what the call has done so far. -/
structure InStep (cfg : Config) (s : State D) (proc : Proc) : Prop where
  kept : ∀ raw, LiveFile cfg s raw → Live cfg s proc.records raw ∨
    ∃ t position, proc.holder = some (t, position) ∧ position.Removes s raw
  only : ∀ raw, Live cfg s proc.records raw → LiveFile cfg s raw ∨
    ∃ t position, proc.holder = some (t, position) ∧ position.makes = some raw
  removed : ∀ t position raw, proc.holder = some (t, position) → position.Removes s raw →
    ¬Live cfg s proc.records raw

/-- Neither the file nor the map of a daemon that is up to date has the token. -/
structure Away (cfg : Config) (s : State D) (raw : Text) : Prop where
  file : ¬LiveFile cfg s raw
  procs : ∀ p proc, s.procs p = some proc → proc.base = s.version →
    ¬Live cfg s proc.records raw

/-- What a call that is about to return has done. -/
structure Answer (cfg : Config) (s : State D) (o : Outcome) : Prop where
  removed : ∀ raw, o.Removes s raw → Away cfg s raw
  made : ∀ raw origin, o.made = some raw → s.origin raw = some origin → s.now < origin.exp →
    LiveFile cfg s raw

/-- A daemon whose map is what the file holds, in no call or at the edge of one. -/
theorem InStep.of_agree {holder : Option (ℕ × Position)} {base : ℕ}
    (h : ∀ raw, Live cfg s records raw ↔ LiveFile cfg s raw)
    (hholder : ∀ t position raw, holder = some (t, position) → ¬position.Removes s raw) :
    InStep cfg s ⟨records, holder, base⟩ :=
  ⟨fun raw hfile => .inl ((h raw).mpr hfile), fun raw hlive => .inl ((h raw).mp hlive),
    fun t position raw ht hremoves => absurd hremoves (hholder t position raw ht)⟩

/-- At such a place, the map is what the file holds. -/
theorem InStep.agree {proc : Proc} (h : InStep cfg s proc)
    (hremoves : ∀ t position raw, proc.holder = some (t, position) → ¬position.Removes s raw)
    (hmakes : ∀ t position, proc.holder = some (t, position) → position.makes = none) (raw : Text) :
    Live cfg s proc.records raw ↔ LiveFile cfg s raw := by
  constructor
  · intro hlive
    refine (h.only raw hlive).resolve_right ?_
    rintro ⟨t, position, ht, hraw⟩
    exact absurd ((hmakes t position ht).symm.trans hraw) (by simp)
  · intro hfile
    refine (h.kept raw hfile).resolve_right ?_
    rintro ⟨t, position, ht, hraw⟩
    exact hremoves t position raw ht hraw

/-- What is good, in terms of the token. -/
theorem live_iff (h : Sound cfg s records) {o : Origin} (ho : s.origin raw = some o) :
    Live cfg s records raw ↔ (records.lookup (cfg.sha256 raw)).isSome ∧ s.now < o.exp := by
  constructor
  · rintro ⟨record, hfound, hlive⟩
    obtain ⟨o', ho', hrecord⟩ := h.lookup hfound
    obtain rfl := Option.some.inj (ho.symm.trans ho')
    exact ⟨by simp [hfound], by rwa [hrecord] at hlive⟩
  · rintro ⟨hsome, hlive⟩
    obtain ⟨record, hfound⟩ := Option.isSome_iff_exists.mp hsome
    obtain ⟨o', ho', hrecord⟩ := h.lookup hfound
    obtain rfl := Option.some.inj (ho.symm.trans ho')
    exact ⟨record, hfound, by rwa [hrecord]⟩

theorem Sound.origin_of_live (h : Sound cfg s records) (hlive : Live cfg s records raw) :
    ∃ o, s.origin raw = some o ∧ s.now < o.exp := by
  obtain ⟨record, hfound, hexp⟩ := hlive
  obtain ⟨o, ho, hrecord⟩ := h.lookup hfound
  exact ⟨o, ho, by rwa [hrecord] at hexp⟩

theorem Known.origin_of_liveFile (hK : Known cfg s) (h : LiveFile cfg s raw) :
    ∃ o, s.origin raw = some o ∧ s.now < o.exp := by
  obtain ⟨r, hr, hlive⟩ := h
  exact (hK.file r hr).origin_of_live hlive

/-! ### What every run in turns keeps -/

/-- A token that a call has made has a record. -/
def Proc.Made (cfg : Config) (s : State D) (proc : Proc) : Prop :=
  ∀ t position o raw, proc.holder = some (t, position) → position.outcome = some o →
    o.made = some raw → (proc.records.lookup (cfg.sha256 raw)).isSome ∧ s.origin raw ≠ none

/-- **What every run in turns keeps.** -/
structure Sharing (cfg : Config) (s : State D) : Prop where
  known : Known cfg s
  serial : Serial s
  own : Own s
  base : ∀ p proc, s.procs p = some proc → proc.base ≤ s.version ∧
    (proc.holder.isSome → proc.base = s.version)
  inStep : ∀ p proc, s.procs p = some proc → proc.base = s.version → InStep cfg s proc
  made : ∀ p proc, s.procs p = some proc → proc.Made cfg s
  answer : ∀ p proc, s.procs p = some proc → ∀ t o, proc.holder = some (t, .leaving o) →
    Answer cfg s o
  recorded : ∀ raw o, s.origin raw = some o → ∃ q, .minted q raw o.username ∈ s.log
  given : ∀ raw, GivenOut s.log raw → s.origin raw ≠ none
  issued : ∀ raw o, GivenOut s.log raw → s.origin raw = some o → s.now < o.exp →
    LiveFile cfg s raw ∨ Ended s.log raw
  log : Lts.Respected
    (fun e earlier => ∀ p t o raw, e = .returned p t o → o.Ends raw earlier → Away cfg s raw)
    (fun e earlier x => ∃ p t o raw, e = .returned p t o ∧ o.Ends raw earlier ∧
      ∃ q time, x = .accepted q raw time) s.log

theorem Sharing.allConsistent (h : Sharing cfg s) : Consistent cfg s := by
  refine ⟨h.issued, fun later earlier p t o raw heq hends => ?_⟩
  obtain ⟨haway, hlater⟩ := h.log later _ earlier heq
  exact ⟨(haway p t o raw rfl hends).file, fun q time hin =>
    hlater _ hin ⟨p, t, o, raw, rfl, hends, q, time, rfl⟩⟩

variable [DecidableEq D] {l : Label D}

theorem Sharing.base_step (h : Sharing cfg s) (hturn : InTurn s l) (hstep : Step cfg s l s') :
    ∀ p proc, s'.procs p = some proc → proc.base ≤ s'.version ∧
      (proc.holder.isSome → proc.base = s'.version) := by
  have hold : ∀ {p : D}, ∀ q proc, q ≠ p → s.procs q = some proc → proc.base ≤ s.version ∧
      (proc.holder.isSome → proc.base = s.version) := fun q proc _ hq => h.base q proc hq
  cases hstep with
  | tick d => exact h.base
  | start readable hdown =>
    refine Lts.forall_update ?_ hold
    rintro proc ⟨⟩
    exact ⟨le_refl _, fun _ => rfl⟩
  | crash hup => exact Lts.forall_update (by simp) hold
  | enter call hup =>
    have hbase := hturn.2 _ hup
    refine Lts.forall_update ?_ hold
    rintro proc ⟨⟩
    exact ⟨(h.base _ _ hup).1, fun _ => hbase⟩
  | replace hat _ =>
    refine Lts.forall_update ?_ fun q proc hne hq => ?_
    · rintro proc ⟨⟩
      exact ⟨le_refl _, fun _ => rfl⟩
    · refine ⟨(h.base q proc hq).1.trans (Nat.le_succ _), fun hholder => ?_⟩
      rw [h.serial.alone hat q proc hne hq] at hholder
      exact absurd hholder (by simp)
  | pass hat _ | drop hat _ _ | accept hat _ _ | strike hat _ | issue hat _ | rotate hat _
  | write hat | tear hat | fail hat _ | leave hat =>
    refine Lts.forall_update ?_ hold
    rintro proc ⟨⟩
    exact ⟨(h.base _ _ hat).1, fun _ => (h.base _ _ hat).2 rfl⟩

/-- A process that is written with no more good tokens than it had. -/
theorem Away.of_update (h : Away cfg s raw) {p : D} {new : Option Proc} (hnow : s.now ≤ s'.now)
    (hprocs : s'.procs = Function.update s.procs p new) (hversion : s'.version = s.version)
    (hnew : ∀ proc, new = some proc → proc.base = s.version → ¬Live cfg s' proc.records raw)
    (hfile : s'.file = s.file) : Away cfg s' raw := by
  refine ⟨fun hlive => h.file (hlive.of_le hnow hfile), ?_⟩
  rw [hprocs, hversion]
  exact Lts.forall_update hnew fun q proc _ hq hbase hlive =>
    h.procs q proc hq hbase (hlive.of_le hnow)

/-- **What is away stays away**, as long as the daemons take turns. -/
theorem Away.step (h : Away cfg s raw) (hS : Sharing cfg s) (hturn : InTurn s l)
    (hmade : s.origin raw ≠ none) (hstep : Step cfg s l s') : Away cfg s' raw := by
  have hkept := hstep.now_le
  cases hstep with
  | tick d =>
    exact ⟨fun hlive => h.file (hlive.of_le hkept rfl),
      fun q proc hq hbase hlive => h.procs q proc hq hbase (hlive.of_le hkept)⟩
  | start readable hdown =>
    refine h.of_update hkept rfl rfl ?_ rfl
    rintro proc ⟨⟩ - hlive
    exact h.file hlive.of_load
  | crash hup => exact h.of_update hkept rfl rfl (by simp) rfl
  | enter call hup =>
    refine h.of_update hkept rfl rfl ?_ rfl
    rintro proc ⟨⟩ hbase hlive
    dsimp only at hlive
    split_ifs at hlive
    · exact h.procs _ _ hup hbase hlive.of_keep
    · exact h.procs _ _ hup hbase hlive
  | issue hat hnew | rotate hat hnew =>
    refine h.of_update hkept rfl rfl ?_ rfl
    rintro proc ⟨⟩ hbase hlive
    refine h.procs _ _ hat hbase (hlive.of_insert ?_)
    rintro rfl
    exact hmade hnew
  | drop hat _ _ | accept hat _ _ =>
    refine h.of_update hkept rfl rfl ?_ rfl
    rintro proc ⟨⟩ hbase hlive
    exact h.procs _ _ hat hbase hlive.of_erase
  | strike hat _ =>
    refine h.of_update hkept rfl rfl ?_ rfl
    rintro proc ⟨⟩ hbase hlive
    exact h.procs _ _ hat hbase hlive.of_keep
  | @replace p t base records outcome file hat htmp =>
    have hlive : ¬Live cfg s records raw := h.procs _ _ hat ((hS.base _ _ hat).2 rfl)
    refine ⟨?_, Lts.forall_update ?_ fun q proc _ hq hbase => ?_⟩
    · rintro ⟨r, hr, hfile⟩
      obtain rfl := File.records.inj (Option.some.inj (hr.symm.trans
        (htmp.symm.trans (hS.own _ _ hat _ _ rfl))))
      exact hlive hfile
    · rintro proc ⟨⟩ -
      exact hlive
    · have := (hS.base q proc hq).1
      have : proc.base = s.version + 1 := hbase
      omega
  | pass hat _ | write hat | tear hat | fail hat _ | leave hat =>
    refine h.of_update hkept rfl rfl ?_ rfl
    rintro proc ⟨⟩ hbase hlive
    exact h.procs _ _ hat hbase hlive

omit [DecidableEq D] in
/-- Another process, which a step does not touch. -/
theorem InStep.other {proc : Proc} (h : InStep cfg s proc) (hnow : s'.now = s.now)
    (hfile : s'.file = s.file) (horigin : s'.origin = s.origin ∨ proc.holder = none) :
    InStep cfg s' proc := by
  have hlive : ∀ records raw, Live cfg s' records raw ↔ Live cfg s records raw := by
    intro records raw
    rw [Live, Live, hnow]
  have hlivefile : ∀ raw, LiveFile cfg s' raw ↔ LiveFile cfg s raw := by
    intro raw
    rw [LiveFile, LiveFile, hfile]
    exact exists_congr fun r => and_congr_right fun _ => hlive r raw
  have hremoves : ∀ t position raw, proc.holder = some (t, position) →
      (position.Removes s' raw ↔ position.Removes s raw) := by
    intro t position raw ht
    have heq := horigin.resolve_right (by simp [ht])
    cases position <;> simp [Position.Removes, Outcome.Removes, heq]
  refine ⟨fun raw hraw => ?_, fun raw hraw => ?_, fun t position raw ht hraw => ?_⟩
  · refine (h.kept raw ((hlivefile raw).mp hraw)).imp (hlive _ raw).mpr ?_
    rintro ⟨t, position, ht, hraw⟩
    exact ⟨t, position, ht, (hremoves t position raw ht).mpr hraw⟩
  · exact (h.only raw ((hlive _ raw).mp hraw)).imp_left (hlivefile raw).mpr
  · rw [hlive]
    exact h.removed t position raw ht ((hremoves t position raw ht).mp hraw)

/-- What the clock does to a map and a file that agree. -/
theorem InStep.tick {proc : Proc} (h : InStep cfg s proc) (hK : Known cfg s)
    (hsound : Sound cfg s proc.records) (d : ℕ) :
    InStep cfg { s with now := s.now + d } proc := by
  have hstep : Step cfg s (.tick d : Label D) { s with now := s.now + d } := .tick d
  have hle := hstep.now_le
  refine ⟨fun raw hraw => ?_, fun raw hraw => ?_, fun t position raw ht hremoves hlive => ?_⟩
  · obtain ⟨o, ho, hlive⟩ := (hK.step hstep).origin_of_liveFile hraw
    refine (h.kept raw (hraw.of_le hle rfl)).imp_left fun hmap => ?_
    exact (live_iff (hsound.mono hstep) ho).mpr ⟨((live_iff hsound ho).mp hmap).1, hlive⟩
  · obtain ⟨o, ho, hlive⟩ := (hsound.mono hstep).origin_of_live hraw
    refine (h.only raw (hraw.of_le hle)).imp_left ?_
    rintro ⟨r, hr, hfile⟩
    have hr' := hK.file r hr
    exact ⟨r, hr, (live_iff (hr'.mono hstep) ho).mpr ⟨((live_iff hr' ho).mp hfile).1, hlive⟩⟩
  · exact h.removed t position raw ht hremoves (hlive.of_le hle)

/-- A new token, in a map that is in step with the file. -/
theorem inStep_mint {p : D} {t base : ℕ} {new : Text} {username : String}
    {origin : Option Origin} {o : Outcome} (hK : Known cfg s) (hnew : s.origin new = none)
    (hkept : ∀ raw, LiveFile cfg s raw → Live cfg s records raw ∨ o.Removes s raw)
    (honly : ∀ raw, Live cfg s records raw → LiveFile cfg s raw)
    (hremoved : ∀ raw, o.Removes s raw → raw ≠ new ∧ ¬Live cfg s records raw)
    (hmade : o.made = some new) :
    InStep cfg (s.mint p cfg t records base new username origin o)
      ⟨records.insert (cfg.sha256 new) ⟨username, s.now + cfg.ttl⟩, some (t, .saving o), base⟩ := by
  have hremoves : ∀ {s' : State D} {raw : Text}, o.Removes s' raw → o.Removes s raw := by
    rintro s' raw (h | ⟨_, _, _, rfl, -⟩)
    · exact .inl h
    · exact absurd hmade (by simp [Outcome.made])
  have hremoves' : ∀ {s' : State D} {raw : Text}, o.Removes s raw → o.Removes s' raw := by
    rintro s' raw (h | ⟨_, _, _, rfl, -⟩)
    · exact .inl h
    · exact absurd hmade (by simp [Outcome.made])
  refine ⟨fun raw hfile => ?_, fun raw hlive => ?_, ?_⟩
  · rcases hkept raw hfile with ⟨record, hfound, hexp⟩ | hraw
    · obtain ⟨o', ho', -⟩ := hK.origin_of_liveFile hfile
      have hne : raw ≠ new := by
        rintro rfl
        exact absurd (ho'.symm.trans hnew) (by simp)
      refine .inl ⟨record, ?_, hexp⟩
      rwa [AList.lookup_insert_ne (cfg.sha256.injective.ne hne)]
    · exact .inr ⟨t, _, rfl, hremoves' hraw⟩
  · rcases eq_or_ne raw new with rfl | hne
    · exact .inr ⟨t, _, rfl, hmade⟩
    · exact .inl (honly raw (hlive.of_insert hne))
  · rintro t' position raw ⟨⟩ hraw hlive
    obtain ⟨hne, hgone⟩ := hremoved raw (hremoves hraw)
    exact hgone (hlive.of_insert hne)

omit [DecidableEq D] in
/-- A daemon that is at the beginning of a call agrees with the file. -/
theorem Sharing.agree (h : Sharing cfg s) {p : D} {t base : ℕ} {position : Position}
    (hat : s.At p t records position base) (hremoves : ∀ raw, ¬position.Removes s raw)
    (hmakes : position.makes = none) (raw : Text) :
    Live cfg s records raw ↔ LiveFile cfg s raw := by
  refine (h.inStep _ _ hat ((h.base _ _ hat).2 rfl)).agree ?_ ?_ raw
  · rintro t position raw ⟨⟩
    exact hremoves raw
  · rintro t position ⟨⟩
    exact hmakes

/-- **The step of a call** keeps the map in step with the file. -/
theorem Sharing.inStep_step (h : Sharing cfg s) (hturn : InTurn s l) (hstep : Step cfg s l s') :
    ∀ p proc, s'.procs p = some proc → proc.base = s'.version → InStep cfg s' proc := by
  have hlast := hstep
  -- the processes that are not written, by a step that keeps the clock and the file
  have hother : ∀ {p : D}, s'.now = s.now → s'.file = s.file →
      (s'.origin = s.origin ∨ Alone s p) → ∀ q proc, q ≠ p → s.procs q = some proc →
      proc.base = s.version → InStep cfg s' proc := by
    intro p hnow hfile horigin q proc hne hq hbase
    exact (h.inStep q proc hq hbase).other hnow hfile (horigin.imp_right fun ha => ha q proc hne hq)
  cases hstep with
  | tick d =>
    exact fun p proc hp hbase =>
      (h.inStep p proc hp hbase).tick h.known (h.known.procs p proc hp).sound
      d
  | start readable hdown =>
    refine Lts.forall_update ?_ (hother rfl rfl (.inl rfl))
    rintro proc ⟨⟩ -
    obtain rfl : readable = true := hturn
    exact .of_agree (fun raw => live_load) (by simp)
  | crash hup => exact Lts.forall_update (by simp) (hother rfl rfl (.inl rfl))
  | @enter p t base records call hup =>
    have hbase := hturn.2 _ hup
    refine Lts.forall_update ?_ (hother rfl rfl (.inl rfl))
    rintro proc ⟨⟩ -
    have hagree := (h.inStep _ _ hup hbase).agree (by simp) (by simp)
    refine .of_agree (fun raw => ?_) ?_
    · split_ifs
      · exact live_prune.trans (hagree raw)
      · exact hagree raw
    · rintro t position raw ⟨⟩
      exact id
  | pass hat _ =>
    refine Lts.forall_update ?_ (hother rfl rfl (.inl rfl))
    rintro proc ⟨⟩ -
    refine .of_agree (h.agree hat (fun _ => id) rfl) ?_
    rintro t position raw ⟨⟩
    exact id
  | @drop p t base records raw hat record hfound hexp =>
    refine Lts.forall_update ?_ (hother rfl rfl (.inl rfl))
    rintro proc ⟨⟩ -
    refine .of_agree (fun raw' => Iff.trans ?_ (h.agree hat (fun _ => id) rfl raw')) ?_
    · -- what is dropped is expired
      refine ⟨Live.of_erase, ?_⟩
      rintro ⟨record', hfound', hlive⟩
      refine ⟨record', ?_, hlive⟩
      rw [AList.lookup_erase_ne ?_, hfound']
      intro heq
      rw [heq, hfound] at hfound'
      obtain rfl := Option.some.inj hfound'
      omega
    · rintro t position raw' ⟨⟩
      simp [Position.Removes, Outcome.Removes]
  | @accept p t base records raw hat record hfound hlive =>
    have hagree := h.agree hat (fun _ => id) rfl
    refine Lts.forall_update ?_ (hother rfl rfl (.inl rfl))
    rintro proc ⟨⟩ -
    refine ⟨fun raw' hfile => ?_, fun raw' hraw' => .inl ((hagree raw').mp hraw'.of_erase), ?_⟩
    · rcases eq_or_ne raw' raw with rfl | hne
      · exact .inr ⟨t, _, rfl, rfl⟩
      · obtain ⟨record', hfound', hlive'⟩ := (hagree raw').mpr hfile
        refine .inl ⟨record', ?_, hlive'⟩
        rwa [AList.lookup_erase_ne (cfg.sha256.injective.ne hne)]
    · rintro t position raw' ⟨⟩ hremoves ⟨record', hfound', -⟩
      obtain rfl : raw = raw' := hremoves
      rw [AList.lookup_erase] at hfound'
      exact absurd hfound' (by simp)
  | @strike p t base n records username hat hn =>
    have hagree := h.agree hat (fun _ => id) rfl
    have hsound := (h.known.procs _ _ hat).sound
    refine Lts.forall_update ?_ (hother rfl rfl (.inl rfl))
    rintro proc ⟨⟩ -
    refine ⟨fun raw hfile => ?_, fun raw hraw => .inl ((hagree raw).mp hraw.of_keep), ?_⟩
    · obtain ⟨record, hfound, hlive⟩ := (hagree raw).mpr hfile
      by_cases husername : record.username = username
      · have hzero : n ≠ 0 := by
          intro hzero
          exact noneFor_of_victims (List.eq_nil_of_length_eq_zero (hn.symm.trans hzero)) _ _ hfound
            husername
        obtain ⟨o, ho, hrecord⟩ := hsound.lookup hfound
        refine .inr ⟨t, _, rfl, ?_⟩
        rw [if_neg hzero]
        exact .inr ⟨username, n, o, rfl, ho, by rw [← husername, hrecord]⟩
      · exact .inl ⟨record, Dict.lookup_keep_eq_some.mpr ⟨hfound, decide_eq_true husername⟩, hlive⟩
    · rintro t' position raw heq hremoves ⟨record, hfound, -⟩
      cases heq
      split_ifs at hremoves with hzero
      · exact hremoves
      · rcases hremoves with ⟨_, _, heq⟩ | ⟨username', n', o, heq, ho, husername⟩
        · exact absurd heq (by simp)
        · obtain ⟨rfl, rfl⟩ := Outcome.revoked.inj heq
          obtain ⟨o', ho', hrecord⟩ := hsound.lookup (Dict.lookup_keep_eq_some.mp hfound).1
          obtain rfl := Option.some.inj (ho.symm.trans ho')
          exact noneFor_withoutUser _ _ hfound (by rw [hrecord, husername])
  | @issue p t base records username new hat hnew =>
    have hagree := h.agree hat (fun _ => id) rfl
    refine Lts.forall_update ?_ (hother rfl rfl (.inr (h.serial.alone hat)))
    rintro proc ⟨⟩ -
    exact inStep_mint h.known hnew (fun raw hfile => .inl ((hagree raw).mpr hfile))
      (fun raw hlive => (hagree raw).mp hlive) (by simp [Outcome.Removes]) rfl
  | @rotate p t base records raw new record hat hnew =>
    have hinStep := h.inStep _ _ hat ((h.base _ _ hat).2 rfl)
    obtain ⟨o, ho, -⟩ := (h.known.procs _ _ hat).taken _ _ _ rfl
    refine Lts.forall_update ?_ (hother rfl rfl (.inr (h.serial.alone hat)))
    rintro proc ⟨⟩ -
    refine inStep_mint h.known hnew (fun raw' hfile => ?_) (fun raw' hlive => ?_) ?_ rfl
    · refine (hinStep.kept raw' hfile).imp_right ?_
      rintro ⟨t, position, ⟨⟩, heq⟩
      obtain rfl : raw = raw' := heq
      exact .inl ⟨_, _, rfl⟩
    · refine (hinStep.only raw' hlive).resolve_right ?_
      rintro ⟨t, position, ⟨⟩, heq⟩
      exact absurd heq (by simp [Position.makes])
    · rintro raw' (⟨username, new', heq⟩ | ⟨_, _, _, heq, -⟩)
      · obtain ⟨rfl, -, -⟩ := Outcome.consumed.inj heq
        refine ⟨?_, hinStep.removed _ _ raw rfl rfl⟩
        rintro rfl
        exact absurd (ho.symm.trans hnew) (by simp)
      · exact absurd heq (by simp)
  | write hat =>
    have hinStep := h.inStep _ _ hat ((h.base _ _ hat).2 rfl)
    refine Lts.forall_update ?_ (hother rfl rfl (.inl rfl))
    rintro proc ⟨⟩ -
    refine ⟨fun raw hfile => (hinStep.kept raw hfile).imp_right ?_,
      fun raw hlive => (hinStep.only raw hlive).imp_right ?_, ?_⟩
    · rintro ⟨t, position, ⟨⟩, hremoves⟩
      exact ⟨_, _, rfl, hremoves⟩
    · rintro ⟨t, position, ⟨⟩, hmakes⟩
      exact ⟨_, _, rfl, hmakes⟩
    · rintro t position raw ⟨⟩ hremoves
      exact hinStep.removed _ _ raw rfl hremoves
  | tear hat => exact absurd hturn id
  | @replace p t base records outcome file hat htmp =>
    have hfile : file = .records records :=
      Option.some.inj (htmp.symm.trans (h.own _ _ hat _ _ rfl))
    refine Lts.forall_update ?_ fun q proc _ hq hbase => ?_
    · rintro proc ⟨⟩ -
      refine .of_agree (fun raw => ⟨fun hlive => ⟨records, by rw [hfile], hlive⟩, ?_⟩) ?_
      · rintro ⟨r, hr, hlive⟩
        obtain rfl := File.records.inj (hfile.symm.trans (Option.some.inj hr))
        exact hlive
      · rintro t position raw ⟨⟩
        exact id
    · have := (h.base q proc hq).1
      have : proc.base = s.version + 1 := hbase
      omega
  | fail hat _ => exact absurd hturn id
  | leave hat =>
    refine Lts.forall_update ?_ (hother rfl rfl (.inl rfl))
    rintro proc ⟨⟩ -
    exact .of_agree (h.agree hat (fun _ => id) rfl) (by simp)

omit [DecidableEq D] in
/-- A process whose call has made no token. -/
theorem Proc.made_of_none {holder : Option (ℕ × Position)} {base : ℕ}
    (h : ∀ t position o, holder = some (t, position) → position.outcome = some o →
      o.made = none) : Proc.Made cfg s ⟨records, holder, base⟩ := by
  intro t position o raw ht ho hraw
  exact absurd ((h t position o ht ho).symm.trans hraw) (by simp)

theorem Proc.Made.mono {proc : Proc} (h : proc.Made cfg s) (hstep : Step cfg s l s') :
    proc.Made cfg s' := by
  intro t position o raw ht ho hmade
  refine (h t position o raw ht ho hmade).imp_right fun hraw => ?_
  obtain ⟨origin, horigin⟩ := Option.ne_none_iff_exists'.mp hraw
  simp [hstep.origin horigin]

theorem Sharing.made_step (h : Sharing cfg s) (hstep : Step cfg s l s') :
    ∀ p proc, s'.procs p = some proc → proc.Made cfg s' := by
  have hlast := hstep
  have hold : ∀ {p : D}, ∀ q proc, q ≠ p → s.procs q = some proc → proc.Made cfg s' :=
    fun q proc _ hq => (h.made q proc hq).mono hlast
  -- the process that is written has made no token
  have hnone : ∀ {p : D} {records : Records} {holder : Option (ℕ × Position)} {base : ℕ},
      (∀ t position o, holder = some (t, position) → position.outcome = some o → o.made = none) →
      ∀ q proc, Function.update s.procs p (some ⟨records, holder, base⟩) q = some proc →
      proc.Made cfg s' := by
    intro p records holder base hmade
    refine Lts.forall_update ?_ hold
    rintro proc ⟨⟩
    exact Proc.made_of_none hmade
  cases hstep with
  | tick d => exact fun q proc hq => (h.made q proc hq).mono hlast
  | start readable hdown => exact hnone (by simp)
  | crash hup => exact Lts.forall_update (by simp) hold
  | enter call hup =>
    refine hnone ?_
    rintro t position o ⟨⟩
    simp [Position.outcome]
  | @pass p t base records call outcome hat hquiet =>
    refine hnone ?_
    rintro t position o ⟨⟩ ho
    obtain rfl := Option.some.inj ho
    cases outcome <;> simp [Outcome.quiet] at hquiet <;> rfl
  | drop hat _ _ | tear hat | fail hat _ =>
    refine hnone ?_
    rintro t position o ⟨⟩ ho
    cases ho
    rfl
  | accept hat _ _ =>
    refine hnone ?_
    rintro t position o ⟨⟩
    simp [Position.outcome]
  | strike hat hn =>
    refine hnone ?_
    rintro t position o ⟨⟩ ho
    split_ifs at ho <;> (cases ho; rfl)
  | issue hat hnew =>
    refine Lts.forall_update ?_ hold
    rintro proc ⟨⟩ t position o raw ⟨⟩ ho hraw
    cases ho
    obtain rfl := Option.some.inj hraw
    exact ⟨by simp, by simp⟩
  | rotate hat hnew =>
    obtain ⟨o, ho, -⟩ := (h.known.procs _ _ hat).taken _ _ _ rfl
    refine Lts.forall_update ?_ hold
    rintro proc ⟨⟩ t position o' raw ⟨⟩ ho' hraw
    cases ho'
    obtain rfl := Option.some.inj hraw
    exact ⟨by simp, by simp [ho]⟩
  | write hat | replace hat _ =>
    refine Lts.forall_update ?_ hold
    rintro proc ⟨⟩ t position o raw ⟨⟩ ho hraw
    exact (h.made _ _ hat).mono hlast _ _ o raw rfl ho hraw
  | leave hat => exact hnone (by simp)

omit [DecidableEq D] in
/-- What is removed was made. -/
theorem Sharing.origin_of_removes (h : Sharing cfg s) {p : D} {proc : Proc} {t : ℕ}
    {position : Position} {o : Outcome} (hp : s.procs p = some proc)
    (ht : proc.holder = some (t, position)) (ho : position.outcome = some o)
    (hremoves : o.Removes s raw) : s.origin raw ≠ none := by
  rcases hremoves with ⟨username, new, rfl⟩ | ⟨_, _, origin, -, horigin, -⟩
  · obtain ⟨origin, horigin, -⟩ := (h.known.procs p proc hp).outcome t position _ ht ho _ _ _ rfl
    simp [horigin]
  · simp [horigin]

/-- The answer of a call, while something else happens. -/
theorem Answer.mono {p : D} {proc : Proc} {t : ℕ} {o : Outcome} (ha : Answer cfg s o)
    (h : Sharing cfg s) (hturn : InTurn s l) (hstep : Step cfg s l s') (hp : s.procs p = some proc)
    (ht : proc.holder = some (t, .leaving o)) (horigin : s'.origin = s.origin)
    (hfile : s'.file = s.file) : Answer cfg s' o := by
  refine ⟨fun raw hremoves => ?_, fun raw origin hraw horigin' hexp => ?_⟩
  · have hremoves' : o.Removes s raw := by
      unfold Outcome.Removes at hremoves ⊢
      rwa [horigin] at hremoves
    exact (ha.removed raw hremoves').step h hturn
      (h.origin_of_removes hp ht (o := o) rfl hremoves') hstep
  · have horigin₀ : s.origin raw = some origin := by rw [← horigin, horigin']
    obtain ⟨r, hr, hlive⟩ := ha.made raw origin hraw horigin₀ (by have := hstep.now_le; omega)
    have hsound := h.known.file r hr
    refine ⟨r, hfile.trans hr, (live_iff (hsound.mono hstep) horigin').mpr ⟨?_, hexp⟩⟩
    exact ((live_iff hsound horigin₀).mp hlive).1

omit [DecidableEq D] in
/-- Nothing is revoked that is not away. -/
theorem Sharing.away_of_strike (h : Sharing cfg s) {p : D} {t base : ℕ} {username : String}
    (hat : s.At p t records (.entered (.revoke username)) base)
    (hnil : (victims username records).entries = []) {o : Origin} (ho : s.origin raw = some o)
    (husername : o.username = username) : Away cfg s raw := by
  have hmap : ¬Live cfg s records raw := by
    rintro ⟨record, hfound, -⟩
    obtain ⟨o', ho', hrecord⟩ := (h.known.procs _ _ hat).sound.lookup hfound
    obtain rfl := Option.some.inj (ho.symm.trans ho')
    exact noneFor_of_victims hnil _ _ hfound (by rw [hrecord, husername])
  have hfile : ¬LiveFile cfg s raw := fun hlive =>
    hmap ((h.agree hat (fun _ => id) rfl raw).mpr hlive)
  refine ⟨hfile, fun q proc hq hbase hlive => ?_⟩
  rcases eq_or_ne q p with rfl | hne
  · obtain rfl := Option.some.inj (hat.symm.trans hq)
    exact hmap hlive
  · have hidle := h.serial.alone hat q proc hne hq
    exact hfile
      (((h.inStep q proc hq hbase).agree (by simp [hidle]) (by simp [hidle]) raw).mp hlive)

theorem Sharing.answer_step (h : Sharing cfg s) (hturn : InTurn s l) (hstep : Step cfg s l s') :
    ∀ p proc, s'.procs p = some proc → ∀ t o, proc.holder = some (t, .leaving o) →
      Answer cfg s' o := by
  have hlast := hstep
  have hold : s'.origin = s.origin → s'.file = s.file → ∀ q proc, s.procs q = some proc →
      ∀ t o, proc.holder = some (t, .leaving o) → Answer cfg s' o :=
    fun horigin hfile q proc hq t o ht =>
      (h.answer q proc hq t o ht).mono h hturn hlast hq ht horigin hfile
  -- no other process is in a call
  have halone : ∀ {p : D}, Alone s p → ∀ q proc, q ≠ p → s.procs q = some proc →
      ∀ t o, proc.holder = some (t, .leaving o) → Answer cfg s' o := by
    intro p ha q proc hne hq t o ht
    exact absurd ((ha q proc hne hq).symm.trans ht) (by simp)
  cases hstep with
  | tick d => exact hold rfl rfl
  | start readable hdown =>
    refine Lts.forall_update ?_ fun q proc _ hq => hold rfl rfl q proc hq
    rintro proc ⟨⟩
    simp
  | crash hup => exact Lts.forall_update (by simp) fun q proc _ hq => hold rfl rfl q proc hq
  | enter call hup =>
    refine Lts.forall_update ?_ (halone hturn.1)
    rintro proc ⟨⟩
    simp
  | @pass p t base records call outcome hat hquiet =>
    refine Lts.forall_update ?_ (halone (h.serial.alone hat))
    rintro proc ⟨⟩ t o ⟨⟩
    refine ⟨?_, ?_⟩
    · rintro raw (⟨_, _, rfl⟩ | ⟨_, _, _, rfl, -⟩) <;> simp [Outcome.quiet] at hquiet
    · intro raw origin hraw
      cases outcome <;> simp [Outcome.quiet, Outcome.made] at hquiet hraw
  | @strike p t base n records username hat hn =>
    refine Lts.forall_update ?_ (halone (h.serial.alone hat))
    rintro proc ⟨⟩ t' o heq
    by_cases hzero : n = 0
    · rw [if_pos hzero] at heq
      cases heq
      refine ⟨?_, by simp [Outcome.made]⟩
      rintro raw (⟨_, _, heq⟩ | ⟨username', n', origin, heq, horigin, husername⟩)
      · exact absurd heq (by simp)
      · obtain ⟨rfl, rfl⟩ := Outcome.revoked.inj heq
        exact (h.away_of_strike hat (List.eq_nil_of_length_eq_zero (hn.symm.trans hzero)) horigin
          husername).step h hturn (by rw [show s.origin raw = some origin from horigin]; simp) hlast
    · rw [if_neg hzero] at heq
      exact absurd heq (by simp)
  | drop hat _ _ | accept hat _ _ | issue hat _ | rotate hat _ | write hat | leave hat =>
    refine Lts.forall_update ?_ (halone (h.serial.alone hat))
    rintro proc ⟨⟩
    simp
  | tear hat => exact absurd hturn id
  | @replace p t base records outcome file hat htmp =>
    have hinStep := h.inStep _ _ hat ((h.base _ _ hat).2 rfl)
    have hfile : file = .records records :=
      Option.some.inj (htmp.symm.trans (h.own _ _ hat _ _ rfl))
    refine Lts.forall_update ?_ (halone (h.serial.alone hat))
    rintro proc ⟨⟩ t' o ⟨⟩
    refine ⟨fun raw hremoves => ?_, fun raw origin hraw horigin hexp => ?_⟩
    · -- the file is now what the map was, and the other daemons are behind
      have hgone : ¬Live cfg s records raw := hinStep.removed _ _ raw rfl hremoves
      refine ⟨?_, Lts.forall_update ?_ fun q proc _ hq hbase => ?_⟩
      · rintro ⟨r, hr, hlive⟩
        obtain rfl := File.records.inj (hfile.symm.trans (Option.some.inj hr))
        exact hgone hlive
      · rintro proc ⟨⟩ -
        exact hgone
      · have := (h.base q proc hq).1
        have : proc.base = s.version + 1 := hbase
        omega
    · have hsome := (h.made _ _ hat _ _ outcome raw rfl rfl hraw).1
      exact ⟨records, by rw [hfile], (live_iff (h.known.procs _ _ hat).sound horigin).mpr
        ⟨hsome, hexp⟩⟩
  | fail hat _ => exact absurd hturn id

/-! ### Runs -/

theorem Sharing.recorded_step (h : Sharing cfg s) (hstep : Step cfg s l s') :
    ∀ raw o, s'.origin raw = some o → ∃ q, .minted q raw o.username ∈ s'.log := by
  have hold : ∀ raw o, s.origin raw = some o → (∀ x ∈ s.log, x ∈ s'.log) →
      ∃ q, .minted q raw o.username ∈ s'.log := by
    intro raw o ho hlog
    obtain ⟨q, hq⟩ := h.recorded raw o ho
    exact ⟨q, hlog _ hq⟩
  cases hstep with
  | @issue p t base records username new hat hnew =>
    intro raw o ho
    rcases eq_or_ne raw new with rfl | hne
    · rw [State.mint_origin_self] at ho
      obtain rfl := Option.some.inj ho
      exact ⟨p, List.mem_cons_self⟩
    · exact hold raw o ((Function.update_of_ne hne ..).symm.trans ho)
        fun x => List.mem_cons_of_mem _
  | @rotate p t base records raw₀ new record hat hnew =>
    intro raw o ho
    rcases eq_or_ne raw new with rfl | hne
    · obtain ⟨o₀, ho₀, husername⟩ := (h.known.procs _ _ hat).taken _ _ _ rfl
      rw [State.mint_origin_self, ho₀] at ho
      obtain rfl := Option.some.inj ho
      exact ⟨p, by rw [husername]; exact List.mem_cons_self⟩
    · exact hold raw o ((Function.update_of_ne hne ..).symm.trans ho)
        fun x => List.mem_cons_of_mem _
  | accept _ _ _ | replace _ _ | leave _ =>
    exact fun raw o ho => hold raw o ho fun x => List.mem_cons_of_mem _
  | _ => exact fun raw o ho => hold raw o ho fun x => id

/-- A token that was given out before. -/
theorem Sharing.issued_of_old (h : Sharing cfg s) (hturn : InTurn s l) (hstep : Step cfg s l s')
    {o : Origin} (hgiven : GivenOut s.log raw) (ho : s'.origin raw = some o)
    (hexp : s'.now < o.exp) : LiveFile cfg s' raw ∨ Ended s'.log raw := by
  obtain ⟨o', ho'⟩ := Option.ne_none_iff_exists'.mp (h.given raw hgiven)
  obtain rfl : o' = o := Option.some.inj ((hstep.origin ho').symm.trans ho)
  have hissued := h.issued raw o' hgiven ho' (hstep.now_le.trans_lt hexp)
  have hlast := hstep
  have hfile : s'.file = s.file → LiveFile cfg s raw → LiveFile cfg s' raw := by
    rintro hfile ⟨r, hr, hlive⟩
    have hsound := h.known.file r hr
    exact ⟨r, hfile.trans hr, (live_iff (hsound.mono hlast) ho).mpr
      ⟨((live_iff hsound ho').mp hlive).1, hexp⟩⟩
  cases hstep with
  | @replace p t base records outcome file hat htmp =>
    rcases hissued with hlive | hended
    · -- the token is in the map, or the call has ended it
      have hcontent : file = .records records :=
        Option.some.inj (htmp.symm.trans (h.own _ _ hat _ _ rfl))
      rcases (h.inStep _ _ hat ((h.base _ _ hat).2 rfl)).kept raw hlive with
        hmap | ⟨_, _, ⟨⟩, hremoves⟩
      · exact .inl ⟨records, by rw [hcontent], hmap⟩
      · refine .inr ⟨[], s.log, p, outcome, rfl, ?_⟩
        refine Or.imp_right ?_ hremoves
        rintro ⟨username, n, origin, rfl, horigin, rfl⟩
        obtain ⟨q, hq⟩ := h.recorded raw origin horigin
        exact ⟨_, n, q, rfl, hq⟩
    · exact .inr (hended.cons _)
  | issue _ _ | rotate _ _ | accept _ _ _ | leave _ =>
    exact hissued.imp (hfile rfl) fun hended => hended.cons _
  | _ => exact hissued.imp_left (hfile rfl)

theorem Sharing.given_step (h : Sharing cfg s) (hturn : InTurn s l) (hstep : Step cfg s l s') :
    (∀ raw, GivenOut s'.log raw → s'.origin raw ≠ none) ∧
      ∀ raw o, GivenOut s'.log raw → s'.origin raw = some o → s'.now < o.exp →
        LiveFile cfg s' raw ∨ Ended s'.log raw := by
  have hlast := hstep
  have hold : (∀ raw, GivenOut s'.log raw → GivenOut s.log raw) →
      (∀ raw, GivenOut s'.log raw → s'.origin raw ≠ none) ∧
        ∀ raw o, GivenOut s'.log raw → s'.origin raw = some o → s'.now < o.exp →
          LiveFile cfg s' raw ∨ Ended s'.log raw := by
    intro hback
    refine ⟨fun raw hgiven => ?_, fun raw o hgiven ho hexp =>
      h.issued_of_old hturn hlast (hback raw hgiven) ho hexp⟩
    obtain ⟨o, ho⟩ := Option.ne_none_iff_exists'.mp (h.given raw (hback raw hgiven))
    simp [hlast.origin ho]
  cases hstep with
  | @leave p t base records outcome hat =>
    have hcases : ∀ raw, GivenOut (.returned p t outcome :: s.log) raw →
        outcome.made = some raw ∨ GivenOut s.log raw := by
      intro raw hgiven
      by_cases hmade : outcome.made = some raw
      · exact .inl hmade
      · refine .inr (hgiven.of_cons ?_)
        rintro p' t' o ⟨⟩
        exact hmade
    refine ⟨fun raw hgiven => ?_, fun raw o hgiven ho hexp => ?_⟩
    · rcases hcases raw hgiven with hmade | hgiven
      · exact (h.made _ _ hat _ _ outcome raw rfl rfl hmade).2
      · exact h.given raw hgiven
    · rcases hcases raw hgiven with hmade | hgiven
      · exact .inl ((h.answer _ _ hat _ _ rfl).made raw o hmade ho hexp)
      · exact h.issued_of_old hturn hlast hgiven ho hexp
  | issue _ _ | rotate _ _ | accept _ _ _ | replace _ _ =>
    exact hold fun raw hgiven => hgiven.of_cons (by simp)
  | _ => exact hold fun raw hgiven => hgiven

/-- Tokens that were ended stay away. -/
theorem Sharing.away_step (h : Sharing cfg s) (hturn : InTurn s l) (hstep : Step cfg s l s')
    (e : Event D) (earlier : List (Event D)) (hin : ∀ x ∈ e :: earlier, x ∈ s.log)
    (haway : ∀ p t o raw, e = .returned p t o → o.Ends raw earlier → Away cfg s raw) :
    ∀ p t o raw, e = .returned p t o → o.Ends raw earlier → Away cfg s' raw := by
  rintro p t o raw rfl hends
  refine (haway p t o raw rfl hends).step h hturn ?_ hstep
  rcases hends with ⟨username, new, rfl⟩ | ⟨username, n, q, rfl, hminted⟩
  · obtain ⟨origin, horigin, -⟩ := h.known.log _ (hin _ List.mem_cons_self) _ _ _ rfl
    simp [horigin]
  · obtain ⟨origin, horigin, -⟩ := h.known.log _ (hin _ (List.mem_cons_of_mem _ hminted))
    simp [horigin]

theorem Sharing.log_step (h : Sharing cfg s) (hturn : InTurn s l) (hstep : Step cfg s l s') :
    Lts.Respected
      (fun e earlier => ∀ p t o raw, e = .returned p t o → o.Ends raw earlier → Away cfg s' raw)
      (fun e earlier x => ∃ p t o raw, e = .returned p t o ∧ o.Ends raw earlier ∧
        ∃ q time, x = .accepted q raw time) s'.log := by
  have hlast := hstep
  have hkept := h.away_step hturn hstep
  -- an event that is no answer, and accepts nothing
  have hquiet : ∀ x : Event D, (∀ p t o, x ≠ .returned p t o) →
      (∀ q raw time, x ≠ .accepted q raw time) → s'.log = x :: s.log →
      Lts.Respected
        (fun e earlier => ∀ p t o raw, e = .returned p t o → o.Ends raw earlier → Away cfg s' raw)
        (fun e earlier x => ∃ p t o raw, e = .returned p t o ∧ o.Ends raw earlier ∧
          ∃ q time, x = .accepted q raw time) s'.log := by
    intro x hreturned haccepted hlog
    rw [hlog]
    refine h.log.cons hkept ?_ fun p t o raw heq => absurd heq (hreturned p t o)
    rintro e earlier - ⟨p, t, o, raw, -, -, q, time, heq⟩
    exact haccepted q raw time heq
  cases hstep with
  | @accept p t base records raw hat record hfound hlive =>
    refine h.log.cons hkept ?_ (by simp)
    rintro e earlier haway ⟨p', t', o, raw', heq, hends, q, time, ⟨⟩⟩
    exact (haway p' t' o raw heq hends).procs _ _ hat ((h.base _ _ hat).2 rfl)
      ⟨record, hfound, hlive⟩
  | @leave p t base records outcome hat =>
    refine h.log.cons hkept ?_ ?_
    · rintro e earlier - ⟨_, _, _, _, -, -, q, time, heq⟩
      exact absurd heq (by simp)
    · rintro p' t' o raw ⟨⟩ hends
      have hremoves : outcome.Removes s raw := by
        refine Or.imp_right ?_ hends
        rintro ⟨username, n, q, rfl, hminted⟩
        obtain ⟨origin, horigin, husername⟩ := h.known.log _ hminted
        exact ⟨username, n, origin, rfl, horigin, husername⟩
      exact ((h.answer _ _ hat _ _ rfl).removed raw hremoves).step h hturn
        (h.origin_of_removes hat rfl (o := outcome) rfl hremoves) hlast
  | issue _ _ | rotate _ _ | replace _ _ => exact hquiet _ (by simp) (by simp) rfl
  | _ => exact h.log.mono hkept

theorem Sharing.step (h : Sharing cfg s) (hturn : InTurn s l) (hstep : Step cfg s l s') :
    Sharing cfg s' where
  known := h.known.step hstep
  serial := h.serial.step hstep fun p t call hl => by
    subst hl
    exact hturn.1
  own := h.own.step h.serial hstep
  base := h.base_step hturn hstep
  inStep := h.inStep_step hturn hstep
  made := h.made_step hstep
  answer := h.answer_step hturn hstep
  recorded := h.recorded_step hstep
  given := (h.given_step hturn hstep).1
  issued := (h.given_step hturn hstep).2
  log := h.log_step hturn hstep

omit [DecidableEq D] in
theorem sharing_init : Sharing cfg (State.init : State D) where
  known := known_init
  serial _ _ _ _ h := absurd h (by simp [State.init])
  own := own_init
  base _ _ h := absurd h (by simp [State.init])
  inStep _ _ h := absurd h (by simp [State.init])
  made _ _ h := absurd h (by simp [State.init])
  answer _ _ h := absurd h (by simp [State.init])
  recorded _ _ h := absurd h (by simp [State.init])
  given _ h := absurd h (by simp [GivenOut, State.init])
  issued _ _ h := absurd h (by simp [GivenOut, State.init])
  log := Lts.respected_nil

/-- **When a shared store is consistent.** In every run in which the daemons take turns, a
token that is given out stays in the file until it expires or is ended, and one that is ended
is accepted by no daemon. -/
theorem consistent {ls : List (Label D)}
    (h : Lts.Run (Lts.Under InTurn (Lts.ofStep (step cfg))) State.init ls s) :
    Consistent cfg s :=
  Sharing.allConsistent (h.inv_state (I := Sharing cfg) sharing_init
    fun _ _ _ hI hl => hI.step hl.1 (Step.of_step hl.2))

/-- The condition, for two daemons. -/
def inTurn (s : State Bool) : Label Bool → Bool
  | .enter p _ _ => (s.procs !p).all (·.holder.isNone) && (s.procs p).all (·.base = s.version)
  | .start _ readable => readable
  | .tear .. => false
  | .fail .. => false
  | _ => true

theorem inTurn_spec (s : State Bool) (l : Label Bool) (h : inTurn s l) : InTurn s l := by
  cases l with
  | enter p t call =>
    simp only [inTurn, Bool.and_eq_true] at h
    refine ⟨fun q proc hne hq => ?_, fun proc hp => ?_⟩
    · obtain rfl : q = !p := Bool.eq_not_of_ne hne
      simpa [hq] using h.1
    · simpa [hp] using h.2
  | start p readable => exact h
  | tear p t | fail p t => exact absurd h (by simp [inTurn])
  | _ => trivial

/-- A token of one daemon that is exchanged at another. -/
theorem consistent_exchange : ∃ s : State Bool, uses s.log = [[1]] ∧ Consistent plainConfig s := by
  obtain ⟨s, hrun, hs⟩ := Lts.exists_under_run_of_exec (step plainConfig) inTurn inTurn_spec
    State.init (issuing false "ada" [1] ++ [.start true true] ++ exchanging true [1] [2])
    (fun s => uses s.log = [[1]]) (by decide +kernel)
  exact ⟨s, of_decide_eq_true hs, consistent hrun⟩

/-- A token that is given out; a second daemon starts; the first exchanges the token, and
the second accepts it. -/
def twice : List (Label Bool) :=
  issuing false "ada" [1] ++ [.start true true] ++ exchanging false [1] [2] ++
    [.enter true 0 (.consume [1]), .act true 0]

/-- **A token that was exchanged at one daemon is accepted at another.** -/
theorem not_consistent : ¬∀ (cfg : Config) (ls : List (Label Bool)) (s : State Bool),
    Lts.Run (Lts.ofStep (step cfg)) State.init ls s → Consistent cfg s := by
  intro h
  obtain ⟨s, hrun, hs⟩ := Lts.exists_run_of_exec (step plainConfig) State.init twice
    (fun s => s.log = [.accepted true [1] 0] ++ .returned false 0 (.consumed [1] "ada" [2]) ::
      [.saved false (.consumed [1] "ada" [2]), .minted false [2] "ada", .accepted false [1] 0,
        .returned false 0 (.issued "ada" [1]), .saved false (.issued "ada" [1]),
        .minted false [1] "ada"]) (by decide +kernel)
  have hends : (Outcome.consumed [1] "ada" [2]).Ends (D := Bool) [1]
      [.saved false (.consumed [1] "ada" [2]), .minted false [2] "ada", .accepted false [1] 0,
        .returned false 0 (.issued "ada" [1]), .saved false (.issued "ada" [1]),
        .minted false [1] "ada"] := .inl ⟨_, _, rfl⟩
  exact ((h plainConfig twice s hrun).ended _ _ _ _ _ _ (of_decide_eq_true hs) hends).2 true 0
    (by simp)

end WebAuth

end OtamanBridge
