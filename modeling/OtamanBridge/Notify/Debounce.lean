import OtamanBridge.Core
import OtamanBridge.Lib.Dict
import OtamanBridge.Lib.PyFloat
import OtamanBridge.Lib.PyValue
import OtamanBridge.Lib.Run

/-!
# The debounce of the stop hook

`debounce_ok` of `stop_notify.py`: whether a session may notify, by what `stop-notify.state`
says of it. The file has one entry for a session, the time and the hash of its last
notification, and entries that are older than a day are dropped as it is read.

The module says that the same text is never notified twice for a session. One entry is not
enough for that: a text that comes again after another one is notified again. And the clock is
cut to whole seconds before times are compared. `OtamanBridge.Notify.debounced_iff` has the
exact condition; that sessions do not mind each other holds always.

What JSON writes it reads back, and the files are written whenever the code does.
-/

namespace OtamanBridge

namespace Notify

open Py

open Value (isDict isText field ofFields)

namespace Debounce

/-- What Python makes of a value. -/
structure Python where
  /-- `int(v)`, if it does not raise. -/
  toInt : Value → Option ℤ
  toInt_int : ∀ n, toInt (.int n) = some n

/-! ### The state file -/

/-- The `dict` in the state file. -/
abbrev Store := AList fun _ : Text => Value

/-- A call of `debounce_ok`, and the clock. -/
structure Call where
  time : Seconds
  session : Text
  hash : Text
  deriving DecidableEq

/-- `MIN_DEBOUNCE_SECONDS`. -/
def minDebounceSeconds : ℤ := 60

/-- `PRUNE_OLDER_THAN_SECONDS`. -/
def pruneOlderThanSeconds : ℤ := 24 * 60 * 60

/-- `int(time.time())`. -/
def Call.now (c : Call) : ℤ := trunc c.time

/-- `{"ts": now, "hash": content_hash}`. -/
def Call.entry (c : Call) : Value := ofFields [("ts", .int c.now), ("hash", .str c.hash)]

section

variable (py : Python)

/-- `int(v.get("ts", 0))`. -/
def tsOf (v : Value) : Option ℤ := py.toInt ((v.get "ts").getD (.int 0))

/-- The entry is kept. -/
def fresh (now : ℤ) (v : Value) : Bool :=
  isDict v && (tsOf py v).any (now - · < pruneOlderThanSeconds)

/-- `int` takes the time of the entry, if it is one. -/
def timed (v : Value) : Bool := !isDict v || (tsOf py v).isSome

/-- `_prune_state`. -/
def pruneState (now : ℤ) (state : Store) : Except Unit Store :=
  if state.entries.all fun e => timed py e.2 then .ok (Dict.keep (fresh py now) state)
  else .error ()

/-- Why there is no notification. -/
def suppressed (c : Call) (previous : Value) : Bool :=
  (tsOf py previous).any (c.now - · < minDebounceSeconds) || isText c.hash (field previous "hash")

/-- `debounce_ok`: what is in the file afterwards, and the answer. -/
def debounceOk (store : Store) (c : Call) : Store × Except Unit Bool :=
  match pruneState py c.now store with
  | .error () => (store, .error ())
  | .ok state =>
    if (state.lookup c.session).any (suppressed py c) then (store, .ok false)
    else (state.insert c.session c.entry, .ok true)

/-! ### Calls one after the other -/

/-- What there is between two calls: the file, the clock, and the answers, the last one
first. -/
structure State where
  store : Store
  clock : Seconds
  answers : List (Call × Except Unit Bool)

/-- Nothing was answered yet. -/
def start (store : Store) (clock : Seconds) : State := ⟨store, clock, []⟩

/-- A call; the clock does not go back. -/
def step (s : State) (c : Call) : Option State :=
  if s.clock ≤ c.time then
    some ⟨(debounceOk py s.store c).1, c.time, (c, (debounceOk py s.store c).2) :: s.answers⟩
  else none

/-! ### What is asked of it -/

/-- The call, if there is a notification. -/
def notifies (a : Call × Except Unit Bool) : Option Call :=
  if a.2 = .ok true then some a.1 else none

/-- The calls that notified, the last one first. -/
def State.notified (s : State) : List Call := s.answers.filterMap notifies

/-- The last call for the session that notified. -/
def State.last (s : State) (session : Text) : Option Call :=
  s.notified.find? (·.session = session)

/-- Notifications of one session are a minute apart. -/
def Apart (later earlier : Call) : Prop :=
  later.session = earlier.session → minDebounceSeconds ≤ later.time - earlier.time

/-- Those of one session and one hash are a day apart. -/
def Renewed (later earlier : Call) : Prop :=
  later.session = earlier.session → later.hash = earlier.hash →
    pruneOlderThanSeconds ≤ later.time - earlier.time

/-- **The notifications are debounced**: those of one session are a minute apart, those of one
session and one hash a day, and what a session is answered is what it would be alone. -/
structure Debounced (s₀ : State) (cs : List Call) (s : State) : Prop where
  apart : s.notified.Pairwise Apart
  renewed : s.notified.Pairwise Renewed
  alone : ∀ session, ∃ s', Lts.Run (Lts.ofStep (step py)) s₀
    (cs.filter (·.session = session)) s' ∧
      s'.answers = s.answers.filter (·.1.session = session)

/-- The last notification of the session is enough to suppress the call. -/
def Remembered (c last : Call) : Prop :=
  c.now - last.now < minDebounceSeconds ∨
    last.hash = c.hash ∧ c.now - last.now < pruneOlderThanSeconds

instance (c last : Call) : Decidable (Remembered c last) := inferInstanceAs (Decidable (_ ∨ _))

/-- The call is to be suppressed because of this notification. -/
def Repeats (c e : Call) : Prop :=
  e.session = c.session ∧ (c.time - e.time < minDebounceSeconds ∨
    c.hash = e.hash ∧ c.time - e.time < pruneOlderThanSeconds)

instance (c e : Call) : Decidable (Repeats c e) := inferInstanceAs (Decidable (_ ∧ _))

/-- **The last notification tells**: if the call is to be suppressed because of one of the
notifications, then the last one of the session is enough to suppress it. -/
def LastTells (s : State) (c : Call) : Prop :=
  ∀ e ∈ s.notified, Repeats c e → ∃ last ∈ s.last c.session, Remembered c last

instance (s : State) (c : Call) : Decidable (LastTells s c) :=
  inferInstanceAs (Decidable (∀ e ∈ _, _ → ∃ last ∈ s.last c.session, _))

end

variable {py : Python} {s s' s₀ : State} {c e last : Call} {store : Store} {session : Text}

/-! ### Entries -/

@[simp]
theorem tsOf_entry : tsOf py c.entry = some c.now := by
  rw [tsOf, Call.entry, Value.get_ofFields_cons, if_pos rfl, Option.getD_some, py.toInt_int]

theorem fresh_entry {now : ℤ} : fresh py now c.entry ↔ now - c.now < pruneOlderThanSeconds := by
  rw [fresh, tsOf_entry, Option.any_some, Bool.and_eq_true, decide_eq_true_eq]
  exact and_iff_right rfl

theorem suppressed_entry : suppressed py c e.entry ↔
    c.now - e.now < minDebounceSeconds ∨ e.hash = c.hash := by
  have hhash : field e.entry "hash" = .str e.hash := by
    simp [field, Call.entry, Value.get_ofFields_cons]
  rw [suppressed, tsOf_entry, hhash, Option.any_some, Bool.or_eq_true, decide_eq_true_eq,
    isText, decide_eq_true_eq]

theorem timed_entry : timed py c.entry := by
  simp [timed]

/-- What is old stays old. -/
theorem fresh_of_le {now now' : ℤ} {v : Value} (hle : now ≤ now') (h : fresh py now' v) :
    fresh py now v := by
  rw [fresh, Bool.and_eq_true, Option.any_eq_true] at h ⊢
  obtain ⟨hdict, ts, hts, hlt⟩ := h
  refine ⟨hdict, ts, hts, ?_⟩
  rw [decide_eq_true_eq] at hlt ⊢
  omega

/-! ### One call -/

/-- `int` takes the times of all entries. -/
def Timed (py : Python) (store : Store) : Prop :=
  ∀ session v, store.lookup session = some v → timed py v

theorem timed_iff : Timed py store ↔ store.entries.all fun e => timed py e.2 := by
  rw [List.all_eq_true]
  constructor
  · rintro h ⟨session, v⟩ hmem
    exact h session v (AList.mem_lookup_iff.mpr hmem)
  · exact fun h session v hv => h ⟨session, v⟩ (AList.mem_lookup_iff.mp hv)

/-- The entry of a session that is looked at. -/
def previous (py : Python) (store : Store) (session : Text) (now : ℤ) : Option Value :=
  (store.lookup session).filter (fresh py now)

/-- **What a call does**: it raises, is suppressed, or notifies. -/
theorem debounceOk_cases (py : Python) (store : Store) (c : Call) :
    ¬Timed py store ∧ debounceOk py store c = (store, .error ()) ∨
      Timed py store ∧ ((previous py store c.session c.now).any (suppressed py c) ∧
          debounceOk py store c = (store, .ok false) ∨
        ¬(previous py store c.session c.now).any (suppressed py c) ∧
          debounceOk py store c =
            ((Dict.keep (fresh py c.now) store).insert c.session c.entry, .ok true)) := by
  unfold debounceOk pruneState previous
  rw [timed_iff, ← Dict.lookup_keep]
  by_cases htimed : store.entries.all fun e => timed py e.2
  · refine .inr ⟨htimed, ?_⟩
    simp only [if_pos htimed]
    by_cases hany : ((Dict.keep (fresh py c.now) store).lookup c.session).any (suppressed py c)
    · exact .inl ⟨hany, if_pos hany⟩
    · exact .inr ⟨hany, if_neg hany⟩
  · exact .inl ⟨htimed, by simp only [if_neg htimed]⟩

/-- What is written has times that `int` takes. -/
theorem Timed.insert (h : Timed py store) :
    Timed py ((Dict.keep (fresh py c.now) store).insert c.session c.entry) := by
  intro session v hv
  rcases Dict.lookup_of_insert hv with ⟨-, rfl⟩ | ⟨-, hv⟩
  · exact timed_entry
  · exact h session v (Dict.lookup_keep_eq_some.mp hv).1

/-- What is looked at of a session after a call for it that notified. -/
theorem previous_insert_self {now : ℤ} :
    previous py ((Dict.keep (fresh py c.now) store).insert c.session c.entry) c.session now =
      (some c.entry).filter (fresh py now) := by
  rw [previous, AList.lookup_insert]

/-- And of another session, from then on. -/
theorem previous_insert_of_ne {now : ℤ} (hne : session ≠ c.session) (hle : c.now ≤ now) :
    previous py ((Dict.keep (fresh py c.now) store).insert c.session c.entry) session now =
      previous py store session now := by
  rw [previous, AList.lookup_insert_ne hne, Dict.lookup_keep, previous, Option.filter_filter]
  congr 1
  funext v
  by_cases hfresh : fresh py now v
  · rw [hfresh, fresh_of_le hle hfresh, Bool.and_self]
  · simp [hfresh]

/-! ### The last notification -/

theorem step_eq_some (h : step py s c = some s') : s.clock ≤ c.time ∧
    s' = ⟨(debounceOk py s.store c).1, c.time, (c, (debounceOk py s.store c).2) :: s.answers⟩ := by
  unfold step at h
  split_ifs at h with hle
  exact ⟨hle, (Option.some.inj h).symm⟩

/-- **What the file says of the notifications.** -/
structure Inv (py : Python) (s : State) : Prop where
  before : ∀ e ∈ s.notified, e.time ≤ s.clock
  timed : s.notified ≠ [] → Timed py s.store
  last : ∀ session last, s.last session = some last →
    s.store.lookup session = some last.entry ∨
      s.store.lookup session = none ∧ pruneOlderThanSeconds ≤ trunc s.clock - last.now

theorem inv_start (store : Store) (clock : Seconds) : Inv py (start store clock) := by
  refine ⟨fun e he => ?_, fun hne => absurd rfl hne, fun session last hlast => ?_⟩
  · exact absurd he List.not_mem_nil
  · exact absurd hlast (by simp [State.last, State.notified, start])

/-- The notifications after a call. -/
theorem notified_step (h : step py s c = some s') : s'.notified =
    if (debounceOk py s.store c).2 = .ok true then c :: s.notified else s.notified := by
  obtain ⟨-, rfl⟩ := step_eq_some h
  unfold State.notified
  rw [List.filterMap_cons]
  unfold notifies
  split_ifs
  · rfl
  · rfl

/-- **What a call leaves**: as it was, if it does not notify; or the entries that are not old,
with one for the call. -/
theorem step_cases (h : step py s c = some s') :
    s'.notified = s.notified ∧ s'.store = s.store ∨
      Timed py s.store ∧ s'.notified = c :: s.notified ∧
        s'.store = (Dict.keep (fresh py c.now) s.store).insert c.session c.entry := by
  have hnotified := notified_step h
  have hstore : s'.store = (debounceOk py s.store c).1 := by rw [(step_eq_some h).2]
  rcases debounceOk_cases py s.store c with ⟨-, heq⟩ | ⟨htimed, ⟨-, heq⟩ | ⟨-, heq⟩⟩
  · rw [heq, if_neg (by simp)] at hnotified
    exact .inl ⟨hnotified, by rw [hstore, heq]⟩
  · rw [heq, if_neg (by simp)] at hnotified
    exact .inl ⟨hnotified, by rw [hstore, heq]⟩
  · rw [heq, if_pos rfl] at hnotified
    exact .inr ⟨htimed, hnotified, by rw [hstore, heq]⟩

theorem clock_step (h : step py s c = some s') : s.clock ≤ c.time ∧ s'.clock = c.time := by
  obtain ⟨hle, rfl⟩ := step_eq_some h
  exact ⟨hle, rfl⟩

/-- What the file says of a notification is left of it when what is old by then is dropped. -/
theorem lookup_keep_last {before now : ℤ} (hle : before ≤ now)
    (h : store.lookup session = some last.entry ∨
      store.lookup session = none ∧ pruneOlderThanSeconds ≤ before - last.now) :
    (Dict.keep (fresh py now) store).lookup session = some last.entry ∨
      (Dict.keep (fresh py now) store).lookup session = none ∧
        pruneOlderThanSeconds ≤ now - last.now := by
  rw [Dict.lookup_keep]
  rcases h with hentry | ⟨hnone, hold⟩
  · rw [hentry, Option.filter_some]
    by_cases hfresh : fresh py now last.entry
    · exact .inl (if_pos hfresh)
    · refine .inr ⟨if_neg hfresh, ?_⟩
      rw [fresh_entry] at hfresh
      omega
  · rw [hnone]
    exact .inr ⟨rfl, by omega⟩

theorem Inv.after (hi : Inv py s) (h : step py s c = some s') : Inv py s' := by
  obtain ⟨hle, hclock⟩ := clock_step h
  have hnow : trunc s.clock ≤ c.now := trunc_mono hle
  rcases step_cases h with ⟨hnotified, hstore⟩ | ⟨htimed, hnotified, hstore⟩
  · constructor
    · intro e he
      rw [hnotified] at he
      rw [hclock]
      exact (hi.before e he).trans hle
    · rw [hnotified, hstore]
      exact hi.timed
    · intro session last hlast
      rw [State.last, hnotified] at hlast
      rw [hstore, hclock]
      refine (hi.last session last hlast).imp_right fun hold => ⟨hold.1, ?_⟩
      exact hold.2.trans (by change _ ≤ c.now - _; omega)
  · constructor
    · intro e he
      rw [hnotified] at he
      rw [hclock]
      rcases List.mem_cons.mp he with rfl | he
      · exact le_rfl
      · exact (hi.before e he).trans hle
    · intro _
      rw [hstore]
      exact htimed.insert
    · intro session last hlast
      rw [State.last, hnotified] at hlast
      rw [hstore, hclock]
      change _ ∨ _ ∧ pruneOlderThanSeconds ≤ c.now - last.now
      by_cases hsession : c.session = session
      · rw [List.find?_cons_of_pos (by simpa using hsession)] at hlast
        obtain rfl := Option.some.inj hlast
        rw [← hsession, AList.lookup_insert]
        exact .inl rfl
      · rw [List.find?_cons_of_neg (by simpa using hsession)] at hlast
        rw [AList.lookup_insert_ne (Ne.symm hsession)]
        exact lookup_keep_last hnow (hi.last session last hlast)

/-- **A call for a session that has notified** notifies just when the last notification is not
enough to suppress it. -/
theorem Inv.notifies_iff (hi : Inv py s) (hle : s.clock ≤ c.time)
    (hlast : s.last c.session = some last) :
    (debounceOk py s.store c).2 = .ok true ↔ ¬Remembered c last := by
  have hnow : trunc s.clock ≤ c.now := trunc_mono hle
  have htimed : Timed py s.store := hi.timed (List.ne_nil_of_mem (List.mem_of_find?_eq_some hlast))
  have hprevious : (previous py s.store c.session c.now).any (suppressed py c) ↔
      Remembered c last := by
    unfold Remembered previous
    rcases hi.last c.session last hlast with hentry | ⟨hnone, hold⟩
    · rw [hentry, Option.filter_some]
      by_cases hfresh : fresh py c.now last.entry
      · rw [if_pos hfresh, Option.any_some, suppressed_entry]
        rw [fresh_entry] at hfresh
        simp [hfresh]
      · rw [if_neg hfresh]
        rw [fresh_entry] at hfresh
        refine iff_of_false (by simp) ?_
        unfold pruneOlderThanSeconds minDebounceSeconds at *
        omega
    · rw [hnone]
      refine iff_of_false (by simp) ?_
      unfold pruneOlderThanSeconds minDebounceSeconds at *
      omega
  rw [← hprevious]
  rcases debounceOk_cases py s.store c with ⟨hno, -⟩ | ⟨-, ⟨hany, heq⟩ | ⟨hany, heq⟩⟩
  · exact absurd htimed hno
  · rw [heq]
    simp [hany]
  · rw [heq]
    simp [hany]

/-! ### When the notifications are apart -/

/-- The notifications are a minute apart, and those of one hash a day. -/
def Spaced (s : State) : Prop := s.notified.Pairwise Apart ∧ s.notified.Pairwise Renewed

theorem not_repeats_iff : ¬Repeats c e ↔ Apart c e ∧ Renewed c e := by
  unfold Repeats Apart Renewed
  constructor
  · intro h
    refine ⟨fun hs => ?_, fun hs hhash => ?_⟩
    · exact not_lt.mp fun hlt => h ⟨hs.symm, .inl hlt⟩
    · exact not_lt.mp fun hlt => h ⟨hs.symm, .inr ⟨hhash, hlt⟩⟩
  · rintro ⟨hapart, hrenewed⟩ ⟨hs, hlt | ⟨hhash, hlt⟩⟩
    · exact absurd (hapart hs.symm) (not_le.mpr hlt)
    · exact absurd (hrenewed hs.symm hhash) (not_le.mpr hlt)

/-- A notification more. -/
theorem spaced_cons (h : s'.notified = c :: s.notified) :
    Spaced s' ↔ (∀ e ∈ s.notified, ¬Repeats c e) ∧ Spaced s := by
  unfold Spaced
  rw [h, List.pairwise_cons, List.pairwise_cons]
  simp only [not_repeats_iff, forall_and]
  tauto

theorem spaced_congr (h : s'.notified = s.notified) : Spaced s' ↔ Spaced s := by
  rw [Spaced, h, Spaced]

/-- There is a last notification of a session that has notified. -/
theorem exists_last (he : e ∈ s.notified) (hsession : e.session = session) :
    ∃ last, s.last session = some last := by
  rw [← Option.isSome_iff_exists, State.last, List.find?_isSome]
  exact ⟨e, he, by simpa using hsession⟩

/-- **The step lemma**: a call keeps the notifications apart just when the last one tells. -/
theorem Inv.spaced_step (hi : Inv py s) (hspaced : Spaced s) (h : step py s c = some s') :
    Spaced s' ↔ LastTells s c := by
  obtain ⟨hle, -⟩ := clock_step h
  have hnotified := notified_step h
  have hall : LastTells s c ↔
      ((debounceOk py s.store c).2 = .ok true → ∀ e ∈ s.notified, ¬Repeats c e) := by
    constructor
    · intro htells hyes e he hrepeats
      obtain ⟨last, hlast, hremembered⟩ := htells e he hrepeats
      exact (hi.notifies_iff hle hlast).mp hyes hremembered
    · intro hall e he hrepeats
      obtain ⟨last, hlast⟩ := exists_last he hrepeats.1
      refine ⟨last, hlast, ?_⟩
      by_contra hno
      exact hall ((hi.notifies_iff hle hlast).mpr hno) e he hrepeats
  rw [hall]
  by_cases hyes : (debounceOk py s.store c).2 = .ok true
  · rw [if_pos hyes] at hnotified
    rw [spaced_cons hnotified]
    simp [hyes, hspaced]
  · rw [if_neg hyes] at hnotified
    rw [spaced_congr hnotified]
    simp [hyes, hspaced]

/-- What is not apart stays so. -/
theorem not_spaced_step (hno : ¬Spaced s) (h : step py s c = some s') : ¬Spaced s' := by
  rcases step_cases h with ⟨hnotified, -⟩ | ⟨-, hnotified, -⟩
  · rwa [spaced_congr hnotified]
  · rw [spaced_cons hnotified]
    exact fun hspaced => hno hspaced.2

/-! ### A session alone -/

/-- The session is answered alike in the two states, now and later. -/
structure Alike (py : Python) (session : Text) (s s' : State) : Prop where
  clock : s'.clock ≤ s.clock
  answers : s'.answers = s.answers.filter (·.1.session = session)
  timed : Timed py s'.store ↔ Timed py s.store
  previous : ∀ now, trunc s.clock ≤ now →
    previous py s'.store session now = previous py s.store session now

/-- **A call for the session** is answered alike. -/
theorem Alike.call (ha : Alike py session s s') (hsession : c.session = session)
    {t : State} (h : step py s c = some t) :
    ∃ t', step py s' c = some t' ∧ Alike py session t t' := by
  obtain ⟨hle, rfl⟩ := step_eq_some h
  have hle' : s'.clock ≤ c.time := ha.clock.trans hle
  have hnow : trunc s.clock ≤ c.now := trunc_mono hle
  have hprevious := ha.previous c.now hnow
  refine ⟨_, if_pos hle', ?_⟩
  subst hsession
  rcases debounceOk_cases py s.store c with ⟨hno, heq⟩ | ⟨hyes, ⟨hany, heq⟩ | ⟨hany, heq⟩⟩
  · have heq' : debounceOk py s'.store c = (s'.store, .error ()) := by
      rcases debounceOk_cases py s'.store c with ⟨-, heq'⟩ | ⟨hyes, -⟩
      · exact heq'
      · exact absurd (ha.timed.mp hyes) hno
    rw [heq, heq']
    refine ⟨le_rfl, ?_, ha.timed, fun now hnow' => ha.previous now (hnow.trans hnow')⟩
    rw [List.filter_cons_of_pos (by simp), ha.answers]
  · have heq' : debounceOk py s'.store c = (s'.store, .ok false) := by
      rw [← hprevious] at hany
      rcases debounceOk_cases py s'.store c with ⟨hno, -⟩ | ⟨-, ⟨-, heq'⟩ | ⟨hno, -⟩⟩
      · exact absurd (ha.timed.mpr hyes) hno
      · exact heq'
      · exact absurd hany hno
    rw [heq, heq']
    refine ⟨le_rfl, ?_, ha.timed, fun now hnow' => ha.previous now (hnow.trans hnow')⟩
    rw [List.filter_cons_of_pos (by simp), ha.answers]
  · have hyes' : Timed py s'.store := ha.timed.mpr hyes
    have heq' : debounceOk py s'.store c =
        ((Dict.keep (fresh py c.now) s'.store).insert c.session c.entry, .ok true) := by
      rw [← hprevious] at hany
      rcases debounceOk_cases py s'.store c with ⟨hno, -⟩ | ⟨-, ⟨hyes, -⟩ | ⟨-, heq'⟩⟩
      · exact absurd hyes' hno
      · exact absurd hyes hany
      · exact heq'
    rw [heq, heq']
    refine ⟨le_rfl, ?_, iff_of_true hyes'.insert hyes.insert, fun now _ => ?_⟩
    · rw [List.filter_cons_of_pos (by simp), ha.answers]
    · rw [previous_insert_self, previous_insert_self]

/-- **A call for another session** changes nothing for this one. -/
theorem Alike.other (ha : Alike py session s s') (hsession : c.session ≠ session)
    {t : State} (h : step py s c = some t) : Alike py session t s' := by
  obtain ⟨hle, rfl⟩ := step_eq_some h
  have hnow : trunc s.clock ≤ c.now := trunc_mono hle
  have hanswers : ∀ answer, s'.answers =
      ((c, answer) :: s.answers).filter (·.1.session = session) := fun answer => by
    rw [List.filter_cons_of_neg (by simpa using hsession), ha.answers]
  rcases debounceOk_cases py s.store c with ⟨-, heq⟩ | ⟨htimed, ⟨-, heq⟩ | ⟨-, heq⟩⟩
  · rw [heq]
    exact ⟨ha.clock.trans hle, hanswers _, ha.timed,
      fun now hnow' => ha.previous now (hnow.trans hnow')⟩
  · rw [heq]
    exact ⟨ha.clock.trans hle, hanswers _, ha.timed,
      fun now hnow' => ha.previous now (hnow.trans hnow')⟩
  · rw [heq]
    refine ⟨ha.clock.trans hle, hanswers _, iff_of_true (ha.timed.mpr htimed) htimed.insert,
      fun now hnow' => ?_⟩
    rw [previous_insert_of_ne (Ne.symm hsession) hnow']
    exact ha.previous now (hnow.trans hnow')

/-- **What a session is answered** is what it would be alone, over any run. -/
theorem exists_alone {clock : Seconds} {cs : List Call}
    (hrun : Lts.Run (Lts.ofStep (step py)) (start store clock) cs s) (session : Text) :
    ∃ s', Lts.Run (Lts.ofStep (step py)) (start store clock)
      (cs.filter (·.session = session)) s' ∧ Alike py session s s' := by
  refine Lts.Run.inv (I := fun cs s => ∃ s', Lts.Run (Lts.ofStep (step py)) (start store clock)
    (cs.filter (·.session = session)) s' ∧ Alike py session s s') ?_ ?_ hrun
  · exact ⟨_, .nil, le_rfl, rfl, Iff.rfl, fun _ _ => rfl⟩
  · rintro cs s c t - ⟨s', hrun', ha⟩ hstep
    rw [List.filter_append]
    by_cases hsession : c.session = session
    · obtain ⟨t', hstep', ha'⟩ := ha.call hsession hstep
      rw [List.filter_cons_of_pos (by simpa using hsession)]
      exact ⟨t', hrun'.snoc hstep', ha'⟩
    · rw [List.filter_cons_of_neg (by simpa using hsession), List.filter_nil, List.append_nil]
      exact ⟨s', hrun', ha.other hsession hstep⟩

/-! ### Any number of calls -/

/-- **When the notifications are debounced.** For any calls, whatever is in the state file at
the beginning: notifications of a session are a minute apart and those of one hash a day, and a
session is answered what it would be alone, just when in each step the last notification tells
what all of them do. -/
theorem debounced_iff {clock : Seconds} {cs : List Call}
    (hrun : Lts.Run (Lts.ofStep (step py)) (start store clock) cs s) :
    Debounced py (start store clock) cs s ↔
      Lts.Run (Lts.Under LastTells (Lts.ofStep (step py))) (start store clock) cs s := by
  have hi : Inv py s :=
    Lts.Run.inv_state (inv_start store clock) (fun _ _ _ hi h => hi.after h) hrun
  have hiff := Lts.Run.iff_under (C := LastTells) (P := fun s => Inv py s ∧ Spaced s)
    (B := fun s => ¬Spaced s) ⟨inv_start store clock, List.Pairwise.nil, List.Pairwise.nil⟩
    ?_ ?_ ?_ ?_ hrun
  · rw [← hiff]
    constructor
    · exact fun h => ⟨hi, h.apart, h.renewed⟩
    · rintro ⟨-, hspaced⟩
      refine ⟨hspaced.1, hspaced.2, fun session => ?_⟩
      obtain ⟨s', hrun', ha⟩ := exists_alone hrun session
      exact ⟨s', hrun', ha.answers⟩
  · rintro s c s' ⟨hi, hspaced⟩ htells h
    exact ⟨hi.after h, (hi.spaced_step hspaced h).mpr htells⟩
  · rintro s c s' ⟨hi, hspaced⟩ hno h
    exact fun hspaced' => hno ((hi.spaced_step hspaced h).mp hspaced')
  · exact fun s c s' hno h => not_spaced_step hno h
  · exact fun s hno hP => hno hP.2

/-! ### Two questions in turn -/

/-- Python, as far as integers go. -/
def intPython : Python where
  toInt
    | .int n => some n
    | _ => none
  toInt_int _ := rfl

/-- A call for one of two sessions. -/
def ask (time : ℕ) (session hash : String) : Call := ⟨time, lit session, lit hash⟩

/-- Two sessions ask, and ask again: after half a minute, and the same after a day. -/
theorem debounced_two : ∃ s, Debounced intPython (start ∅ 0)
    [ask 0 "s" "a", ask 10 "t" "a", ask 30 "s" "b", ask 60 "s" "b", ask 86400 "s" "a"] s := by
  obtain ⟨s, hrun, -⟩ := Lts.exists_under_run_of_exec (step intPython) (C := LastTells)
    (fun s c => decide (LastTells s c)) (fun _ _ => of_decide_eq_true) (start ∅ 0)
    [ask 0 "s" "a", ask 10 "t" "a", ask 30 "s" "b", ask 60 "s" "b", ask 86400 "s" "a"]
    (fun _ => true) (by decide +kernel)
  exact ⟨s, (debounced_iff hrun.of_under).mpr hrun⟩

/-- **The first question again after another one** is notified again. -/
theorem not_debounced : ¬∀ (py : Python) (store : Store) (clock : Seconds) (cs : List Call)
    (s : State), Lts.Run (Lts.ofStep (step py)) (start store clock) cs s →
      Debounced py (start store clock) cs s := by
  intro h
  obtain ⟨s, hrun, hs⟩ := Lts.exists_run_of_exec (step intPython) (start ∅ 0)
    [ask 0 "s" "a", ask 60 "s" "b", ask 120 "s" "a"]
    (fun s => s.notified = [ask 120 "s" "a", ask 60 "s" "b", ask 0 "s" "a"])
    (by decide +kernel)
  have hrenewed := (h intPython ∅ 0 _ s hrun).renewed
  rw [of_decide_eq_true hs, List.pairwise_cons] at hrenewed
  have hday := hrenewed.1 (ask 0 "s" "a") (by simp) rfl rfl
  revert hday
  decide +kernel

end Debounce

end Notify

end OtamanBridge
