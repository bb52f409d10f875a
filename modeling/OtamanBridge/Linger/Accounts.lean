import OtamanBridge.Lib.Custody
import OtamanBridge.Linger.Manager

/-!
# Every start is accounted for once

Several timers of one key may be under way at once, while entries are taken out and replaced.
But an entry is under one key or with one timer that has taken it out, and no operation copies
one: the manager has custody of what was started (`OtamanBridge.Custody`). So in every run
`on_expire` is called at most once for a `start`, with what that `start` was called with, and
not at all for one that was cancelled or replaced (`OtamanBridge.Linger.accounted_of_run`).
-/

namespace OtamanBridge

namespace Linger

open Py

/-! ### What the log says -/

namespace Event

/-- The `start` that put its entry in. -/
def starts : Event → Option Account
  | started account _ => some account
  | _ => none

/-- The `start` that `on_expire` was called for. -/
def expires : Event → Option Account
  | expired account _ => some account
  | _ => none

/-- The `start` that has come to its end, one way or another. -/
def ends : Event → Option Account
  | replaced account | cancelled account | expired account _ => some account
  | started .. | extended .. => none

end Event

/-- **Every `start` is accounted for once.** -/
structure Accounted (log : List Event) : Prop where
  /-- The numbers tell the calls of `start` apart. -/
  distinct : ((log.filterMap Event.starts).map Account.origin).Nodup
  /-- `on_expire` is called for a `start`, with what it was called with. -/
  own : ∀ account ∈ log.filterMap Event.expires, account ∈ log.filterMap Event.starts
  /-- At most once. -/
  once : (log.filterMap Event.expires).Nodup
  /-- And not for one whose entry was cancelled. -/
  cancelled : ∀ account, .cancelled account ∈ log → account ∉ log.filterMap Event.expires
  /-- Nor for one that was replaced by a later one. -/
  replaced : ∀ account, .replaced account ∈ log → account ∉ log.filterMap Event.expires

/-- What expires comes to its end. -/
theorem Event.ends_of_expires {e : Event} {account : Account} (h : e.expires = some account) :
    e.ends = some account := by
  cases e with
  | expired => exact h
  | _ => exact absurd h (by simp [Event.expires])

/-! ### Where an entry is -/

/-- The `start` whose entry `_fire` has taken out. -/
def Phase.account : Phase → Option Account
  | .firing account => some account
  | .waiting | .woken | .ended => none

/-- What is under a key, and what a timer has taken out. -/
def heldIn (entries : Entries) (timers : ℕ → Option Timer) : Key ⊕ ℕ → Option Account :=
  Sum.elim (fun key => (entries.lookup key).map Entry.account)
    fun i => (timers i).bind fun timer => timer.phase.account

section Held

variable {entries : Entries} {timers : ℕ → Option Timer} {key : Key}

/-- An entry is put under its key. -/
theorem heldIn_insert (entry : Entry) :
    heldIn (entries.insert key entry) timers =
      Function.update (heldIn entries timers) (.inl key) (some entry.account) := by
  rw [heldIn, heldIn, Sum.update_elim_inl]
  congr 1
  funext k
  rcases eq_or_ne k key with rfl | hne
  · rw [AList.lookup_insert, Function.update_self]
    rfl
  · rw [AList.lookup_insert_ne hne, Function.update_of_ne hne]

/-- The entry of a key is taken out. -/
theorem heldIn_erase :
    heldIn (entries.erase key) timers =
      Function.update (heldIn entries timers) (.inl key) none := by
  rw [heldIn, heldIn, Sum.update_elim_inl]
  congr 1
  funext k
  rcases eq_or_ne k key with rfl | hne
  · rw [AList.lookup_erase, Function.update_self]
    rfl
  · rw [AList.lookup_erase_ne hne, Function.update_of_ne hne]

/-- A timer is written. -/
theorem heldIn_setTimer (i : ℕ) (timer : Option Timer) :
    heldIn entries (Function.update timers i timer) =
      Function.update (heldIn entries timers) (.inr i)
        (timer.bind fun timer => timer.phase.account) := by
  rw [heldIn, heldIn, Sum.update_elim_inr]
  congr 1
  funext j
  rcases eq_or_ne j i with rfl | hne
  · rw [Function.update_self, Function.update_self]
  · rw [Function.update_of_ne hne, Function.update_of_ne hne]

end Held

variable {T : Type}

/-- What is held in a state. -/
def State.held (s : State T) : Key ⊕ ℕ → Option Account := heldIn s.entries s.timers

variable {cfg : Config} {s s' : State T} {key : Key}

theorem held_key {entry : Entry} (h : s.entries.lookup key = some entry) :
    s.held (.inl key) = some entry.account := by
  show (s.entries.lookup key).map Entry.account = _
  rw [h]
  rfl

theorem held_timer {i : ℕ} {timer : Timer} (h : s.timers i = some timer) :
    s.held (.inr i) = timer.phase.account := by
  show (s.timers i).bind _ = _
  rw [h]
  rfl

/-- **`_cancel_existing` takes nothing out.** -/
theorem held_cancelExisting : (cancelExisting s key).held = s.held := by
  unfold cancelExisting
  split
  · rfl
  next entry hentry =>
    split
    · rfl
    next i hi =>
      have hcancel : (fun timer : Timer => timer.phase.account) ∘ Timer.cancel =
          fun timer => timer.phase.account := by
        funext timer
        obtain ⟨phase, heq, rfl | ⟨hwait, rfl⟩⟩ := timer.cancel_eq
        · rw [Function.comp_apply, heq]
        · rw [Function.comp_apply, heq, hwait]
          rfl
      show heldIn (s.entries.insert key _) (Function.update s.timers i _) = s.held
      have htimer : (((s.timers i).map Timer.cancel).bind fun timer => timer.phase.account) =
          s.held (.inr i) := by
        rw [Option.bind_map, hcancel]
        rfl
      rw [heldIn_insert, heldIn_setTimer, htimer, ← held_key hentry]
      show Function.update (Function.update s.held _ _) _ _ = _
      rw [Function.update_eq_self, Function.update_eq_self]

/-- **A new timer** has taken nothing out. -/
theorem held_arm (hnew : s.timers s.next = none) (account : Account) :
    (arm cfg s key account).held = Function.update s.held (.inl key) (some account) := by
  have hnone : s.held (.inr s.next) = none := by
    show (s.timers s.next).bind _ = _
    rw [hnew]
    rfl
  show heldIn (s.entries.insert key _) (Function.update s.timers s.next _) = _
  rw [heldIn_insert, heldIn_setTimer]
  show Function.update (Function.update s.held _ none) _ _ = _
  rw [← hnone, Function.update_eq_self]

/-! ### The invariant -/

/-- The manager has custody of what was started, and the timers are numbered one after the
other. -/
structure Keeps (s : State T) : Prop where
  numbered : ∀ i, s.next ≤ i → s.timers i = none
  below : ∀ account ∈ s.log.filterMap Event.starts, account.origin < s.next
  distinct : ((s.log.filterMap Event.starts).map Account.origin).Nodup
  custody : Custody s.held (s.log.filterMap Event.starts) (s.log.filterMap Event.ends)

theorem keeps_init : Keeps (State.init : State T) where
  numbered _ _ := rfl
  below _ h := absurd h List.not_mem_nil
  distinct := List.nodup_nil
  custody := by
    have hheld : (State.init : State T).held = fun _ => none := by
      funext p
      rcases p with key | i
      · show (AList.lookup key (∅ : Entries)).map Entry.account = none
        rw [AList.lookup_empty]
        rfl
      · rfl
    rw [hheld]
    exact Custody.empty

theorem Keeps.cancelExisting (h : Keeps s) : Keeps (cancelExisting s key) where
  numbered i hi := by
    have hnone := h.numbered i (cancelExisting_next ▸ hi)
    rcases cancelExisting_timers s key i with heq | heq <;>
      rw [heq, hnone]
    rfl
  below account haccount := by
    rw [cancelExisting_log] at haccount
    rw [cancelExisting_next]
    exact h.below account haccount
  distinct := by
    rw [cancelExisting_log]
    exact h.distinct
  custody := by
    rw [held_cancelExisting, cancelExisting_log]
    exact h.custody

/-- A timer that there is keeps its number. -/
theorem Keeps.update_timers (h : Keeps s) {i : ℕ} {timer : Timer}
    (htimer : s.timers i = some timer) {new : Option Timer} {j : ℕ} (hj : s.next ≤ j) :
    Function.update s.timers i new j = none := by
  have hne : j ≠ i := by
    rintro rfl
    rw [h.numbered j hj] at htimer
    exact absurd htimer (by simp)
  rw [Function.update_of_ne hne]
  exact h.numbered j hj

/-- A timer that there is gets a new phase, in which it holds what it held. -/
theorem Keeps.setPhase (h : Keeps s) {i : ℕ} {timer : Timer} (htimer : s.timers i = some timer)
    {phase : Phase} (hphase : phase.account = timer.phase.account) :
    Keeps (s.setPhase i timer phase) where
  numbered _ hj := h.update_timers htimer hj
  below := h.below
  distinct := h.distinct
  custody := by
    have hheld : (s.setPhase i timer phase).held = s.held := by
      show heldIn s.entries (Function.update s.timers i _) = s.held
      rw [heldIn_setTimer, Option.bind_some, hphase, ← held_timer htimer]
      exact Function.update_eq_self ..
    rw [hheld]
    exact h.custody

theorem arm_timers (h : Keeps s) (account : Account) {i : ℕ} (hi : s.next + 1 ≤ i) :
    (arm cfg s key account).timers i = none := by
  show Function.update s.timers s.next _ i = none
  rw [Function.update_of_ne (by omega)]
  exact h.numbered i (by omega)

/-- **`reset`**: the entry stays what it was. -/
theorem Keeps.reset (h : Keeps s) {entry : Entry} {account : Account} {time : Seconds}
    (hentry : s.entries.lookup key = some entry) (haccount : entry.account = account) :
    Keeps ((arm cfg s key account).note (.extended key time)) where
  numbered _ hi := arm_timers h account hi
  below account' haccount' := (h.below account' haccount').trans s.next.lt_succ_self
  distinct := h.distinct
  custody := by
    have hheld : (arm cfg s key account).held = s.held := by
      rw [held_arm (h.numbered _ le_rfl), ← haccount, ← held_key hentry]
      exact Function.update_eq_self ..
    show Custody (arm cfg s key account).held _ _
    rw [hheld]
    exact h.custody

/-- The entry that is in the way of a new one has come to its end. -/
theorem Keeps.replace (h : Keeps s) :
    Custody (Function.update s.held (.inl key) none) ((replace s key).log.filterMap Event.starts)
      ((replace s key).log.filterMap Event.ends) := by
  rcases hentry : s.entries.lookup key with _ | entry
  · have hnone : s.held (.inl key) = none := by
      show (s.entries.lookup key).map _ = none
      rw [hentry]
      rfl
    rw [Linger.replace, hentry, ← hnone, Function.update_eq_self]
    exact h.custody
  · rw [Linger.replace, hentry]
    exact h.custody.spend (held_key hentry)

theorem replace_starts :
    (replace s key).log.filterMap Event.starts = s.log.filterMap Event.starts := by
  unfold Linger.replace
  split <;> rfl

/-- **`start`**: a new number, and what was under the key has come to its end. -/
theorem Keeps.start (h : Keeps s) (ids : Ids) {time : Seconds} {n : ℕ} (hn : n = s.next) :
    Keeps ((arm cfg (Linger.replace s key) key ⟨n, ids⟩).note (.started ⟨n, ids⟩ time)) := by
  have hfresh : ∀ account ∈ (Linger.replace s key).log.filterMap Event.starts,
      account.origin < n := by
    intro account haccount
    rw [replace_starts] at haccount
    exact hn ▸ h.below account haccount
  have htimers := replace_timers s key
  have hheld : (Linger.replace s key).held = s.held := by
    unfold Linger.replace
    split <;> rfl
  constructor
  · intro i hi
    have hi' : s.next + 1 ≤ i := by
      rw [← replace_next s key]
      exact hi
    show Function.update (Linger.replace s key).timers (Linger.replace s key).next _ i = none
    rw [htimers, replace_next, Function.update_of_ne (by omega)]
    exact h.numbered i (by omega)
  · intro account haccount
    show account.origin < (Linger.replace s key).next + 1
    rw [replace_next, ← hn]
    rcases List.mem_cons.mp haccount with rfl | hold
    · exact n.lt_succ_self
    · exact (hfresh account hold).trans n.lt_succ_self
  · show (n :: ((Linger.replace s key).log.filterMap Event.starts).map Account.origin).Nodup
    refine List.nodup_cons.mpr ⟨fun hin => ?_, ?_⟩
    · obtain ⟨account, haccount, horigin⟩ := List.mem_map.mp hin
      exact (hfresh account haccount).ne horigin
    · rw [replace_starts]
      exact h.distinct
  · have hnew : (Linger.replace s key).timers (Linger.replace s key).next = none := by
      rw [htimers, replace_next]
      exact h.numbered _ le_rfl
    show Custody (arm cfg (Linger.replace s key) key ⟨n, ids⟩).held
      (⟨n, ids⟩ :: (Linger.replace s key).log.filterMap Event.starts) _
    rw [held_arm hnew, hheld, ← Function.update_idem]
    exact h.replace.issue (Function.update_self ..) fun hin => (hfresh _ hin).ne rfl

/-- **`cancel`**: what is taken out has come to its end. -/
theorem Keeps.cancel (h : Keeps s) {entry : Entry} {account : Account}
    (hentry : s.entries.lookup key = some entry) (haccount : entry.account = account) :
    Keeps { s.note (.cancelled account) with entries := s.entries.erase key } where
  numbered := h.numbered
  below := h.below
  distinct := h.distinct
  custody := by
    show Custody (heldIn (s.entries.erase key) s.timers) _ (account :: _)
    rw [heldIn_erase]
    exact h.custody.spend (haccount ▸ held_key hentry)

/-- **`_fire`**: the entry goes from its key to the timer. -/
theorem Keeps.fire (h : Keeps s) {i : ℕ} {timer : Timer} {entry : Entry}
    (htimer : s.timers i = some timer) (hphase : timer.phase = .woken)
    (hentry : s.entries.lookup timer.key = some entry) :
    Keeps { s.setPhase i timer (.firing entry.account) with
      entries := s.entries.erase timer.key } where
  numbered _ hj := h.update_timers htimer hj
  below := h.below
  distinct := h.distinct
  custody := by
    have hempty : s.held (.inr i) = none := by
      rw [held_timer htimer, hphase]
      rfl
    show Custody (heldIn (s.entries.erase timer.key) (Function.update s.timers i _)) _ _
    rw [heldIn_setTimer, heldIn_erase]
    exact h.custody.move (held_key hentry) hempty

/-- **`on_expire`**: what the timer took out has come to its end. -/
theorem Keeps.expire (h : Keeps s) {i : ℕ} {timer : Timer} {account : Account}
    (htimer : s.timers i = some timer) (hphase : timer.phase = .firing account) :
    Keeps ((s.setPhase i timer .ended).note (.expired account s.now)) where
  numbered _ hj := h.update_timers htimer hj
  below := h.below
  distinct := h.distinct
  custody := by
    have hheld : s.held (.inr i) = some account := by
      rw [held_timer htimer, hphase]
      rfl
    show Custody (heldIn s.entries (Function.update s.timers i _)) _ (account :: _)
    rw [heldIn_setTimer]
    exact h.custody.spend hheld

variable [DecidableEq T] {l : Label T}

/-- **Every step keeps the accounts.** -/
theorem Keeps.step (h : Keeps s) (hstep : Step cfg s l s') : Keeps s' := by
  cases hstep with
  | tick hd => exact ⟨h.numbered, h.below, h.distinct, h.custody⟩
  | start ids => exact h.cancelExisting.start ids cancelExisting_next.symm
  | reset hentry =>
    obtain ⟨entry, hentry', haccount, -⟩ := lookup_cancelExisting hentry
    exact h.cancelExisting.reset hentry' haccount
  | unstarted key => exact h.cancelExisting
  | cancel hentry =>
    obtain ⟨entry, hentry', haccount, -⟩ := lookup_cancelExisting hentry
    exact h.cancelExisting.cancel hentry' haccount
  | idle => exact h
  | shutdown hkeys => exact ⟨h.numbered, h.below, h.distinct, h.custody⟩
  | drop hkeys hentry =>
    obtain ⟨entry, hentry', haccount, -⟩ := lookup_cancelExisting hentry
    have hk := h.cancelExisting.cancel hentry' haccount
    exact ⟨hk.numbered, hk.below, hk.distinct, hk.custody⟩
  | skip hkeys hentry => exact ⟨h.numbered, h.below, h.distinct, h.custody⟩
  | wake htimer hphase hdue =>
    refine h.setPhase htimer ?_
    rw [hphase]
    rfl
  | fire htimer hphase hentry => exact h.fire htimer hphase hentry
  | lapse htimer hphase =>
    refine h.setPhase htimer ?_
    rw [hphase]
    rfl
  | expire htimer hphase => exact h.expire htimer hphase

omit [DecidableEq T] in
/-- What is in custody is accounted for. -/
theorem Keeps.accounted (h : Keeps s) : Accounted s.log where
  distinct := h.distinct
  own account haccount := by
    obtain ⟨e, he, hexpires⟩ := List.mem_filterMap.mp haccount
    exact h.custody.covered account
      (List.mem_filterMap.mpr ⟨e, he, Event.ends_of_expires hexpires⟩)
  once := nodup_filterMap (fun _ _ => Event.ends_of_expires) h.custody.once
  cancelled _ hin := not_mem_filterMap (fun _ _ => Event.ends_of_expires) h.custody.once hin rfl rfl
  replaced _ hin := not_mem_filterMap (fun _ _ => Event.ends_of_expires) h.custody.once hin rfl rfl

/-- **Every `start` is accounted for once**, in every run of any number of threads. -/
theorem accounted_of_run {s : State T} {ls : List (Label T)}
    (h : Lts.Run (Lts.ofStep (step cfg)) State.init ls s) : Accounted s.log := by
  have hI : Keeps s := h.inv_state (I := Keeps) keeps_init fun a l b ha hl => ha.step (.of_step hl)
  exact hI.accounted

/-- Two starts of a key and a cancel, while the callbacks of the first timers are under way:
the second start is expired once, by the callback of the first timer, and the third is
cancelled. -/
theorem accounted_of_overlap : ∃ s : State Bool,
    s.log.filterMap Event.expires = [⟨1, ⟨[1], [2], [5], [3]⟩⟩] ∧
      .replaced ⟨0, ⟨[1], [2], [4], [3]⟩⟩ ∈ s.log ∧
      .cancelled ⟨2, ⟨[1], [2], [6], [3]⟩⟩ ∈ s.log ∧ Accounted s.log := by
  obtain ⟨s, hrun, hs⟩ := Lts.exists_run_of_exec (step ⟨[], 1800⟩) (State.init : State Bool)
    [.start ⟨[1], [2], [4], [3]⟩, .tick 1800, .wake 0, .start ⟨[1], [2], [5], [3]⟩, .tick 1800,
      .wake 1, .fire 0, .start ⟨[1], [2], [6], [3]⟩, .expire 0, .cancel ([1], [2]), .fire 1]
    (fun s => s.log.filterMap Event.expires = [⟨1, ⟨[1], [2], [5], [3]⟩⟩] ∧
      .replaced ⟨0, ⟨[1], [2], [4], [3]⟩⟩ ∈ s.log ∧
      .cancelled ⟨2, ⟨[1], [2], [6], [3]⟩⟩ ∈ s.log)
    (by decide +kernel)
  obtain ⟨hexpired, hreplaced, hcancelled⟩ := of_decide_eq_true hs
  exact ⟨s, hexpired, hreplaced, hcancelled, accounted_of_run hrun⟩

end Linger

end OtamanBridge
