import OtamanBridge.Lib.Sql
import OtamanBridge.Spawn.Session

/-!
# The session registry

`SqliteSessionRegistry` of `session_registry.py`, statement by statement, with any number of
threads in its methods. Every method does its work under the lock of the registry, which one
thread has at a time; `cleanup_stale` computes its cutoff before it asks for the lock, so
that it may be an old one by the time it is used. Times are the texts the registry keeps and
SQLite compares, and no clock is trusted to go forward.

A call that has the lock is alone with the table, so what it returns and what it leaves is
what the method does to the table in one go, `OtamanBridge.Registry.Request.apply`
(`OtamanBridge.Registry.Reached.applied`). So a session that has claimed its key keeps it
until it releases it or a cleanup finds it stale.
-/

namespace OtamanBridge

namespace Registry

open Py Sql

/-! ### The table -/

/-- A row of `sessions`. -/
structure Row where
  agentId : Text
  humanId : Text
  sessionId : Text
  mode : Text
  claimedAt : Text
  heartbeatAt : Text
  deriving DecidableEq

/-- `PRIMARY KEY (agent_id, human_id)`. -/
def Row.key (row : Row) : Spawn.Key := (row.agentId, row.humanId)

/-- The table `sessions`. -/
abbrev Table := List Row

/-- The session that has the key. -/
def holder (table : Table) (key : Spawn.Key) : Option Text :=
  (select Row.key table key).map Row.sessionId

/-! ### The methods -/

/-- A method that is called, and what it is called with. -/
inductive Request
  | isSessioned (key : Spawn.Key)
  | claimSession (key : Spawn.Key) (sessionId mode : Text)
  | releaseSession (key : Spawn.Key) (sessionId : Text)
  | heartbeat (key : Spawn.Key) (sessionId : Text)
  /-- `cleanup_stale`, with the cutoff it has computed. -/
  | cleanupStale (cutoff : Text)
  deriving DecidableEq

/-- What a method returns. -/
inductive Result
  | bool (b : Bool)
  | count (n : ℕ)
  deriving DecidableEq

/-- `bool(result)`. -/
def Result.truthy : Result → Bool
  | .bool b => b
  | .count n => n ≠ 0

/-- The row that `claim_session` puts in. -/
def claimed (key : Spawn.Key) (sessionId mode now : Text) : Row :=
  ⟨key.1, key.2, sessionId, mode, now, now⟩

/-- `WHERE agent_id=? AND human_id=? AND session_id=?`. -/
def isOf (key : Spawn.Key) (sessionId : Text) (row : Row) : Bool :=
  row.key = key && row.sessionId = sessionId

/-- The `DELETE` of `release_session`. -/
def deleteOf (key : Spawn.Key) (sessionId : Text) (table : Table) : Table × ℕ :=
  delete (isOf key sessionId) table

/-- `SET heartbeat_at=?`. -/
def Row.beat (now : Text) (row : Row) : Row := { row with heartbeatAt := now }

/-- The `UPDATE` of `heartbeat`. -/
def updateOf (key : Spawn.Key) (sessionId now : Text) (table : Table) : Table × ℕ :=
  update (isOf key sessionId) (Row.beat now) table

/-- The `DELETE` of `cleanup_stale`. -/
def deleteStale (cutoff : Text) (table : Table) : Table × ℕ :=
  delete (fun row => row.heartbeatAt < cutoff) table

/-- **What a method does to the table** at a time, when it is alone with it. -/
def Request.apply (now : Text) (table : Table) : Request → Result × Table
  | .isSessioned key => (.bool (select Row.key table key).isSome, table)
  | .claimSession key sessionId mode =>
    if (holder table key).any (· ≠ sessionId) then (.bool false, table)
    else (.bool true, insertOrReplace Row.key table (claimed key sessionId mode now))
  | .releaseSession key sessionId =>
    (.bool (0 < (deleteOf key sessionId table).2), (deleteOf key sessionId table).1)
  | .heartbeat key sessionId =>
    (.bool (0 < (updateOf key sessionId now table).2), (updateOf key sessionId now table).1)
  | .cleanupStale cutoff => (.count (deleteStale cutoff table).2, (deleteStale cutoff table).1)

/-! ### Threads -/

/-- Where a call stands. -/
inductive Phase
  /-- The lock comes next. -/
  | waiting
  /-- It has the lock: its first statement comes next. -/
  | locked
  /-- The `SELECT` of `claim_session` has found this session. -/
  | selected (existing : Option Text)
  /-- The table is written: `commit` comes next. -/
  | executed (result : Result)
  /-- The lock is given back next, and this returned. -/
  | leaving (result : Result)
  deriving DecidableEq

/-- A call. What nothing in the program reads is the table as it was when the call got the
lock. -/
structure Call where
  request : Request
  phase : Phase
  before : Table := []
  deriving DecidableEq

/-- A call that has returned, with the table when it got the lock and when it gave it back. -/
structure Event where
  request : Request
  result : Result
  before : Table
  after : Table
  deriving DecidableEq

/-- The whole state. What nothing in the program reads is the log. -/
structure State (T : Type) where
  table : Table
  /-- The thread that has `_lock`. -/
  owner : Option T
  calls : T → Option Call
  log : List Event

/-- The registry is opened on a table that is there. -/
def State.init {T : Type} (table : Table) : State T where
  table := table
  owner := none
  calls := fun _ => none
  log := []

/-- What a step is told: the thread, and what the environment answers. -/
inductive Label (T : Type)
  /-- A method is called. -/
  | call (t : T) (request : Request)
  /-- The thread gets the lock. -/
  | acquire (t : T)
  /-- The next statement, at the time that `_now_iso` reads. -/
  | execute (t : T) (now : Text)
  | commit (t : T)
  /-- The lock is given back and the call returns. -/
  | leave (t : T)
  /-- Something raises before the table is written: a text that is no UTF-8, for one. -/
  | abort (t : T)

variable {T : Type} [DecidableEq T]

/-- Write a call. -/
def State.setCall (s : State T) (t : T) (call : Option Call) : State T :=
  { s with calls := Function.update s.calls t call }

/-- The statement that comes next, if one does: the phase and the table after it. -/
def statement (now : Text) (table : Table) : Request → Phase → Option (Phase × Table)
  | .isSessioned key, .locked => some (.leaving (.bool (select Row.key table key).isSome), table)
  | .claimSession key _ _, .locked => some (.selected (holder table key), table)
  | .claimSession key sessionId mode, .selected existing =>
    if existing.any (· ≠ sessionId) then some (.leaving (.bool false), table)
    else some (.executed (.bool true),
      insertOrReplace Row.key table (claimed key sessionId mode now))
  | .releaseSession key sessionId, .locked =>
    let (table', rowcount) := deleteOf key sessionId table
    some (.executed (.bool (0 < rowcount)), table')
  | .heartbeat key sessionId, .locked =>
    let (table', rowcount) := updateOf key sessionId now table
    some (.executed (.bool (0 < rowcount)), table')
  | .cleanupStale cutoff, .locked =>
    let (table', rowcount) := deleteStale cutoff table
    some (.executed (.count rowcount), table')
  | _, _ => none

/-- The lock after a call has raised. -/
def ownerAfter (s : State T) (t : T) : Option T := if s.owner = some t then none else s.owner

/-- One step. -/
def step (s : State T) : Label T → Option (State T)
  | .call t request =>
    match s.calls t with
    | some _ => none
    | none => some (s.setCall t (some { request, phase := .waiting }))
  | .acquire t =>
    match s.calls t, s.owner with
    | some ⟨request, .waiting, _⟩, none =>
      some { s.setCall t (some ⟨request, .locked, s.table⟩) with owner := some t }
    | _, _ => none
  | .execute t now =>
    match s.calls t with
    | some call =>
      (statement now s.table call.request call.phase).map fun (phase, table) =>
        { s.setCall t (some { call with phase }) with table }
    | none => none
  | .commit t =>
    match s.calls t with
    | some ⟨request, .executed result, before⟩ =>
      some (s.setCall t (some ⟨request, .leaving result, before⟩))
    | _ => none
  | .leave t =>
    match s.calls t with
    | some ⟨request, .leaving result, before⟩ =>
      some { s.setCall t none with
        owner := none
        log := ⟨request, result, before, s.table⟩ :: s.log }
    | _ => none
  | .abort t =>
    match s.calls t with
    | some ⟨_, .waiting, _⟩ | some ⟨_, .locked, _⟩ | some ⟨_, .selected _, _⟩ =>
      some { s.setCall t none with owner := ownerAfter s t }
    | _ => none

/-! ### What a step can do -/

/-- The steps, by what they do. -/
inductive Step (s : State T) : Label T → State T → Prop
  | call {t : T} (request : Request) (hnone : s.calls t = none) :
      Step s (.call t request) (s.setCall t (some { request, phase := .waiting }))
  | acquire {t : T} {call : Call} (hcall : s.calls t = some call) (hphase : call.phase = .waiting)
      (hfree : s.owner = none) :
      Step s (.acquire t)
        { s.setCall t (some ⟨call.request, .locked, s.table⟩) with owner := some t }
  | execute {t : T} {call : Call} {now : Text} {phase : Phase} {table : Table}
      (hcall : s.calls t = some call)
      (hstatement : statement now s.table call.request call.phase = some (phase, table)) :
      Step s (.execute t now) { s.setCall t (some { call with phase }) with table }
  | commit {t : T} {call : Call} {result : Result} (hcall : s.calls t = some call)
      (hphase : call.phase = .executed result) :
      Step s (.commit t) (s.setCall t (some { call with phase := .leaving result }))
  | leave {t : T} {call : Call} {result : Result} (hcall : s.calls t = some call)
      (hphase : call.phase = .leaving result) :
      Step s (.leave t) { s.setCall t none with
        owner := none
        log := ⟨call.request, result, call.before, s.table⟩ :: s.log }
  | abort {t : T} {call : Call} (hcall : s.calls t = some call)  :
      Step s (.abort t) { s.setCall t none with owner := ownerAfter s t }

theorem Step.of_step {s s' : State T} {l : Label T} (h : step s l = some s') : Step s l s' := by
  cases l with
  | call t request =>
    rcases hcall : s.calls t with _ | call
    · simp only [step, hcall, Option.some.injEq] at h
      exact h ▸ .call request hcall
    · simp [step, hcall] at h
  | acquire t =>
    rcases hcall : s.calls t with _ | ⟨request, phase, before⟩
    · simp [step, hcall] at h
    · rcases hfree : s.owner with _ | owner
      · cases phase with
        | waiting =>
          simp only [step, hcall, hfree, Option.some.injEq] at h
          exact h ▸ .acquire hcall rfl hfree
        | _ => simp [step, hcall, hfree] at h
      · simp [step, hcall, hfree] at h
  | execute t now =>
    rcases hcall : s.calls t with _ | call
    · simp [step, hcall] at h
    · simp only [step, hcall] at h
      obtain ⟨⟨phase, table⟩, hstatement, rfl⟩ := Option.map_eq_some_iff.mp h
      exact .execute hcall hstatement
  | commit t =>
    rcases hcall : s.calls t with _ | ⟨request, phase, before⟩
    · simp [step, hcall] at h
    · cases phase with
      | executed result =>
        simp only [step, hcall, Option.some.injEq] at h
        exact h ▸ .commit hcall rfl
      | _ => simp [step, hcall] at h
  | leave t =>
    rcases hcall : s.calls t with _ | ⟨request, phase, before⟩
    · simp [step, hcall] at h
    · cases phase with
      | leaving result =>
        simp only [step, hcall, Option.some.injEq] at h
        exact h ▸ .leave hcall rfl
      | _ => simp [step, hcall] at h
  | abort t =>
    rcases hcall : s.calls t with _ | ⟨request, phase, before⟩
    · simp [step, hcall] at h
    · cases phase with
      | executed => simp [step, hcall] at h
      | leaving => simp [step, hcall] at h
      | _ =>
        simp only [step, hcall, Option.some.injEq] at h
        exact h ▸ .abort hcall

/-! ### A call is alone with the table -/

/-- What a call knows of the table, once it has the lock. -/
def Fits (table : Table) (call : Call) : Prop :=
  match call.phase with
  | .waiting => True
  | .locked => table = call.before
  | .selected existing => table = call.before ∧ ∃ key sessionId mode,
      call.request = .claimSession key sessionId mode ∧ existing = holder table key
  | .executed result | .leaving result => Unique Row.key call.before ∧
      ∃ now, call.request.apply now call.before = (result, table)

/-- **What holds of every state**: the primary key is kept, who is past the lock has it, a call
knows the table, and a call that has returned did what the method does. -/
structure Reached (s : State T) : Prop where
  unique : Unique Row.key s.table
  owned : ∀ t call, s.calls t = some call → call.phase ≠ .waiting → s.owner = some t
  fits : ∀ t call, s.calls t = some call → Fits s.table call
  applied : ∀ e ∈ s.log, Unique Row.key e.before ∧
    ∃ now, e.request.apply now e.before = (e.result, e.after)

omit [DecidableEq T] in
theorem reached_init {table : Table} (h : Unique Row.key table) :
    Reached (State.init table : State T) where
  unique := h
  owned := fun _ _ hcall => absurd hcall (by simp [State.init])
  fits := fun _ _ hcall => absurd hcall (by simp [State.init])
  applied := fun _ he => absurd he (by simp [State.init])

/-- A method keeps the primary key. -/
theorem unique_apply {now : Text} {table : Table} (h : Unique Row.key table)
    (request : Request) : Unique Row.key (request.apply now table).2 := by
  cases request with
  | isSessioned key => exact h
  | claimSession key sessionId mode =>
    simp only [Request.apply]
    split_ifs
    · exact h
    · exact h.insertOrReplace _
  | releaseSession key sessionId => exact h.delete _
  | heartbeat key sessionId => exact h.update _ fun _ => rfl
  | cleanupStale cutoff => exact h.delete _

/-- **A statement** is a part of what the method does, and brings the call on. -/
theorem fits_statement {now : Text} {table table' : Table} {call : Call} {phase : Phase}
    (hunique : Unique Row.key table) (hfits : Fits table call)
    (h : statement now table call.request call.phase = some (phase, table')) :
    call.phase ≠ .waiting ∧ Fits table' { call with phase } ∧
      (table' = table ∨ (call.request.apply now table).2 = table') := by
  obtain ⟨request, phase₀, before⟩ := call
  cases phase₀ with
  | locked =>
    obtain rfl : table = before := hfits
    cases request with
    | isSessioned key =>
      obtain ⟨rfl, rfl⟩ := Prod.mk.inj (Option.some.inj h)
      exact ⟨by simp, ⟨hunique, now, rfl⟩, .inl rfl⟩
    | claimSession key sessionId mode =>
      obtain ⟨rfl, rfl⟩ := Prod.mk.inj (Option.some.inj h)
      exact ⟨by simp, ⟨rfl, key, sessionId, mode, rfl, rfl⟩, .inl rfl⟩
    | releaseSession key sessionId =>
      obtain ⟨rfl, rfl⟩ := Prod.mk.inj (Option.some.inj h)
      exact ⟨by simp, ⟨hunique, now, rfl⟩, .inr rfl⟩
    | heartbeat key sessionId =>
      obtain ⟨rfl, rfl⟩ := Prod.mk.inj (Option.some.inj h)
      exact ⟨by simp, ⟨hunique, now, rfl⟩, .inr rfl⟩
    | cleanupStale cutoff =>
      obtain ⟨rfl, rfl⟩ := Prod.mk.inj (Option.some.inj h)
      exact ⟨by simp, ⟨hunique, now, rfl⟩, .inr rfl⟩
  | selected existing =>
    -- between the two statements of `claim_session` the table is as it was selected from
    obtain ⟨hbefore, key, sessionId, mode, hrequest, rfl⟩ := hfits
    obtain rfl : table = before := hbefore
    obtain rfl : request = .claimSession key sessionId mode := hrequest
    by_cases hother : (holder table key).any (· ≠ sessionId)
    · have hstatement := (if_pos hother).symm.trans h
      obtain ⟨rfl, rfl⟩ := Prod.mk.inj (Option.some.inj hstatement)
      exact ⟨by simp, ⟨hunique, now, if_pos hother⟩, .inl rfl⟩
    · have hstatement := (if_neg hother).symm.trans h
      obtain ⟨rfl, rfl⟩ := Prod.mk.inj (Option.some.inj hstatement)
      exact ⟨by simp, ⟨hunique, now, if_neg hother⟩, .inr (congrArg Prod.snd (if_neg hother))⟩
  | waiting => cases request <;> exact absurd h (by simp [statement])
  | executed result => cases request <;> exact absurd h (by simp [statement])
  | leaving result => cases request <;> exact absurd h (by simp [statement])

omit [DecidableEq T] in
/-- A call that has the lock is the only one: the others wait, and know nothing of the
table. -/
theorem Reached.alone {s : State T} (h : Reached s) {t t' : T} {call call' : Call}
    (hcall : s.calls t = some call) (hphase : call.phase ≠ .waiting)
    (hcall' : s.calls t' = some call') (hne : t' ≠ t) : call'.phase = .waiting := by
  by_contra hphase'
  have howner := h.owned t' call' hcall' hphase'
  rw [h.owned t call hcall hphase] at howner
  exact hne (Option.some.inj howner).symm

theorem fits_of_waiting {table : Table} {call : Call} (h : call.phase = .waiting) :
    Fits table call := by
  rw [Fits, h]
  trivial

theorem Reached.step {s s' : State T} {l : Label T} (h : Reached s) (hstep : Step s l s') :
    Reached s' := by
  cases hstep with
  | call request hnone =>
    refine ⟨h.unique, Lts.forall_update ?_ fun q call _ hq => h.owned q call hq,
      Lts.forall_update ?_ fun q call _ hq => h.fits q call hq, h.applied⟩
    · rintro call hcall hphase
      obtain rfl := Option.some.inj hcall
      exact absurd rfl hphase
    · rintro call hcall
      obtain rfl := Option.some.inj hcall
      trivial
  | @acquire t call hcall hphase hfree =>
    -- the lock was free, so every other call waits for it
    have hothers : ∀ q call', q ≠ t → s.calls q = some call' → call'.phase = .waiting := by
      rintro q call' - hq
      by_contra hphase'
      have howner := h.owned q call' hq hphase'
      rw [hfree] at howner
      exact absurd howner (by simp)
    refine ⟨h.unique, Lts.forall_update (fun _ _ _ => rfl) ?_, Lts.forall_update ?_ ?_, h.applied⟩
    · rintro q call' hne hq hphase'
      exact absurd (hothers q call' hne hq) hphase'
    · rintro call' hcall'
      obtain rfl := Option.some.inj hcall'
      rfl
    · rintro q call' - hq
      exact h.fits q call' hq
  | @execute t call now phase table hcall hstatement =>
    -- the table changes under the others, which know nothing of it
    obtain ⟨hphase, hfits, htable⟩ := fits_statement h.unique (h.fits t call hcall) hstatement
    refine ⟨?_, Lts.forall_update ?_ fun q call _ hq => h.owned q call hq,
      Lts.forall_update ?_ ?_, h.applied⟩
    · rcases htable with rfl | rfl
      · exact h.unique
      · exact unique_apply h.unique _
    · rintro call' - -
      exact h.owned t call hcall hphase
    · rintro call' hcall'
      obtain rfl := Option.some.inj hcall'
      exact hfits
    · rintro q call' hne hq
      exact fits_of_waiting (h.alone hcall hphase hq hne)
  | @commit t call result hcall hphase =>
    have hfits := h.fits t call hcall
    rw [Fits, hphase] at hfits
    refine ⟨h.unique, Lts.forall_update ?_ fun q call _ hq => h.owned q call hq,
      Lts.forall_update ?_ fun q call _ hq => h.fits q call hq, h.applied⟩
    · rintro call' - -
      exact h.owned t call hcall (by simp [hphase])
    · rintro call' hcall'
      obtain rfl := Option.some.inj hcall'
      exact hfits
  | @leave t call result hcall hphase =>
    have hleaving : call.phase ≠ .waiting := by simp [hphase]
    have hfits := h.fits t call hcall
    rw [Fits, hphase] at hfits
    refine ⟨h.unique, Lts.forall_update ?_ ?_,
      Lts.forall_update ?_ fun q call _ hq => h.fits q call hq, ?_⟩
    · exact fun _ hcall' => absurd hcall' (by simp)
    · rintro q call' hne hq hphase'
      exact absurd (h.alone hcall hleaving hq hne) hphase'
    · exact fun _ hcall' => absurd hcall' (by simp)
    · rintro e he
      rcases List.mem_cons.mp he with rfl | he
      · exact hfits
      · exact h.applied e he
  | @abort t call hcall =>
    -- the lock is released if the call had it
    refine ⟨h.unique, Lts.forall_update ?_ ?_,
      Lts.forall_update ?_ fun q call _ hq => h.fits q call hq, h.applied⟩
    · exact fun _ hcall' => absurd hcall' (by simp)
    · rintro q call' hne hq hphase
      have howner := h.owned q call' hq hphase
      have hother : s.owner ≠ some t := by
        rw [howner]
        exact fun heq => hne (Option.some.inj heq)
      exact (if_neg hother).trans howner
    · exact fun _ hcall' => absurd hcall' (by simp)

/-- **Whatever the threads do**, every state is as it has to be. -/
theorem reached_run {table : Table} (hunique : Unique Row.key table) {ls : List (Label T)}
    {s : State T} (hrun : Lts.Run (Lts.ofStep step) (State.init table) ls s) : Reached s :=
  hrun.inv_state (I := Reached) (reached_init hunique) fun _ _ _ h hl => h.step (.of_step hl)

/-! ### What a method does -/

section Apply

variable {now : Text} {table : Table} {key : Spawn.Key} {sessionId mode : Text}

/-- **A claim succeeds exactly if** the key is free or held by the session itself. -/
theorem claim_true_iff (hunique : Unique Row.key table) (now mode : Text) :
    ((Request.claimSession key sessionId mode).apply now table).1 = .bool true ↔
      ∀ row ∈ table, row.key = key → row.sessionId = sessionId := by
  have hother : (holder table key).any (· ≠ sessionId) = true ↔
      ∃ row ∈ table, row.key = key ∧ row.sessionId ≠ sessionId := by
    constructor
    · intro h
      obtain ⟨other, hholder, hne⟩ := (Option.any_eq_true ..).mp h
      obtain ⟨row, hrow, rfl⟩ := Option.map_eq_some_iff.mp hholder
      obtain ⟨hmem, hkey⟩ := select_mem hrow
      exact ⟨row, hmem, hkey, of_decide_eq_true hne⟩
    · rintro ⟨row, hmem, rfl, hne⟩
      simp [holder, select_of_mem hunique hmem, hne]
  simp only [Request.apply]
  split_ifs with h
  · obtain ⟨row, hmem, hkey, hne⟩ := hother.mp h
    exact ⟨fun hfalse => absurd hfalse (by simp), fun hall => absurd (hall row hmem hkey) hne⟩
  · refine ⟨fun _ row hmem hkey => ?_, fun _ => rfl⟩
    by_contra hne
    exact h (hother.mpr ⟨row, hmem, hkey, hne⟩)

/-- After a claim that succeeds, the session has the key. -/
theorem holder_claim (hunique : Unique Row.key table)
    (h : ((Request.claimSession key sessionId mode).apply now table).1 = .bool true) :
    holder ((Request.claimSession key sessionId mode).apply now table).2 key =
      some sessionId := by
  simp only [Request.apply] at h ⊢
  split_ifs at h ⊢ with hother
  · exact absurd h (by simp)
  · have hkey : key = (claimed key sessionId mode now).key := rfl
    rw [holder, select_insertOrReplace hunique, if_pos hkey]
    rfl

/-- **A method that returns `False`**, or counts nothing, leaves the table as it is. -/
theorem apply_of_falsy (request : Request) (h : (request.apply now table).1.truthy = false) :
    (request.apply now table).2 = table := by
  cases request with
  | isSessioned key => rfl
  | claimSession key sessionId mode =>
    simp only [Request.apply] at h ⊢
    split_ifs at h ⊢
    · rfl
    · exact absurd h (by simp [Result.truthy])
  | releaseSession key sessionId =>
    have hnone : ¬0 < (deleteOf key sessionId table).2 := of_decide_eq_false h
    exact delete_eq_self (Nat.eq_zero_of_not_pos hnone)
  | heartbeat key sessionId =>
    have hnone : ¬0 < (updateOf key sessionId now table).2 := of_decide_eq_false h
    exact update_eq_self (Nat.eq_zero_of_not_pos hnone)
  | cleanupStale cutoff =>
    refine delete_eq_self ?_
    simpa [Request.apply, Result.truthy, deleteStale] using h

/-- A session loses its key: it releases it, or a cleanup finds its row stale. -/
def Request.Ends (key : Spawn.Key) (sessionId : Text) (table : Table) : Request → Prop
  | .releaseSession key' sessionId' => key' = key ∧ sessionId' = sessionId
  | .cleanupStale cutoff => ∃ row ∈ table, row.key = key ∧ row.heartbeatAt < cutoff
  | _ => False

/-- A session renews its claim, or says that it is there. -/
def Request.Renews (key : Spawn.Key) (sessionId : Text) : Request → Prop
  | .claimSession key' sessionId' _ => key' = key ∧ sessionId' = sessionId
  | .heartbeat key' sessionId' => key' = key ∧ sessionId' = sessionId
  | _ => False

/-- **No other session takes a key**: whatever is called, the row stays, and only the session
itself renews it. -/
theorem select_apply {row : Row} {request : Request} (now : Text)
    (hunique : Unique Row.key table)
    (hrow : select Row.key table key = some row)
    (hends : ¬request.Ends key row.sessionId table) :
    ∃ row', select Row.key (request.apply now table).2 key = some row' ∧
      row'.sessionId = row.sessionId ∧ (¬request.Renews key row.sessionId → row' = row) := by
  obtain ⟨hmem, hkey⟩ := select_mem hrow
  cases request with
  | isSessioned key' => exact ⟨row, hrow, rfl, fun _ => rfl⟩
  | claimSession key' sessionId' mode' =>
    simp only [Request.apply]
    split_ifs with hother
    · exact ⟨row, hrow, rfl, fun _ => rfl⟩
    · rw [select_insertOrReplace hunique]
      have hkey' : (claimed key' sessionId' mode' now).key = key' := rfl
      rw [hkey']
      split_ifs with heq
      · subst heq
        have hsame : sessionId' = row.sessionId := by
          by_contra hne
          exact hother (by simp [holder, hrow, Ne.symm hne])
        exact ⟨_, rfl, hsame, fun hrenews => absurd ⟨rfl, hsame⟩ hrenews⟩
      · exact ⟨row, hrow, rfl, fun _ => rfl⟩
  | releaseSession key' sessionId' =>
    have hnot : isOf key' sessionId' row = false := by
      rw [isOf, hkey]
      by_contra hof
      simp only [Bool.and_eq_false_imp, decide_eq_true_eq, decide_eq_false_iff_not,
        not_forall, not_not] at hof
      exact hends ⟨hof.1.symm, hof.2.symm⟩
    refine ⟨row, ?_, rfl, fun _ => rfl⟩
    show select Row.key (delete (isOf key' sessionId') table).1 key = some row
    rw [select_delete hunique, hrow, Option.filter_some, if_pos (by simp [hnot])]
  | heartbeat key' sessionId' =>
    have hselect : select Row.key ((Request.heartbeat key' sessionId').apply now table).2 key =
        (select Row.key table key).map fun row =>
          if isOf key' sessionId' row then row.beat now else row :=
      select_update (f := Row.beat now) (fun _ => rfl) _ _
    rw [hselect, hrow]
    refine ⟨_, rfl, ?_, fun hrenews => if_neg fun hof => hrenews ?_⟩
    · show (if isOf key' sessionId' row then row.beat now else row).sessionId = row.sessionId
      split_ifs <;> rfl
    · simp only [isOf, hkey, Bool.and_eq_true, decide_eq_true_eq] at hof
      exact ⟨hof.1.symm, hof.2.symm⟩
  | cleanupStale cutoff =>
    have hfresh : ¬row.heartbeatAt < cutoff := fun hstale => hends ⟨row, hmem, hkey, hstale⟩
    refine ⟨row, ?_, rfl, fun _ => rfl⟩
    show select Row.key (delete (fun row => row.heartbeatAt < cutoff) table).1 key = some row
    rw [select_delete hunique, hrow, Option.filter_some, if_pos (by simp [hfresh])]

end Apply

/-! ### A session keeps its key -/

/-- The step is a statement of such a call. -/
def Executes (P : Table → Request → Prop) (s : State T) (l : Label T) : Prop :=
  ∃ t now call, l = .execute t now ∧ s.calls t = some call ∧ P s.table call.request

/-- **One step** leaves the row of a session that it does not end, and no other session
renews it. -/
theorem select_step {s s' : State T} {l : Label T} {key : Spawn.Key} {row : Row}
    (h : Reached s) (hstep : Step s l s') (hrow : select Row.key s.table key = some row)
    (hends : ¬Executes (fun table request => request.Ends key row.sessionId table) s l) :
    ∃ row', select Row.key s'.table key = some row' ∧ row'.sessionId = row.sessionId ∧
      (¬Executes (fun _ request => request.Renews key row.sessionId) s l → row' = row) := by
  cases hstep with
  | @execute t call now phase table hcall hstatement =>
    obtain ⟨-, -, htable⟩ := fits_statement h.unique (h.fits t call hcall) hstatement
    rcases htable with rfl | rfl
    · exact ⟨row, hrow, rfl, fun _ => rfl⟩
    · obtain ⟨row', hrow', hsession, hsame⟩ := select_apply now h.unique hrow
        fun hcallEnds => hends ⟨t, now, call, rfl, hcall, hcallEnds⟩
      exact ⟨row', hrow', hsession, fun hrenews =>
        hsame fun hcallRenews => hrenews ⟨t, now, call, rfl, hcall, hcallRenews⟩⟩
  | _ => exact ⟨row, hrow, rfl, fun _ => rfl⟩

/-- **A session keeps its key** as long as it does not release it and no cleanup finds it
stale. -/
theorem holder_run {s₁ s₂ : State T} {key : Spawn.Key} {sessionId : Text} {ls : List (Label T)}
    (h : Reached s₁) (hholder : holder s₁.table key = some sessionId)
    (hrun : Lts.Run (Lts.Under (fun s l =>
      ¬Executes (fun table request => request.Ends key sessionId table) s l) (Lts.ofStep step))
      s₁ ls s₂) :
    Reached s₂ ∧ holder s₂.table key = some sessionId := by
  refine hrun.inv_state (I := fun s => Reached s ∧ holder s.table key = some sessionId)
    ⟨h, hholder⟩ ?_
  rintro s l s' ⟨hs, hheld⟩ ⟨hends, hl⟩
  obtain ⟨row, hrow, rfl⟩ := Option.map_eq_some_iff.mp hheld
  obtain ⟨row', hrow', hsession, -⟩ := select_step hs (.of_step hl) hrow hends
  refine ⟨hs.step (.of_step hl), ?_⟩
  rw [holder, hrow', Option.map_some, hsession]

/-- Its row stays as it is as long as it does not renew it either. -/
theorem select_run {s₁ s₂ : State T} {key : Spawn.Key} {sessionId : Text} {ls : List (Label T)}
    (h : Reached s₁) (hholder : holder s₁.table key = some sessionId)
    (hrun : Lts.Run (Lts.Under (fun s l =>
      ¬Executes (fun table request => request.Ends key sessionId table) s l ∧
        ¬Executes (fun _ request => request.Renews key sessionId) s l) (Lts.ofStep step))
      s₁ ls s₂) :
    select Row.key s₂.table key = select Row.key s₁.table key := by
  obtain ⟨row, hrow, rfl⟩ := Option.map_eq_some_iff.mp hholder
  have hall : Reached s₂ ∧ select Row.key s₂.table key = some row := by
    refine hrun.inv_state (I := fun s => Reached s ∧ select Row.key s.table key = some row)
      ⟨h, hrow⟩ ?_
    rintro s l s' ⟨hs, hheld⟩ ⟨⟨hends, hrenews⟩, hl⟩
    obtain ⟨row', hrow', -, hsame⟩ := select_step hs (.of_step hl) hheld hends
    refine ⟨hs.step (.of_step hl), ?_⟩
    rw [hrow', hsame hrenews]
  rw [hall.2, hrow]

/-- **The registry excludes.** Whatever the threads do, every key has at most one row; a claim
returns `True` exactly if the key was free or held by the session itself; a call that returns
`False` has left the table as it was; and a session whose claim succeeds has its key until a
statement of its own release, or of a cleanup that finds it stale, and no other session
changes its row. -/
theorem sessions_exclusive {table : Table} (hunique : Unique Row.key table)
    {ls : List (Label T)} {s : State T}
    (hrun : Lts.Run (Lts.ofStep step) (State.init table) ls s) :
    Unique Row.key s.table ∧
    (∀ e ∈ s.log, ∀ key sessionId mode, e.request = .claimSession key sessionId mode →
      (e.result = .bool true ↔ ∀ row ∈ e.before, row.key = key → row.sessionId = sessionId)) ∧
    (∀ e ∈ s.log, e.result.truthy = false → e.after = e.before) ∧
    (∀ t call key sessionId mode, s.calls t = some call →
      call.request = .claimSession key sessionId mode → call.phase = .leaving (.bool true) →
        holder s.table key = some sessionId) ∧
    (∀ key sessionId, holder s.table key = some sessionId →
      (∀ ls' s', Lts.Run (Lts.Under (fun s l =>
          ¬Executes (fun table request => request.Ends key sessionId table) s l)
          (Lts.ofStep step)) s ls' s' → holder s'.table key = some sessionId) ∧
      (∀ ls' s', Lts.Run (Lts.Under (fun s l =>
          ¬Executes (fun table request => request.Ends key sessionId table) s l ∧
            ¬Executes (fun _ request => request.Renews key sessionId) s l)
          (Lts.ofStep step)) s ls' s' →
        select Row.key s'.table key = select Row.key s.table key)) := by
  have h := reached_run hunique hrun
  refine ⟨h.unique, ?_, ?_, ?_, fun key sessionId hholder =>
    ⟨fun ls' s' hrun' => (holder_run h hholder hrun').2,
      fun ls' s' hrun' => select_run h hholder hrun'⟩⟩
  · intro e he key sessionId mode hrequest
    obtain ⟨hbefore, now, happly⟩ := h.applied e he
    rw [hrequest] at happly
    rw [← claim_true_iff hbefore now mode, happly]
  · intro e he hfalsy
    obtain ⟨-, now, happly⟩ := h.applied e he
    have hresult : (e.request.apply now e.before).1.truthy = false := by rwa [happly]
    have hafter := apply_of_falsy e.request hresult
    rwa [happly] at hafter
  · intro t call key sessionId mode hcall hrequest hphase
    have hfits := h.fits t call hcall
    rw [Fits, hphase] at hfits
    obtain ⟨hbefore, now, happly⟩ := hfits
    rw [hrequest] at happly
    have hholder := holder_claim hbefore (congrArg Prod.fst happly)
    rwa [happly] at hholder

/-- Two threads claim the key of an agent and a human: the first has the lock when the second
asks for it. -/
def race : List (Label ℕ) :=
  [.call 0 (.claimSession (lit "cli-agent", lit "roman") (lit "s1") (lit "headless")),
    .call 1 (.claimSession (lit "cli-agent", lit "roman") (lit "s2") (lit "headless")),
    .acquire 0, .execute 0 (lit "2026-05-18"), .execute 0 (lit "2026-05-18"), .commit 0,
    .leave 0, .acquire 1, .execute 1 (lit "2026-05-19"), .execute 1 (lit "2026-05-19"), .leave 1]

/-- **The second is refused**, and the first keeps the key from there on. -/
theorem sessions_exclusive_race :
    ∃ s : State ℕ, Lts.Run (Lts.ofStep step) (State.init []) race s ∧
      s.log.map Event.result = [.bool false, .bool true] ∧
      ∀ ls' s', Lts.Run (Lts.Under (fun s l => ¬Executes (fun table request =>
        request.Ends (lit "cli-agent", lit "roman") (lit "s1") table) s l)
        (Lts.ofStep step)) s ls' s' →
          holder s'.table (lit "cli-agent", lit "roman") = some (lit "s1") := by
  obtain ⟨s, hrun, htest⟩ := Lts.exists_run_of_exec step (State.init []) race
    (fun s => s.log.map Event.result = [.bool false, .bool true] &&
      holder s.table (lit "cli-agent", lit "roman") = some (lit "s1")) (by decide +kernel)
  obtain ⟨hlog, hholder⟩ := (Bool.and_eq_true ..).mp htest
  exact ⟨s, hrun, of_decide_eq_true hlog, ((sessions_exclusive (show Unique Row.key [] from
    List.nodup_nil) hrun).2.2.2.2 _ _ (of_decide_eq_true hholder)).1⟩

/-! ### The registry as the spawner sees it -/

section Shows

variable {stamp : Seconds → Text} {table : Table} {key : Spawn.Key} {sessionId mode : Text}
  {now : Seconds}

/-- What the spawner knows of the rows, with the text of each time. -/
def Shows (stamp : Seconds → Text) (table : Table) (rows : Spawn.Key → Option Spawn.Row) : Prop :=
  ∀ key, (select Row.key table key).map (fun row => (row.sessionId, row.heartbeatAt)) =
    (rows key).map fun row => (row.sessionId, stamp row.heartbeatAt)

variable {rows : Spawn.Key → Option Spawn.Row}

/-- The row under a key, and what the spawner knows of it. -/
theorem Shows.cases (h : Shows stamp table rows) (key : Spawn.Key) :
    select Row.key table key = none ∧ rows key = none ∨
      ∃ row row', select Row.key table key = some row ∧ rows key = some row' ∧
        row.sessionId = row'.sessionId ∧ row.heartbeatAt = stamp row'.heartbeatAt := by
  have hkey := h key
  rcases hrow : select Row.key table key with _ | row
  · rcases hrow' : rows key with _ | row'
    · exact .inl ⟨rfl, rfl⟩
    · rw [hrow, hrow'] at hkey
      exact absurd hkey (by simp)
  · rcases hrow' : rows key with _ | row'
    · rw [hrow, hrow'] at hkey
      exact absurd hkey (by simp)
    · rw [hrow, hrow'] at hkey
      obtain ⟨hsession, hbeat⟩ := Prod.mk.inj (Option.some.inj hkey)
      exact .inr ⟨row, row', rfl, rfl, hsession, hbeat⟩

/-- **A claim** is the one that the spawner reckons with. -/
theorem Shows.claim (h : Shows stamp table rows) (hunique : Unique Row.key table) :
    ((Request.claimSession key sessionId mode).apply (stamp now) table).1 =
        .bool (Spawn.claimSession now (rows key) sessionId).1 ∧
      Shows stamp ((Request.claimSession key sessionId mode).apply (stamp now) table).2
        (Function.update rows key (Spawn.claimSession now (rows key) sessionId).2) := by
  have hput : Shows stamp (insertOrReplace Row.key table (claimed key sessionId mode (stamp now)))
      (Function.update rows key (some ⟨sessionId, now⟩)) := by
    intro k
    have hkey : (claimed key sessionId mode (stamp now)).key = key := rfl
    rw [select_insertOrReplace hunique, hkey]
    rcases eq_or_ne k key with rfl | hne
    · rw [if_pos rfl, Function.update_self]
      rfl
    · rw [if_neg hne, Function.update_of_ne hne]
      exact h k
  rcases h.cases key with ⟨hrow, hrow'⟩ | ⟨row, row', hrow, hrow', hsession, -⟩
  · simp only [Request.apply, holder, hrow, hrow', Spawn.claimSession]
    exact ⟨rfl, hput⟩
  · by_cases hsame : row.sessionId = sessionId
    · have hsame' : ¬row'.sessionId ≠ sessionId := by simp [← hsession, hsame]
      simp only [Request.apply, holder, hrow, hrow', Spawn.claimSession, if_neg hsame']
      simp only [Option.map_some, Option.any_some, hsame, ne_eq, not_true_eq_false, decide_false,
        Bool.false_eq_true, if_false]
      exact ⟨trivial, hput⟩
    · have hsame' : row'.sessionId ≠ sessionId := by rwa [← hsession]
      simp only [Request.apply, holder, hrow, hrow', Spawn.claimSession, if_pos hsame']
      simp only [Option.map_some, Option.any_some, ne_eq, hsame, not_false_eq_true, decide_true,
        if_true, true_and]
      rw [← hrow', Function.update_eq_self]
      exact h

/-- A row under a key is of the session if the key is the session's and the row names it. -/
theorem isOf_of_select {k : Spawn.Key} {row : Row} (hrow : select Row.key table k = some row) :
    isOf key sessionId row = (k = key && row.sessionId = sessionId) := by
  rw [isOf, (select_mem hrow).2]

variable {U : Type} [DecidableEq U] {cfg : Spawn.Config} {s s' : Spawn.State U}

/-- Nothing is taken from under another key. -/
theorem filter_of_ne {k : Spawn.Key} (hne : k ≠ key) (p : Spawn.Row → Bool)
    (row : Option Spawn.Row) : row.filter (fun r => !(k = key && p r)) = row := by
  cases row with
  | none => rfl
  | some r => simp [hne, Option.filter_some]

omit [DecidableEq U] in
/-- The rows after a step that removes the row of a key, if a test says so. -/
theorem rows_eq_filter {p : Spawn.Row → Bool}
    (hgone : ∀ row, s.rows key = some row → p row → s'.rows = Function.update s.rows key none)
    (hkept : (∀ row, s.rows key = some row → p row = false) → s'.rows = s.rows) (k : Spawn.Key) :
    s'.rows k = (s.rows k).filter fun row => !(k = key && p row) := by
  rcases eq_or_ne k key with rfl | hne
  · rcases hkey : s.rows k with _ | row
    · rw [hkept (by simp [hkey]), hkey]
      rfl
    · rcases hp : p row
      · rw [hkept (by simp [hkey, hp]), hkey]
        simp [Option.filter_some, hp]
      · rw [hgone row hkey hp, Function.update_self]
        simp [Option.filter_some, hp]
  · rw [filter_of_ne hne]
    by_cases hrow : ∃ row, s.rows key = some row ∧ p row
    · obtain ⟨row, hkey, hp⟩ := hrow
      rw [hgone row hkey hp, Function.update_of_ne hne]
    · rw [hkept fun row hkey => by simpa using fun hp => hrow ⟨row, hkey, hp⟩]

/-- The rows after a release, as the spawner sees them. -/
theorem rows_release (hstep : Spawn.step cfg s (.release key sessionId) = some s')
    (k : Spawn.Key) :
    s'.rows k = (s.rows k).filter fun row => !(k = key && row.sessionId = sessionId) := by
  refine rows_eq_filter (fun row hkey hsession => ?_) (fun hother => ?_) k
  · simp only [Spawn.step, hkey, if_pos (of_decide_eq_true hsession)] at hstep
    obtain rfl := Option.some.inj hstep
    rfl
  · rcases hkey : s.rows key with _ | row
    · simp only [Spawn.step, hkey] at hstep
      obtain rfl := Option.some.inj hstep
      rfl
    · simp only [Spawn.step, hkey, if_neg (of_decide_eq_false (hother row hkey))] at hstep
      obtain rfl := Option.some.inj hstep
      rfl

/-- The rows after a heartbeat. -/
theorem rows_heartbeat (hstep : Spawn.step cfg s (.heartbeat key sessionId) = some s')
    (k : Spawn.Key) :
    s'.rows k = (s.rows k).map fun row =>
      if k = key ∧ row.sessionId = sessionId then { row with heartbeatAt := s.now } else row := by
  rcases hkey : s.rows key with _ | row
  · simp only [Spawn.step, hkey, Option.some.injEq] at hstep
    subst hstep
    rcases eq_or_ne k key with rfl | hne
    · simp [hkey]
    · simp [hne]
  · simp only [Spawn.step, hkey] at hstep
    split_ifs at hstep with hsession
    · obtain rfl := Option.some.inj hstep
      rcases eq_or_ne k key with rfl | hne
      · simp [Spawn.State.setRow, hkey, hsession]
      · simp [Spawn.State.setRow, hne]
    · obtain rfl := Option.some.inj hstep
      rcases eq_or_ne k key with rfl | hne
      · simp [hkey, hsession]
      · simp [hne]

/-- The rows after a cleanup has come to a row. -/
theorem rows_cleanup {threshold : Seconds}
    (hstep : Spawn.step cfg s (.cleanup key threshold) = some s') (k : Spawn.Key) :
    s'.rows k = (s.rows k).filter fun row =>
      !(k = key && row.heartbeatAt < s.now - threshold) := by
  refine rows_eq_filter (fun row hkey hstale => ?_) (fun hfresh => ?_) k
  · simp only [Spawn.step, hkey, if_pos (of_decide_eq_true hstale)] at hstep
    obtain rfl := Option.some.inj hstep
    rfl
  · rcases hkey : s.rows key with _ | row
    · simp only [Spawn.step, hkey] at hstep
      obtain rfl := Option.some.inj hstep
      rfl
    · simp only [Spawn.step, hkey, if_neg (of_decide_eq_false (hfresh row hkey))] at hstep
      obtain rfl := Option.some.inj hstep
      rfl

/-- **A release** is a step of the spawner's registry. -/
theorem Shows.release (h : Shows stamp table s.rows) (hunique : Unique Row.key table)
    (hstep : Spawn.step cfg s (.release key sessionId) = some s') (now : Text) :
    Shows stamp ((Request.releaseSession key sessionId).apply now table).2 s'.rows := by
  intro k
  have hselect : select Row.key ((Request.releaseSession key sessionId).apply now table).2 k =
      (select Row.key table k).filter fun row => !isOf key sessionId row :=
    select_delete hunique _ k
  rw [hselect, rows_release hstep k]
  rcases h.cases k with ⟨hrow, hrow'⟩ | ⟨row, row', hrow, hrow', hsession, hbeat⟩
  · rw [hrow, hrow']
    rfl
  · rw [hrow, hrow', Option.filter_some, Option.filter_some, isOf_of_select hrow, hsession]
    split_ifs
    · rw [Option.map_some, Option.map_some, hsession, hbeat]
    · rfl

/-- **A heartbeat** is one, too. -/
theorem Shows.heartbeat (h : Shows stamp table s.rows)
    (hstep : Spawn.step cfg s (.heartbeat key sessionId) = some s') :
    Shows stamp ((Request.heartbeat key sessionId).apply (stamp s.now) table).2 s'.rows := by
  intro k
  have hselect : select Row.key ((Request.heartbeat key sessionId).apply (stamp s.now) table).2 k =
      (select Row.key table k).map fun row =>
        if isOf key sessionId row then row.beat (stamp s.now) else row :=
    select_update (f := Row.beat (stamp s.now)) (fun _ => rfl) _ k
  rw [hselect, rows_heartbeat hstep k]
  rcases h.cases k with ⟨hrow, hrow'⟩ | ⟨row, row', hrow, hrow', hsession, hbeat⟩
  · rw [hrow, hrow']
    rfl
  · rw [hrow, hrow', Option.map_some, Option.map_some, Option.map_some, Option.map_some,
      isOf_of_select hrow, hsession]
    by_cases hsame : k = key ∧ row'.sessionId = sessionId
    · simp [hsame, Row.beat, hsession]
    · have hother : (decide (k = key) && decide (row'.sessionId = sessionId)) = false := by
        simpa using hsame
      rw [hother, if_neg hsame]
      exact congrArg some (Prod.ext hsession hbeat)

/-- **A cleanup** does to every key what the spawner's does to one, if the texts of times are
in the order of the times. -/
theorem Shows.cleanup (h : Shows stamp table s.rows) (hunique : Unique Row.key table)
    (hstamp : StrictMono stamp) {threshold : Seconds}
    (hstep : Spawn.step cfg s (.cleanup key threshold) = some s') (now : Text) :
    (select Row.key ((Request.cleanupStale (stamp (s.now - threshold))).apply now table).2
        key).map (fun row => (row.sessionId, row.heartbeatAt)) =
      (s'.rows key).map fun row => (row.sessionId, stamp row.heartbeatAt) := by
  have hselect : select Row.key
      ((Request.cleanupStale (stamp (s.now - threshold))).apply now table).2 key =
        (select Row.key table key).filter fun row =>
          !decide (row.heartbeatAt < stamp (s.now - threshold)) :=
    select_delete hunique _ key
  rw [hselect, rows_cleanup hstep key]
  rcases h.cases key with ⟨hrow, hrow'⟩ | ⟨row, row', hrow, hrow', hsession, hbeat⟩
  · rw [hrow, hrow']
    rfl
  · rw [hrow, hrow', Option.filter_some, Option.filter_some, hbeat]
    simp only [hstamp.lt_iff_lt, decide_true, Bool.true_and]
    split_ifs
    · rw [Option.map_some, Option.map_some, hsession, hbeat]
    · rfl

end Shows

end Registry

end OtamanBridge
