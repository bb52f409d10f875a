import OtamanBridge.Spawn.Decision

/-!
# A spawn that fails

A headless task that comes to the runner and fails there is to end in an outcome, one event to
the human, and nothing else. Of what `RunnerClient.spawn` raises, `handle_bus_event` catches
the two exceptions it names; a refused token, a port that is no number or an answer that is no
JSON gets past it (`OtamanBridge.Spawn.not_accountedFor`). So a failure is accounted for exactly
where the endpoint file and the answer are orderly and the event can be written
(`OtamanBridge.Spawn.accountedFor_iff`).
-/

namespace OtamanBridge

namespace Spawn

open Py

/-- A lifecycle event that was written. -/
def Effect.lifecycle : Effect → Option Bus.LifecycleEvent
  | event e => some e
  | spawn _ | claim .. | linger _ | review _ => none

/-- **The failure is accounted for**: the call returns an outcome that says so, one event of it
goes to the human, and neither the sessions nor the timers have changed. -/
structure AccountedFor (site : Site) (answers : Answers) (w : World) (message : TaskMessage)
    (a : Assignment) : Prop where
  outcome : ∃ o, (handleBusEvent site answers w message).2 = .ok (some o) ∧
    o.action = .spawnFailed
  event : ∃ e : Bus.LifecycleEvent, e.msgType = lit "spawn-failed" ∧ e.recipient = a.humanId ∧
    (handleBusEvent site answers w message).1.effects.filterMap Effect.lifecycle =
      e :: w.effects.filterMap Effect.lifecycle
  table : (handleBusEvent site answers w message).1.table = w.table
  linger : (handleBusEvent site answers w message).1.linger = w.linger

/-- A headless task-assignment that comes to the runner. -/
structure Reaches (site : Site) (answers : Answers) (w : World) (message : TaskMessage)
    (a : Assignment) (task : TaskInfo) (dedup : Text) : Prop where
  available : answers.available
  read : readAssignment site message = .ok (some a)
  assigned : taskOf site.owned a = .ok task
  headless : task.mode = .headless
  dedup : dedupKey site task.agentId a.changeId = some dedup
  binds : binds a.humanId
  cold : Sql.select Registry.Row.key w.table (task.agentId, a.humanId) = none

variable {site : Site} {answers : Answers} {w : World} {message : TaskMessage} {a : Assignment}
  {task : TaskInfo} {dedup : Text}

/-- A call that comes to the runner is in the headless branch. -/
theorem Reaches.handleBusEvent_eq (h : Reaches site answers w message a task dedup) :
    handleBusEvent site answers w message =
      headlessBranch site answers w message a task dedup := by
  rw [handleBusEvent, if_neg (by simp [h.available])]
  simp only [h.read, h.assigned, decideTask, h.dedup, h.binds, h.cold, h.headless]
  rfl

/-- **A failure is accounted for exactly where all is orderly** and its event can be written. -/
theorem accountedFor_iff {client : Runner.Client} {failure : Runner.Failure}
    (h : Reaches site answers w message a task dedup) (hspawn : answers.spawn = client.spawn)
    (hfail : client.spawn (spawnRequest site message a task) = .error failure) :
    AccountedFor site answers w message a ↔
      client.Orderly (spawnRequest site message a task) ∧
        answers.writes (Bus.lifecycleMessage answers.ts answers.prefixed
          (spawnFailedEvent site a task.agentId (failureText failure))) := by
  have hcall := h.handleBusEvent_eq
  simp only [headlessBranch, hspawn, hfail] at hcall
  rw [← Runner.spawn_caught hfail]
  by_cases hcaught : failure.caught
  · rw [if_pos hcaught] at hcall
    by_cases hwrites : answers.writes (Bus.lifecycleMessage answers.ts answers.prefixed
        (spawnFailedEvent site a task.agentId (failureText failure)))
    · rw [emit, if_pos hwrites] at hcall
      refine ⟨fun _ => ⟨hcaught, hwrites⟩, fun _ => ⟨?_, ?_, ?_, ?_⟩⟩
      · rw [hcall]
        exact ⟨_, rfl, rfl⟩
      · rw [hcall]
        exact ⟨_, rfl, rfl, rfl⟩
      · rw [hcall]
        rfl
      · rw [hcall]
        rfl
    · -- the exception of the writer is caught, and there is no event
      rw [emit, if_neg hwrites] at hcall
      refine ⟨fun haccounted => ?_, fun hall => absurd hall.2 hwrites⟩
      obtain ⟨e, -, -, hevents⟩ := haccounted.event
      rw [hcall] at hevents
      have hself : w.effects.filterMap Effect.lifecycle =
          e :: w.effects.filterMap Effect.lifecycle := hevents
      exact (List.cons_ne_self _ _ hself.symm).elim
  · rw [if_neg hcaught] at hcall
    refine ⟨fun haccounted => ?_, fun hall => absurd hall.1 hcaught⟩
    obtain ⟨o, hout, -⟩ := haccounted.outcome
    rw [hcall] at hout
    exact absurd hout (by simp)

/-! ### A runner that does not answer, and one that refuses -/

/-- A bridge with one agent. The digest is the one of the assignment below. -/
def oneAgent : Site where
  py := envelopePython
  sha256 := fun _ => lit "ed3e35dd161b20e508a0f090a5af135ed76de0931579eb025f8061a4abdb3625"
  owned := ⟨[⟨lit "otaman-a", lit "a"⟩], List.nodupKeys_singleton _⟩
  projectRoot := []
  linger := none

/-- A headless task. -/
def headlessMessage : TaskMessage where
  content := some (.text (lit "---\ntype: task-assignment\nto: a\nchange: c\n---\n" ++
    lit "- [ ] 1 @otaman-a [headless]"))
  path := lit "/ws/.agents/bus/active/task.md"
  name := lit "task.md"
  stem := lit "task"

/-- What the message says. -/
def headlessAssignment : Assignment :=
  ⟨lit "a", lit "human", lit "c", lit "\n- [ ] 1 @otaman-a [headless]"⟩

/-- Nobody has a session. -/
def emptyWorld : World where
  table := []
  linger := Linger.State.init

/-- An endpoint file with a port and a token, and a runner that answers so. -/
def answering (answer : Runner.Answer) : Runner.Client where
  path := []
  file := .content (.text (lit "port=1\ntoken=t"))
  answer := fun _ => answer
  int := fun _ => some 1
  loads := fun _ => none
  str := fun _ => []

/-- The environment of such a runner, where every file can be written. -/
def answersOf (answer : Runner.Answer) : Answers where
  available := true
  spawn := (answering answer).spawn
  writes := fun _ => true
  now := []
  ts := ⟨0, 0⟩
  prefixed := ⟨0, 0⟩

theorem reaches_answersOf (answer : Runner.Answer) :
    Reaches oneAgent (answersOf answer) emptyWorld headlessMessage headlessAssignment
      ⟨lit "a", .headless, lit "otaman-a"⟩ (lit "ed3e35dd161b20e5") where
  available := rfl
  read := by rfl
  assigned := by rfl
  headless := rfl
  dedup := by rfl
  binds := by rfl
  cold := rfl

/-- Nobody listens at the port of the endpoint file: the failure is accounted for. -/
theorem accountedFor_unreachable :
    AccountedFor oneAgent (answersOf (.unreachable [])) emptyWorld headlessMessage
      headlessAssignment :=
  (accountedFor_iff (reaches_answersOf _) rfl (by rfl)).mpr
    ⟨⟨by rfl, fun _ _ _ _ => trivial⟩, rfl⟩

/-- The runner has been restarted and refuses the token: the exception leaves the call. -/
theorem not_accountedFor : ¬∀ (site : Site) (answers : Answers) (client : Runner.Client) (w : World)
    (message : TaskMessage) (a : Assignment) (task : TaskInfo) (dedup : Text)
    (failure : Runner.Failure), Reaches site answers w message a task dedup →
      answers.spawn = client.spawn →
      client.spawn (spawnRequest site message a task) = .error failure →
        AccountedFor site answers w message a := by
  intro h
  have haccounted := h oneAgent _ _ _ _ _ _ _ _ (reaches_answersOf (.httpError 401 none)) rfl
    (by rfl)
  obtain ⟨o, hout, -⟩ := haccounted.outcome
  rw [(reaches_answersOf _).handleBusEvent_eq] at hout
  have hraised : (headlessBranch oneAgent (answersOf (.httpError 401 none)) emptyWorld
      headlessMessage headlessAssignment ⟨lit "a", .headless, lit "otaman-a"⟩
      (lit "ed3e35dd161b20e5")).2 = .error () := by
    rfl
  rw [hraised] at hout
  exact absurd hout (by simp)

end Spawn

end OtamanBridge
