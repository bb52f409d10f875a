import OtamanBridge.Bus.Envelope
import OtamanBridge.Bus.Frontmatter
import OtamanBridge.Bus.Writers
import OtamanBridge.Lib.Utf8
import OtamanBridge.Linger.Manager
import OtamanBridge.Spawn.Mode
import OtamanBridge.Spawn.Registry
import OtamanBridge.Spawn.Runner

/-!
# One call of the spawn decision

`handle_bus_event` of `spawn_decision.py` from the message file to the outcome, in one thread:
what it reads, whom it takes the task to be for, what it asks of the registry, the runner and
the linger manager, and what it writes. What other threads do in between is the subject of
`OtamanBridge.Spawn.step`.

What the world is like when the call comes is the session table and the linger timers; what it
leaves is these and a list of what was asked for and written
(`OtamanBridge.Spawn.handleBusEvent`).
-/

namespace OtamanBridge

namespace Spawn

open Py

/-! ### What it is called with -/

/-- The message file. -/
structure TaskMessage where
  /-- What is in it, if there is a file. -/
  content : Option Inbox.Content
  /-- `str(message_path)`. -/
  path : Text
  /-- `message_path.name`. -/
  name : Text
  /-- `message_path.stem`. -/
  stem : Text

/-- The arguments that do not change from call to call, and the functions it calls. -/
structure Site where
  py : Bus.Python
  /-- `hashlib.sha256(...).hexdigest()`. -/
  sha256 : List ℕ → Text
  owned : Owned
  thisAgent : Text := lit "bridge-agent"
  projectRoot : Text
  triggerSource : Text := lit "bus-event"
  /-- `linger_manager`, if there is one. -/
  linger : Option Linger.Config

/-- What the environment answers to the call. -/
structure Answers where
  /-- `auto_session_spawn_available()`. -/
  available : Bool
  /-- `runner_client.spawn`. -/
  spawn : Runner.SpawnRequest → Except Runner.Failure Text
  /-- The file can be written. -/
  writes : Bus.MessageFile → Bool
  /-- `_now_iso` of the registry. -/
  now : Text
  /-- `_now_iso` and `_ts_prefix` of a writer. -/
  ts : Bus.Instant
  prefixed : Bus.Instant

/-- What is asked for, or was written. -/
inductive Effect
  | spawn (request : Runner.SpawnRequest)
  | claim (key : Key) (sessionId : Text)
  | linger (ids : Linger.Ids)
  /-- A lifecycle event was written. -/
  | event (e : Bus.LifecycleEvent)
  /-- A request for a review was written. -/
  | review (r : Bus.ReviewRequest)

/-- The session table, the linger timers, and what has come of the call, the last first. -/
structure World where
  table : Registry.Table
  linger : Linger.State Unit
  effects : List Effect := []

/-- Note an effect. -/
def World.note (w : World) (e : Effect) : World := { w with effects := e :: w.effects }

/-- `SpawnOutcome`. -/
structure SpawnOutcome where
  agentId : Text
  humanId : Text
  mode : Mode
  action : Action
  sessionId : Option Text
  changeId : Text
  dedupKey : Text
  deriving DecidableEq

/-- What a call comes to: an outcome, or none, or an exception. -/
abbrev Result := Except Unit (Option SpawnOutcome)

/-! ### Reading the message -/

/-- A task-assignment to an agent of the bridge. -/
structure Assignment where
  /-- `to`. -/
  addressee : Text
  humanId : Text
  changeId : Text
  body : Text
  deriving DecidableEq

/-- `fm.get("type") == "task-assignment"`. -/
def isAssignment (m : Bus.BusMessage) : Bool :=
  match m.get "type" with
  | some (.str t) => t = lit "task-assignment"
  | _ => false

/-- The first part of the call: the assignment, if the message is one to an agent of ours, or
an exception. -/
def readAssignment (site : Site) (message : TaskMessage) : Except Unit (Option Assignment) :=
  (Bus.parseMessage site.py message.content).map fun parsed =>
    parsed.bind fun (items, body) =>
      let m : Bus.BusMessage := ⟨message.stem, items, body⟩
      let addressee := m.field site.py "to" ""
      if !isAssignment m ∨ addressee ∉ site.owned.entries.map Sigma.snd then none
      else
        let change := (m.get "change").filter Value.truthy
        let raw := change.getD ((m.get "id").getD (.str message.stem))
        some ⟨addressee, m.field site.py "from" "human", site.py.text raw, body⟩

/-- A Python that reads envelopes of strings and times, and nothing into the line breaks around
them. -/
def envelopePython : Bus.Python :=
  { Bus.plainPython with safeLoad := fun t => Bus.plainPython.safeLoad (strip t) }

/-- `next((r for r, a in owned_agents.items() if a == to_field), to_field)`. -/
def repoOf (owned : Owned) (agentId : Text) : Text :=
  ((owned.entries.find? fun e => e.2 = agentId).map Sigma.fst).getD agentId

/-- Whose task it is: the first owned task line says so, or the message. -/
def taskOf (owned : Owned) (a : Assignment) : Except ModeError TaskInfo :=
  (extractMode a.body owned).map fun info =>
    info.getD ⟨a.addressee, .interactive, repoOf owned a.addressee⟩

/-- `_dedup_key`, unless the text cannot be encoded. -/
def dedupKey (site : Site) (agentId changeId : Text) : Option Text :=
  (Utf8.encode (agentId ++ lit ":" ++ changeId)).map fun bytes => (site.sha256 bytes).take 16

/-! ### What is written -/

/-- `emit_spawn_failed`. -/
def spawnFailedEvent (site : Site) (a : Assignment) (agentId error : Text) :
    Bus.LifecycleEvent where
  msgType := lit "spawn-failed"
  fromAgent := site.thisAgent
  recipient := a.humanId
  priority := lit "high"
  changeId := a.changeId
  subject := lit "Auto-spawn FAILED: " ++ agentId ++ lit " — " ++ error.take 60
  body := lit "**Agent**: " ++ agentId ++ lit "  \n**Human**: " ++ a.humanId ++
    lit "  \n**Change**: " ++ a.changeId ++ lit "  \n**Error**: " ++ error ++
    lit ("  \n\nThe headless session could not be started. " ++
      "The task-assignment remains pending\non the bus. " ++
      "Check runner logs and retry when the runner is reachable.\n")

/-- `emit_spawn_start`. -/
def spawnStartEvent (site : Site) (a : Assignment) (agentId sessionId : Text) (mode : Mode) :
    Bus.LifecycleEvent where
  msgType := lit "spawn-start"
  fromAgent := site.thisAgent
  recipient := a.humanId
  priority := lit "normal"
  changeId := a.changeId
  subject := lit "Auto-spawn started: " ++ agentId ++ lit " (" ++ mode.word ++ lit ")"
  body := lit "**Agent**: " ++ agentId ++ lit "  \n**Human**: " ++ a.humanId ++
    lit "  \n**Session**: " ++ sessionId ++ lit "  \n**Mode**: " ++ mode.word ++
    lit "  \n**Change**: " ++ a.changeId ++ lit "  \n**Trigger**: " ++ site.triggerSource ++
    lit "  \n"

/-- A lifecycle event is written, or its exception is caught. -/
def emit (answers : Answers) (w : World) (e : Bus.LifecycleEvent) : World :=
  if answers.writes (Bus.lifecycleMessage answers.ts answers.prefixed e) then w.note (.event e)
  else w

/-- The message of an exception. -/
def failureText : Runner.Failure → Text
  | .unreachable message | .auth message | .spawn message => message
  | .other => []

/-! ### The decision -/

/-- What the runner is asked for. -/
def spawnRequest (site : Site) (message : TaskMessage) (a : Assignment) (task : TaskInfo) :
    Runner.SpawnRequest where
  agent := task.agentId
  human := a.humanId
  changeId := a.changeId
  messagePath := message.path
  triggerSource := site.triggerSource
  repo := task.repo
  projectRoot := site.projectRoot

/-- The outcome of a call. -/
def outcome (a : Assignment) (task : TaskInfo) (dedup : Text) (action : Action)
    (sessionId : Option Text) : SpawnOutcome :=
  ⟨task.agentId, a.humanId, task.mode, action, sessionId, a.changeId, dedup⟩

/-- SQLite takes no text that has no UTF-8. -/
def binds (t : Text) : Bool := (Utf8.encode t).isSome

/-- The runner has started a session; the registry may raise, and that is not caught. -/
def spawned (site : Site) (answers : Answers) (w : World) (a : Assignment) (task : TaskInfo)
    (dedup sessionId : Text) : World × Result :=
  let key := (task.agentId, a.humanId)
  let claim := Registry.Request.claimSession key sessionId task.mode.word
  let w := w.note (.claim key sessionId)
  if !binds sessionId then (w, .error ())
  else
    let w := { w with table := (claim.apply answers.now w.table).2 }
    let w := emit answers w (spawnStartEvent site a task.agentId sessionId task.mode)
    let ids : Linger.Ids := ⟨task.agentId, a.humanId, sessionId, a.changeId⟩
    let w := match site.linger with
      | some cfg => { w.note (.linger ids) with linger := Linger.start cfg w.linger ids }
      | none => w
    (w, .ok (some (outcome a task dedup (.spawned sessionId) (some sessionId))))

/-- The headless branch. -/
def headlessBranch (site : Site) (answers : Answers) (w : World) (message : TaskMessage)
    (a : Assignment) (task : TaskInfo) (dedup : Text) : World × Result :=
  let request := spawnRequest site message a task
  let w := w.note (.spawn request)
  match answers.spawn request with
  | .ok sessionId => spawned site answers w a task dedup sessionId
  | .error failure =>
    if failure.caught then
      (emit answers w (spawnFailedEvent site a task.agentId (failureText failure)),
        .ok (some (outcome a task dedup .spawnFailed none)))
    else (w, .error ())

/-- The interactive branch: an exception of the writer is not caught. -/
def interactiveBranch (site : Site) (answers : Answers) (w : World) (message : TaskMessage)
    (a : Assignment) (task : TaskInfo) (dedup : Text) : World × Result :=
  let r : Bus.ReviewRequest :=
    ⟨site.thisAgent, a.humanId, dedup, task.agentId, a.changeId, message.name⟩
  if answers.writes (Bus.reviewMessage answers.ts answers.prefixed r) then
    (w.note (.review r), .ok (some (outcome a task dedup .interactiveReview (some dedup))))
  else (w, .error ())

/-- The part of the call that knows whose task it is. -/
def decideTask (site : Site) (answers : Answers) (w : World) (message : TaskMessage)
    (a : Assignment) (task : TaskInfo) : World × Result :=
  match dedupKey site task.agentId a.changeId with
  | none => (w, .error ())
  | some dedup =>
    -- `is_sessioned`
    if !binds a.humanId then (w, .error ())
    else if (Sql.select Registry.Row.key w.table (task.agentId, a.humanId)).isSome then
      (w, .ok (some (outcome a task dedup .warmSession none)))
    else
      match task.mode with
      | .headless => headlessBranch site answers w message a task dedup
      | .interactive => interactiveBranch site answers w message a task dedup

/-- `handle_bus_event`. -/
def handleBusEvent (site : Site) (answers : Answers) (w : World) (message : TaskMessage) :
    World × Result :=
  if !answers.available then (w, .ok none)
  else
    match readAssignment site message with
    | .error _ => (w, .error ())
    | .ok none => (w, .ok none)
    | .ok (some a) =>
      match taskOf site.owned a with
      | .error _ => (w, .ok none)
      | .ok task => decideTask site answers w message a task

end Spawn

end OtamanBridge
