import OtamanBridge.Afk.File
import OtamanBridge.Bus.Project
import OtamanBridge.Telegram.Cards

/-!
# The approval hook

`main` of `bridge_approval.py`, stage by stage: what Claude Code says on standard input, the
AFK file, the account of the session, the endpoint file of its daemon, the request, and what
the daemon answers. A stage goes on with what it has found, exits with no opinion, or raises
something that nothing catches.

What the hook finds around it is its environment (`OtamanBridge.Hook.Environment`): the files,
the variables, the answer of the daemon, and what the resolvers of `otaman_core` return. What
Python makes of values and texts is a parameter (`OtamanBridge.Hook.Python`).
-/

namespace OtamanBridge

namespace Hook

open Py
open Bus (File)
open Telegram (Payload)

/-! ### What Python does -/

/-- What a conversion raises: a `ValueError`, or something else. -/
inductive Failure
  | value
  | other
  deriving DecidableEq

/-- `ApprovalResponse.decision`, as the hook knows it. -/
def decisions : List Text := ["allow", "deny", "ask", "timeout"].map lit

/-- What Python makes of values and texts. -/
structure Python extends toAfk : Afk.Python where
  /-- `json.loads`: a `ValueError`, or the `RecursionError` of a text that nests too deep. -/
  loads : Text → Except Failure Value
  /-- `int(t)` of a text, or its `ValueError`. -/
  intOfText : Text → Option ℤ
  /-- `int(x)` of a float: that of NaN is a `ValueError`, that of infinity is none. -/
  intOfFloat : String → Except Failure ℤ
  /-- What is no text is not written as one of the words. -/
  str_not_mem : ∀ v, (∀ t, v ≠ .str t) → str v ∉ decisions

/-! ### The environment -/

/-- A path, by its parts. -/
abbrev Path := List Text

/-- The last part of a path. -/
def Path.name (p : Path) : Text := (p.getLast?).getD []

/-- What `urlopen` and `resp.read()` come to. -/
inductive Exchange
  /-- A response, with its body if that is UTF-8. -/
  | response (body : Option Text)
  /-- A `URLError`, another `OSError`, or a `ValueError`: nobody listens, or the status is an
  error. -/
  | failed
  /-- Anything else: the `HTTPException` of a response that is no HTTP or shorter than it says, or
  the `OverflowError` of a time-out that does not fit. -/
  | raised
  deriving DecidableEq

/-- What `_read_endpoint` returns. -/
structure Endpoint where
  port : ℤ
  token : Text
  deriving DecidableEq

/-- What the hook finds around it. -/
structure Environment where
  /-- Standard input, if it can be read. -/
  stdin : Option Text
  /-- `find_maestro_root()`. -/
  root : Option Path
  /-- The AFK files under a root, if `is_file()` says which there are. -/
  afk : Path → Option Afk.Files
  now : Seconds
  /-- `active_routing_env()`. -/
  routing : Option Text
  /-- `CLAUDE_CONFIG_DIR`. -/
  configDir : Text
  /-- `Path.cwd()`, which raises if the directory is gone, and what it resolves to. -/
  cwd : Option (Path × Path)
  /-- `read_expected_account`. -/
  expectedAccount : Path → Option Text
  /-- The endpoint file of an account. -/
  endpoint : Text → File
  /-- `resolve_agent_identity(...) or ""`. -/
  identity : Path → Text
  /-- `MAESTRO_BRIDGE_TIMEOUT`. -/
  timeout : Option Text
  /-- `platform.yaml` under a root. -/
  platform : Path → File
  /-- The exchange with the daemon. -/
  daemon : Endpoint → Payload → Exchange

/-! ### The stages -/

/-- How a stage ends that does not go on. -/
inductive Exit
  /-- `_emit_allow_and_exit`. -/
  | noOpinion
  /-- An exception that nothing catches. -/
  | raised
  deriving DecidableEq

/-- `if x is None: _emit_allow_and_exit()`. -/
def orNoOpinion {α : Type} : Option α → Except Exit α
  | some a => .ok a
  | none => .error .noOpinion

/-- `tool_name` and `tool_input`. -/
structure Tool where
  name : Text
  input : Value

variable (py : Python) (env : Environment)

/-- `d.get(key) or default`. -/
def getOr (d : Value) (key : String) (default : Value) : Value :=
  match d.get key with
  | some v => if v.truthy then v else default
  | none => default

/-- `json.loads(raw) if raw else {}`. -/
def loadsHookInput (raw : Text) : Except Failure Value :=
  if raw = [] then .ok (.dict []) else py.loads raw

/-- The hook input. -/
def readHookInput : Except Exit Tool :=
  match env.stdin with
  | none => .error .noOpinion
  | some raw =>
    match loadsHookInput py raw with
    | .error .value => .error .noOpinion
    | .error .other => .error .raised
    | .ok (.dict items) =>
      let name := py.text (((Value.dict items).get "tool_name").getD (.str []))
      orNoOpinion
        (if name = [] then none else some ⟨name, getOr (.dict items) "tool_input" (.dict [])⟩)
    | .ok _ => .error .raised

/-- The workspace. -/
def findRoot : Except Exit Path := orNoOpinion env.root

/-- The AFK state. -/
def readState (root : Path) : Except Exit Afk.AfkState :=
  match (env.afk root).map fun files => Afk.readAfk py.toAfk files env.now with
  | some (.ok st) => orNoOpinion st
  | _ => .error .raised

/-- `os.path.basename`. -/
def basename (t : Text) : Text := t.rtakeWhile (· ≠ '/'.toNat)

/-- The account in `CLAUDE_CONFIG_DIR`. -/
def accountOfConfigDir (dir : Text) : Option Text :=
  if dir = [] then none
  else
    let base := basename (dir.rdropWhile fun c => c = '/'.toNat ∨ c = 92)
    if (lit ".claude-").isPrefixOf base then some (base.drop 8)
    else if base = [] ∨ base = lit ".claude" then some (lit "default")
    else none

/-- `active_routing_env()`, if it says something. -/
def accountOfRouting : Option Text := env.routing.filter fun account => account ≠ []

/-- `_derive_account`, and what is done if it returns none. -/
def deriveAccount : Except Exit Text :=
  match (accountOfRouting env).or (accountOfConfigDir env.configDir) with
  | some account => .ok account
  | none =>
    match env.cwd with
    | none => .error .raised
    | some cwd => orNoOpinion ((env.expectedAccount cwd.1).filter fun account => account ≠ [])

/-- `int(v)`. -/
def toInt : Value → Except Failure ℤ
  | .bool b => .ok (if b then 1 else 0)
  | .int n => .ok n
  | .float repr => py.intOfFloat repr
  | .str t =>
    match py.intOfText t with
    | some n => .ok n
    | none => .error .value
  | _ => .error .other

/-- `_read_endpoint`, and what is done if it returns none. -/
def readEndpoint (account : Text) : Except Exit Endpoint :=
  match env.endpoint account with
  | .missing | .unreadable | .undecodable => .error .noOpinion
  | .unsearchable => .error .raised
  | .text t =>
    match py.loads (universalNewlines t) with
    | .error .value => .error .noOpinion
    | .error .other => .error .raised
    | .ok (.dict items) =>
      match toInt py (getOr (.dict items) "port" (.int 0)) with
      | .error .value => .error .noOpinion
      | .error .other => .error .raised
      | .ok port =>
        let token := py.text (getOr (.dict items) "token" (.str []))
        orNoOpinion (if 0 < port ∧ token ≠ [] then some ⟨port, token⟩ else none)
    | .ok _ => .error .raised

/-- `_session_repo`: the first part of the path below the parent of the root, or the name of
the directory. -/
def sessionRepo (root : Path) (cwd : Path × Path) : Text :=
  if root.dropLast.isPrefixOf cwd.2 then (cwd.2.drop root.dropLast.length).headD []
  else Path.name cwd.1

/-- The priority in the input. -/
def priorityOf (input : Value) : Text :=
  match input with
  | .dict items => py.text (((Value.dict items).get "priority").getD (.str (lit "normal")))
  | _ => lit "normal"

/-- The input as a dict. -/
def inputItems : Value → List (Value × Value)
  | .dict items => items
  | v => [(.str (lit "value"), v)]

/-- The payload. -/
def buildPayload (root : Path) (account : Text) (tool : Tool) : Except Exit Payload :=
  match py.intOfText (env.timeout.getD (lit "540")),
    Bus.resolveProjectName py.toPython root.name (env.platform root), env.cwd with
  | some timeoutSeconds, .ok project, some cwd => .ok
    { account
      project
      repo := sessionRepo root cwd
      agent := env.identity root
      toolName := tool.name
      toolInput := inputItems tool.input
      priority := priorityOf py tool.input
      timeoutSeconds }
  | _, _, _ => .error .raised

/-- `POST /approval`: the JSON of the response. -/
def readResponse : Exchange → Except Exit Value
  | .failed => .error .noOpinion
  | .raised => .error .raised
  | .response none => .error .noOpinion
  | .response (some body) =>
    match py.loads body with
    | .ok v => .ok v
    | .error .value => .error .noOpinion
    | .error .other => .error .raised

/-! ### What is printed -/

/-- What the hook prints: a decision, and the reason if there is one. -/
structure Output where
  decision : Text
  reason : Text
  deriving DecidableEq

/-- `str(body.get("message") or body.get("responder") or "")`. -/
def messageOf (body : Value) : Text :=
  py.text (getOr body "message" (getOr body "responder" (.str [])))

/-- `str(body.get("message") or f"denied by {body.get('responder', 'reviewer')}")`. -/
def denialOf (body : Value) : Text :=
  py.text (getOr body "message"
    (.str (lit "denied by " ++ py.text ((body.get "responder").getD (.str (lit "reviewer"))))))

/-- The translation of the response. -/
def translate : Value → Except Exit Output
  | .dict items =>
    let decision := py.text (((Value.dict items).get "decision").getD (.str (lit "ask")))
    if decision ∉ decisions then .error .noOpinion
    else if decision = lit "timeout" then .error .noOpinion
    else if decision = lit "allow" then .ok ⟨decision, messageOf py (.dict items)⟩
    else if decision = lit "deny" then .ok ⟨decision, denialOf py (.dict items)⟩
    else .ok ⟨decision, messageOf py (.dict items)⟩
  | _ => .error .raised

/-- What comes of the exchange. -/
def respond (exchange : Exchange) : Except Exit Output := do
  let body ← readResponse py exchange
  translate py body

/-- `main`. -/
def main : Except Exit Output := do
  let tool ← readHookInput py env
  let root ← findRoot env
  let _ ← readState py env root
  let account ← deriveAccount env
  let endpoint ← readEndpoint py env account
  let payload ← buildPayload py env root account tool
  respond py (env.daemon endpoint payload)

/-- The exit code; a traceback is 1. -/
def exitCode : Except Exit Output → ℕ
  | .ok output => if output.decision = lit "deny" then 2 else 0
  | .error .noOpinion => 0
  | .error .raised => 1

end Hook

end OtamanBridge
