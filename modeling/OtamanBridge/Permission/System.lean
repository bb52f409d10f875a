import OtamanBridge.Hook.FailSafe
import OtamanBridge.Lib.PyValue
import OtamanBridge.Telegram.Authority

/-!
# From the tool call to the phone and back

Each call of a tool runs the hook as a process of its own. It posts a request to the daemon and
waits for the response; a thread of the daemon puts the request into the table, has its card
sent, and waits for the decision; the bot takes the taps and comments that come in; and what the
thread returns is the body that the hook translates for Claude Code. `OtamanBridge.Permission`
puts the three together: the hook (`OtamanBridge.Hook.main`), `handle_approval` with its table,
and the bot with its listener (`OtamanBridge.Telegram.Inbound.step`).

Any number of sessions are under way at once, and their steps may come in any order. The
connection of a hook may be lost, and the hook may have given up when its thread goes on; a card
may not be sent; whoever has a credential that the auth chain accepts may post a decision
himself; and the daemon may be stopped.
-/

namespace OtamanBridge

namespace Permission

open Py
open Hook (Environment Endpoint Exit Output)
open Telegram (Payload)

/-! ### The state -/

/-- What the hooks, the daemon and the bot run on. -/
structure Config where
  py : Hook.Python
  bot : Telegram.Inbound.Config
  /-- `json.dumps` of a response. -/
  dumps : Value → Text

/-- How far `handle_approval` is with the request of a session. -/
inductive Call
  /-- The body has not been read. -/
  | unread
  /-- The request is in the table, and its card is being sent. -/
  | sending
  /-- `wait`. -/
  | waiting
  | returned (response : ApprovalResponse)
  deriving DecidableEq

/-- A call of a tool, from the hook on. -/
structure Session where
  /-- What the hook finds around it; what the daemon answers comes later. -/
  env : Environment
  /-- What `from_dict` has made of the payload. -/
  request : Option Telegram.ApprovalRequest := none
  call : Call := .unread
  /-- What the hook has come to. -/
  result : Option (Except Exit Output) := none

/-- The sessions, and the bot with the daemon. -/
structure State (H : Type*) where
  sessions : H → Option Session
  bot : Telegram.Inbound.State
  /-- The cards that were sent so far, each with the message it has become. -/
  shown : List (ℤ × Telegram.ApprovalRequest)
  /-- The steps that the bot and the daemon have made so far. -/
  told : List Telegram.Inbound.Label

variable {H : Type*}

/-- The daemon has just started, with these files on the bus. -/
def State.init (files : Text → Option Text) : State H where
  sessions _ := none
  bot := Telegram.Inbound.init files
  shown := []
  told := []

/-- The name of a step. -/
inductive Label (H : Type*)
  /-- A hook begins, and comes to `POST /approval` or to an end. -/
  | start (h : H) (env : Environment)
  /-- `handle_approval` reads the body, and puts the request into the table. -/
  | register (h : H) (now : Telegram.Now) (token : BitVec 32) (clock : Seconds)
  /-- The card of a session is sent, for the first time or after a snooze. -/
  | card (h : H) (messageId : ℤ)
  /-- The card of a message of the bus is sent. -/
  | busCard (messageId : ℤ) (request : Telegram.ApprovalRequest)
  /-- `send_approval` returns to `handle_approval`. -/
  | sent (h : H) (handle : Approval.CardId)
  /-- It has raised this, or takes too long. -/
  | unsent (h : H) (message : String)
  /-- `wait` looks. -/
  | look (h : H) (now : Seconds) (updates : Bool)
  /-- The hook gets the response. -/
  | receive (h : H)
  /-- The connection ends without one. -/
  | lose (h : H) (caught : Bool)
  /-- A step of the bot, or of the daemon besides. -/
  | bot (l : Telegram.Inbound.Label)

/-! ### The hook -/

/-- `main`, up to the request. -/
def prepare (py : Hook.Python) (env : Environment) : Except Exit (Endpoint × Payload) := do
  let tool ← Hook.readHookInput py env
  let root ← Hook.findRoot env
  let _ ← Hook.readState py env root
  let account ← Hook.deriveAccount env
  let endpoint ← Hook.readEndpoint py env account
  let payload ← Hook.buildPayload py env root account tool
  pure (endpoint, payload)

/-- The environment, once the exchange is over. -/
def exchanged (env : Environment) (exchange : Hook.Exchange) : Environment :=
  { env with daemon := fun _ _ => exchange }

/-- What a hook comes to before it posts anything. -/
def early (py : Hook.Python) (env : Environment) : Option (Except Exit Output) :=
  match prepare py env with
  | .ok _ => none
  | .error exit => some (.error exit)

/-- `ApprovalResponse.to_dict`. -/
def toDict (response : ApprovalResponse) : Value := .ofFields
  [("decision", .str (lit response.decision.toString)),
    ("request_id", .str (lit response.requestId)), ("responder", .str (lit response.responder)),
    ("message", .str (lit response.message))]

/-! ### The daemon -/

/-- A request id as the tables of the daemon have it. -/
def idString (t : Text) : String := String.ofList (t.map Char.ofNat)

/-- The id of a request. -/
def idOf (request : Telegram.ApprovalRequest) : String := idString request.requestId

/-- What the table of approvals keeps of a request. -/
def approvalOf (request : Telegram.ApprovalRequest) : ApprovalRequest where
  requestId := idOf request
  timeoutSeconds := request.timeoutSeconds

/-- The step is neither one of `handle_approval` nor the sending of a card. -/
def isOthers : Telegram.Inbound.Label → Bool
  | .sent .. | .opened .. | .carded .. | .unsent .. | .waited .. => false
  | _ => true

/-- The response that `handle_approval` returns in a step, if it does. -/
def returnedOf : List Telegram.Inbound.Output → Option ApprovalResponse :=
  List.findSome? fun
    | .daemon (.returned _ response) => some response
    | _ => none

/-- The bot and the daemon make a step. -/
def State.tell (cfg : Config) (s : State H) (l : Telegram.Inbound.Label) : State H :=
  { s with bot := (Telegram.Inbound.step cfg.bot s.bot l).1, told := s.told ++ [l] }

/-- A card is sent, and the bot notes its message. -/
def State.send (cfg : Config) (s : State H) (messageId : ℤ)
    (request : Telegram.ApprovalRequest) : State H :=
  { s.tell cfg (.sent messageId (idOf request)) with shown := (messageId, request) :: s.shown }

/-! ### The whole -/

variable [DecidableEq H]

/-- A session is in another state. -/
def State.put (s : State H) (h : H) (x : Session) : State H :=
  { s with sessions := Function.update s.sessions h (some x) }

/-- A session whose `handle_approval` has got this far, and its request. -/
def State.at? (s : State H) (h : H) (call : Call) :
    Option (Session × Telegram.ApprovalRequest) :=
  match s.sessions h with
  | none => none
  | some x => if x.call = call then x.request.map fun request => (x, request) else none

/-- `handle_approval`, up to the sending of the card. -/
def register (cfg : Config) (s : State H) (h : H) (now : Telegram.Now) (token : BitVec 32)
    (clock : Seconds) : Option (State H) :=
  match s.sessions h with
  | none => none
  | some x =>
    match x.call, prepare cfg.py x.env with
    | .unread, .ok (_, payload) =>
      let request := payload.request now token
      some ((s.tell cfg (.opened (approvalOf request) request clock)).put h
        { x with request := some request, call := .sending })
    | _, _ => none

/-- A turn of `wait`. -/
def look (cfg : Config) (s : State H) (h : H) (now : Seconds) (updates : Bool) :
    Option (State H) :=
  match s.at? h .waiting with
  | none => none
  | some (x, request) =>
    let l := Telegram.Inbound.Label.waited (idOf request) now updates
    match returnedOf (Telegram.Inbound.step cfg.bot s.bot l).2 with
    | none => some (s.tell cfg l)
    | some response => some ((s.tell cfg l).put h { x with call := .returned response })

/-- The hook goes on. -/
def finish (cfg : Config) (s : State H) (h : H) (x : Session) (exchange : Hook.Exchange) :
    State H :=
  s.put h { x with result := some (Hook.main cfg.py (exchanged x.env exchange)) }

/-- The hook gets what `handle_approval` has returned. -/
def receive (cfg : Config) (s : State H) (h : H) : Option (State H) :=
  match s.sessions h with
  | none => none
  | some x =>
    match x.result, x.call with
    | none, .returned response =>
      some (finish cfg s h x (.response (some (cfg.dumps (toDict response)))))
    | _, _ => none

/-- The hook gets nothing. -/
def lose (cfg : Config) (s : State H) (h : H) (caught : Bool) : Option (State H) :=
  match s.sessions h with
  | none => none
  | some x =>
    match x.result with
    | none => some (finish cfg s h x (if caught then .failed else .raised))
    | some _ => none

/-- **One step.** -/
def step (cfg : Config) (s : State H) : Label H → Option (State H)
  | .start h env =>
    match s.sessions h with
    | none => some (s.put h { env, result := early cfg.py env })
    | some _ => none
  | .register h now token clock => register cfg s h now token clock
  | .card h messageId =>
    match (s.sessions h).bind Session.request with
    | none => none
    | some request => some (s.send cfg messageId request)
  | .busCard messageId request => some (s.send cfg messageId request)
  | .sent h handle =>
    match s.at? h .sending with
    | none => none
    | some (x, request) =>
      some ((s.tell cfg (.carded (idOf request) handle)).put h { x with call := .waiting })
  | .unsent h message =>
    match s.at? h .sending with
    | none => none
    | some (x, request) =>
      let response := Approval.sendFailedResponse (approvalOf request) message
      some ((s.tell cfg (.unsent (approvalOf request) message)).put h
        { x with call := .returned response })
  | .look h now updates => look cfg s h now updates
  | .receive h => receive cfg s h
  | .lose h caught => lose cfg s h caught
  | .bot l => if isOthers l then some (s.tell cfg l) else none

end Permission

end OtamanBridge
