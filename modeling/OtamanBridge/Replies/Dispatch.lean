import OtamanBridge.Approval.Step
import OtamanBridge.Bus.Daemon
import OtamanBridge.Lib.Dict
import OtamanBridge.Lib.Unwinding
import OtamanBridge.Telegram.Cards

/-!
# The dispatch of a reply

What the replies of the transport do to the daemon: `_dispatch_inbound_reply` of `daemon.py`,
the table of `approval_service.py` and the one of `bus_surface_service.py`, and the files that
`bus_decision.py` writes. The listener dispatches one reply after the other, so the dispatch of
a reply is one step here; between two of them a `_snooze_repost` may end, and a hook that is
blocked in `wait` may look at its approval. What the environment answers (the clocks, whether
the event loop takes a coroutine, how each access to a file ends) is told with the step, and an
exception that ends the dispatch early is an answer of this kind too.

A step is a function to the next state and to what comes out
(`OtamanBridge.Replies.step`). What a table holds is any approval and any card: how they got
there is not asked.
-/

namespace OtamanBridge

namespace Replies

open Py

open Approval (CardId)

/-! ### The state -/

/-- What the daemon runs on: that of the bus, and what Python makes of the input of a tool. -/
structure Config extends Bus.Config where
  /-- `repr(v)`. -/
  repr : Value → Text
  /-- `json.dumps(v, indent=2, ensure_ascii=False)`, or its `TypeError` or `ValueError`. -/
  dumps : Value → Option Text

/-- A `_PendingApproval`, with what its request says besides the id and the time-out. -/
structure Slot extends Approval.PendingApproval where
  card : Telegram.ApprovalRequest

/-- A `_PendingBusDecision`. -/
structure BusCard where
  card : Telegram.ApprovalRequest
  parsed : Bus.Parsed
  handle : Option CardId

/-- The two tables and what they work with. -/
structure State where
  /-- `_pending`. -/
  pending : AList fun _ : String => Slot
  /-- `_pending_bus`. -/
  pendingBus : AList fun _ : String => BusCard
  /-- The files in `.agents/bus/active`, by their paths from there. -/
  files : Text → Option Text
  /-- The `_snooze_repost` coroutines that have not ended, by their request ids. -/
  reposts : List String

/-! ### Steps -/

/-- How an access to a file ends. -/
inductive Access
  /-- With an exception, and nothing has changed. -/
  | fails
  /-- With an exception, and the file is empty. -/
  | truncates
  | writes
  deriving DecidableEq

/-- What the dispatch of a reply meets. -/
structure Env where
  /-- `time.monotonic()`. -/
  now : Seconds
  /-- The time a snooze ends, as `%H:%M`. -/
  clock : Text
  /-- The event loop gets and takes the `transport.update`. -/
  updates : Bool
  /-- The event loop gets and takes the `send_info` or the `_snooze_repost`. -/
  schedules : Bool
  /-- The UTC clock, and how the access ends, for one file after the other. -/
  disk : ℕ → Bus.Instant × Access

/-- The name of a step. -/
inductive Label
  /-- A reply is dispatched. -/
  | reply (r : InboundReply) (env : Env)
  /-- A `_snooze_repost` ends: the card is posted, or this raised. -/
  | repost (requestId : String) (posted : Option CardId)
  /-- `wait` reads the clock and looks at the event. If it returns, the table is cleared, and
  the event loop takes the `transport.update` or does not. -/
  | wait (requestId : String) (now : Seconds) (updates : Bool)

/-- A file that is written: why, its path and its text. -/
structure Written where
  kind : Bus.Write
  path : Text
  text : Text

/-- What comes out of a step. -/
inductive Event
  /-- A file is written. -/
  | wrote (w : Written)
  /-- A response is stored for the hook. -/
  | resolved (requestId : String) (response : ApprovalResponse)
  /-- A card of the bus is taken from the table. -/
  | cleared (requestId : String)
  /-- A card of the bus is edited. -/
  | editedBus (card : CardId) (text : Text)
  /-- The card of an approval is edited. -/
  | edited (card : CardId) (text : Text)
  /-- An info message is sent. -/
  | informed (info : Telegram.InfoMessage)
  /-- A `_snooze_repost` is scheduled. -/
  | scheduled (requestId : String)
  /-- It stores the handle of its card. -/
  | reposted (requestId : String) (card : CardId)
  /-- The hook gets this response. -/
  | returned (requestId : String) (response : ApprovalResponse)

/-! ### Details -/

/-- `req.reason`, if there is one. -/
def reasonLines (req : Telegram.ApprovalRequest) : List Text :=
  if req.reason = [] then [] else [lit "Reason: " ++ req.reason]

/-- The payload, cut to what Telegram takes. -/
def shortPayload (payload : Text) : Text :=
  if 3500 < payload.length then
    payload.take 3500 ++ lit "\n… (truncated to fit Telegram limit)"
  else payload

/-- The message of `_surface_details`. -/
def detailsMessage (cfg : Config) (req : Telegram.ApprovalRequest) : Telegram.InfoMessage where
  account := req.account
  project := req.project
  severity := .info
  title := lit "Details · " ++ req.toolName ++ lit " · " ++ req.repo
  body := joinLines ([lit "Tool: " ++ req.toolName, lit "Agent: " ++ req.agent,
    lit "Repo: " ++ req.repo] ++ reasonLines req ++ [[], lit "Input:", lit "```",
      shortPayload ((cfg.dumps req.toolInput).getD (cfg.repr req.toolInput)), lit "```"])
  sourceAgent := req.agent
  busMessageId := req.requestId

/-- The request a reply is about: the one of an approval before the one of the bus. -/
def requestOf (s : State) (requestId : String) : Option Telegram.ApprovalRequest :=
  match s.pending.lookup requestId with
  | some p => some p.card
  | none => (s.pendingBus.lookup requestId).map BusCard.card

/-- `_surface_details`. -/
def surfaceDetails (cfg : Config) (s : State) (requestId : String) (env : Env) :
    State × List Event :=
  match requestOf s requestId with
  | none => (s, [])
  | some req => (s, if env.schedules then [.informed (detailsMessage cfg req)] else [])

/-! ### Snooze -/

/-- `extend_by` of a snooze. -/
def Slot.snooze (p : Slot) (now : Seconds) : Slot :=
  { p with toPendingApproval := p.toPendingApproval.extendBy now (Approval.snoozeSeconds + 30) }

/-- The edit of the old card. -/
def snoozedCard (p : Slot) (env : Env) : List Event :=
  match p.handle with
  | none => []
  | some card =>
    if env.updates then [.edited card (lit "⏱️ snoozed — re-posting at ~" ++ env.clock)] else []

/-- `handle_snooze`. -/
def handleSnooze (s : State) (requestId : String) (env : Env) : State × List Event :=
  match s.pending.lookup requestId with
  | none => (s, [])
  | some p =>
    ({ s with
        pending := Dict.modify requestId (fun p => p.snooze env.now) s.pending
        reposts := if env.schedules then requestId :: s.reposts else s.reposts },
      snoozedCard p env ++ if env.schedules then [.scheduled requestId] else [])

/-- The handle of the new card is stored. -/
def Slot.repost (p : Slot) (card : CardId) : Slot := { p with handle := some card }

/-- The end of a `_snooze_repost`. The approval was found before the card was sent if it is
still found now. -/
def repost (s : State) (requestId : String) (posted : Option CardId) : State × List Event :=
  if requestId ∈ s.reposts then
    let ended := { s with reposts := s.reposts.erase requestId }
    match s.pending.lookup requestId, posted with
    | some _, some card =>
      ({ ended with pending := Dict.modify requestId (fun p => p.repost card) s.pending },
        [.reposted requestId card])
    | _, _ => (ended, [])
  else (s, [])

/-! ### Cards of the bus -/

/-- `InboundReply.action`, for a card of the bus. -/
def busAction : Action → Bus.BusAction
  | .comment => .comment
  | .acknowledge => .acknowledge
  | .approve => .decide .approved
  | .reject => .decide .rejected
  | _ => .other

/-- The reply, for a card of the bus. -/
def busReply (r : InboundReply) : Bus.Reply where
  requestId := lit r.requestId
  action := busAction r.action
  responder := lit r.responder
  comment := lit r.comment

/-- The path of the `human.ack` file of a message. -/
def ackPath (stem : Text) : Text := lit "acks/" ++ stem ++ lit ".human.ack"

/-- The path and the text of a file that a reply writes. -/
def fileOf (cfg : Config) (m : Bus.BusMessage) (r : Bus.Reply) (time : Bus.Instant) :
    Bus.Write → Text × Text
  | .ack content => (ackPath m.stem, content)
  | .broadcast v =>
    let f := Bus.broadcastDecision cfg.py m time r.responder r.comment v
    (f.name, f.text)
  | .reply text =>
    let f := Bus.replyMessage cfg.py m time r.responder text
    (f.name, f.text)

/-- The files of a reply, up to the first that raises, and whether none does. -/
def record (cfg : Config) (m : Bus.BusMessage) (r : Bus.Reply) (disk : ℕ → Bus.Instant × Access) :
    List Bus.Write → List Written × Bool
  | [] => ([], true)
  | w :: todo =>
    let file := fileOf cfg m r (disk 0).1 w
    match (disk 0).2 with
    | .fails => ([], false)
    | .truncates => ([⟨w, file.1, []⟩], false)
    | .writes =>
      let rest := record cfg m r (fun n => disk (n + 1)) todo
      (⟨w, file.1, file.2⟩ :: rest.1, rest.2)

/-- The files after they are written. -/
def putFiles (files : Text → Option Text) (ws : List Written) : Text → Option Text :=
  ws.foldl (fun files w => Function.update files w.path (some w.text)) files

/-- What the card shows in the end. -/
def busStatus (cfg : Config) (m : Bus.BusMessage) (r : Bus.Reply) : Text :=
  let user := Bus.orText r.responder (lit "user")
  match r.action with
  | .decide v =>
    if m.type cfg.py = Bus.specChangeRequest then
      match v with
      | .approved => lit "✓ approved by " ++ user
      | .rejected => lit "✗ rejected by " ++ user
    else lit "👍 acknowledged by " ++ user
  | _ => lit "👍 acknowledged by " ++ user

/-- The edit of a card that is cleared. -/
def busEdit (cfg : Config) (card : BusCard) (r : Bus.Reply) (env : Env) : List Event :=
  match card.handle with
  | none => []
  | some handle =>
    if env.updates then [.editedBus handle (busStatus cfg card.parsed.msg r)] else []

/-- `_dispatch_bus_decision`. -/
def dispatchBusDecision (cfg : Config) (s : State) (r : InboundReply) (env : Env)
    (card : BusCard) : State × List Event :=
  match Bus.writesOf cfg.toConfig card.parsed (busReply r) with
  | none => (s, [])
  | some (todo, clears) =>
    let written := record cfg card.parsed.msg (busReply r) env.disk todo
    let files := putFiles s.files written.1
    if written.2 ∧ clears then
      ({ s with files, pendingBus := s.pendingBus.erase r.requestId },
        written.1.map .wrote ++ .cleared r.requestId :: busEdit cfg card (busReply r) env)
    else ({ s with files }, written.1.map .wrote)

/-! ### Approvals -/

/-- `_PendingApproval.resolve`. -/
def Slot.resolve (p : Slot) (response : ApprovalResponse) : Slot :=
  { p with response := some response, event := true }

/-- `ApprovalService.resolve`. -/
def resolve (s : State) (requestId : String) (response : ApprovalResponse) : State × List Event :=
  match s.pending.lookup requestId with
  | none => (s, [])
  | some _ =>
    ({ s with pending := Dict.modify requestId (fun p => p.resolve response) s.pending },
      [.resolved requestId response])

/-- The response of a reply that decides. -/
def responseOf (r : InboundReply) (decision : Decision) : ApprovalResponse where
  decision := decision
  requestId := r.requestId
  responder := r.responder
  message := r.comment

/-- `_dispatch_inbound_reply`. -/
def dispatchInboundReply (cfg : Config) (s : State) (r : InboundReply) (env : Env) :
    State × List Event :=
  if r.action = .details then surfaceDetails cfg s r.requestId env
  else if r.action = .snooze then handleSnooze s r.requestId env
  else
    match s.pendingBus.lookup r.requestId with
    | some card => dispatchBusDecision cfg s r env card
    | none =>
      match actionToDecision r.action with
      | none => (s, [])
      | some decision => resolve s r.requestId (responseOf r decision)

/-! ### The hook -/

/-- How `wait` goes on. -/
inductive Turn
  | waits
  /-- The event is set, and there is no response. -/
  | raises
  | returns (response : ApprovalResponse)
  deriving DecidableEq

/-- A turn of the loop in `wait`. -/
def Slot.turn (p : Slot) (now : Seconds) : Turn :=
  if p.deadline ≤ now then .returns (Approval.timeoutResponse p.request)
  else if p.event then
    match p.response with
    | none => .raises
    | some response => .returns response
  else .waits

/-- The text for the card of an approval that is over. -/
def statusText (response : ApprovalResponse) : Text :=
  let user := Bus.orText (lit response.responder) (lit "user")
  match response.decision with
  | .allow => lit "✓ approved by " ++ user
  | .deny => lit "✗ rejected by " ++ user
  | .timeout => lit "⏱️ expired"
  | d => lit d.toString

/-- The edit of the card of an approval that is over. -/
def finalEdit (p : Slot) (response : ApprovalResponse) (updates : Bool) : List Event :=
  match p.handle with
  | none => []
  | some card =>
    if Approval.stripsCard response ∧ updates then [.edited card (statusText response)] else []

/-- The end of `handle_approval`, if `wait` comes to one. -/
def waitTurn (s : State) (requestId : String) (now : Seconds) (updates : Bool) :
    State × List Event :=
  match s.pending.lookup requestId with
  | none => (s, [])
  | some p =>
    match p.turn now with
    | .waits => (s, [])
    | .raises => ({ s with pending := s.pending.erase requestId }, [])
    | .returns response =>
      ({ s with pending := s.pending.erase requestId },
        .returned requestId response :: finalEdit p response updates)

/-! ### The whole -/

/-- **One step.** -/
def step (cfg : Config) (s : State) : Label → State × List Event
  | .reply r env => dispatchInboundReply cfg s r env
  | .repost requestId posted => repost s requestId posted
  | .wait requestId now updates => waitTurn s requestId now updates

/-- Steps, one after the other. -/
def run (cfg : Config) : State → List Label → State × List (Label × Event) :=
  Unwinding.run (step cfg)

end Replies

end OtamanBridge
