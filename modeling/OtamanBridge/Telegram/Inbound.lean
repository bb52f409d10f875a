import OtamanBridge.Http.Auth
import OtamanBridge.Lib.Fifo
import OtamanBridge.Replies.Frame

/-!
# What comes in from Telegram

The inbound half of `transports/telegram.py`, and the listener of the daemon behind it. A tap
on a button and a message that replies to a card are looked at by a handler each. Anybody in
the group can send them, so each handler first asks whether the account is on the allowlist;
then a tap is a reply with the action and the request id of its data, and a message is a
comment on the request of the card that it replies to, as far as the bot remembers its last
512 cards. A tap is acknowledged before its reply goes into the queue, and Telegram may take
its time or refuse, so this is a step of its own. The daemon takes one reply after the other
out of the queue and dispatches it.

Between two of these steps cards are sent, hooks register approvals and look after them, and
a reply may come in by HTTP, from whoever has a credential that the auth chain accepts. The
daemon may be stopped: then all hooks that wait are told to ask, and what is left of it goes on
for a while.
-/

namespace OtamanBridge

namespace Telegram

namespace Inbound

open Py

open Http (AuthStack Headers Sessions)

/-! ### The state -/

/-- `allowed_user_ids` of the bot, what the daemon runs on, and its auth chain. -/
structure Config where
  allowedUserIds : List ℤ
  daemon : Replies.Config
  auth : AuthStack

/-- What the auth chain goes by when a request comes: the clock, the sessions of the web login, and
what the validator, if there is one, says to a token. -/
structure Moment where
  now : Seconds
  sessions : Sessions
  validate : Text → Except Unit (Option CallContext)

/-- The auth chain of the daemon at this time. -/
def Config.authAt (cfg : Config) (t : Moment) : AuthStack :=
  { cfg.auth with
    sessions := t.sessions
    validator := cfg.auth.validator.map fun _ => t.validate }

/-- What is read of a `callback_query`: `from_user`, and `data or ""`. -/
structure Query where
  fromUser : Option ℤ
  data : String

/-- What is read of a `message`: the id in `reply_to_message`, `from_user`, and `text or ""`. -/
structure Message where
  replyTo : Option ℤ
  fromUser : Option ℤ
  text : String

/-- The bot and the daemon. -/
structure State where
  /-- `_reply_index`, the oldest card first. -/
  replyIndex : List (ℤ × String)
  /-- The replies of taps that are being acknowledged. -/
  answering : List InboundReply
  /-- `_inbound`, the oldest reply first. -/
  inbound : List InboundReply
  daemon : Replies.State
  /-- `_shutdown_requested`. -/
  stopped : Bool
  /-- The approvals that a stop has taken out of the table, whose hooks have not gone on. -/
  cancelled : AList fun _ : String => Replies.Slot

/-- The daemon has just started, with these files on the bus. -/
def init (files : Text → Option Text) : State where
  replyIndex := []
  answering := []
  inbound := []
  daemon := { pending := ∅, pendingBus := ∅, files := files, reposts := [] }
  stopped := false
  cancelled := ∅

/-- The name of a step. -/
inductive Label
  /-- `send_message` of `send_approval` returns. -/
  | sent (messageId : ℤ) (requestId : String)
  /-- `_on_callback_query`, up to the answer. -/
  | tap (query : Option Query)
  /-- The answer of one of the taps ends, or raises. -/
  | answered (n : ℕ) (ok : Bool)
  /-- `_on_reply_message`. -/
  | message (msg : Option Message)
  /-- The listener takes a reply and dispatches it. -/
  | listen (env : Replies.Env)
  /-- A hook registers an approval. -/
  | opened (request : OtamanBridge.ApprovalRequest) (card : Telegram.ApprovalRequest)
      (now : Seconds)
  /-- The first card of an approval is posted. -/
  | carded (requestId : String) (card : Approval.CardId)
  /-- It is not: `send_approval` raises this, or takes too long. -/
  | unsent (request : OtamanBridge.ApprovalRequest) (message : String)
  /-- A message of the bus is put into the table. -/
  | surfaced (requestId : String) (card : Replies.BusCard)
  /-- A `_snooze_repost` ends. -/
  | reposted (requestId : String) (posted : Option Approval.CardId)
  /-- The hook of an approval looks after it. -/
  | waited (requestId : String) (now : Seconds) (updates : Bool)
  /-- `POST /reply`. -/
  | replied (t : Moment) (headers : Headers) (requestId : String) (response : ApprovalResponse)
  /-- `stop`, up to the end of `cancel_all`. -/
  | stopped

/-- What comes out of a step. -/
inductive Output
  /-- The sender of a tap is shown this. -/
  | alert (text : String)
  /-- A tap is acknowledged. -/
  | ack
  /-- A reply goes into the queue. -/
  | queued (reply : InboundReply)
  /-- A reply comes out of it. -/
  | took (reply : InboundReply)
  | daemon (e : Replies.Event)

/-! ### The handlers -/

/-- `int(user.id) if user else 0`. -/
def uid (fromUser : Option ℤ) : ℤ := fromUser.getD 0

/-- `uid in self.allowed_user_ids`. -/
def Authorised (cfg : Config) (fromUser : Option ℤ) : Prop :=
  uid fromUser ∈ cfg.allowedUserIds

instance (cfg : Config) (fromUser : Option ℤ) : Decidable (Authorised cfg fromUser) :=
  inferInstanceAs (Decidable (_ ∈ _))

/-- `f"telegram:{uid}"`. -/
def responder (fromUser : Option ℤ) : String := "telegram:" ++ toString (uid fromUser)

/-- The reply a tap stands for. -/
def tapReply (fromUser : Option ℤ) (action : Action) (requestId : String) : InboundReply where
  requestId := requestId
  action := action
  responder := responder fromUser

/-- What an account outside the allowlist is shown. -/
def refusal : String := "Not authorized to approve this request."

/-- `_on_callback_query`, up to the answer. -/
def onCallbackQuery (cfg : Config) (s : State) : Option Query → State × List Output
  | none => (s, [])
  | some q =>
    if Authorised cfg q.fromUser then
      match OtamanBridge.decodeCallback q.data with
      | none => (s, [.alert "Malformed callback data."])
      | some (action, requestId) =>
        ({ s with answering := s.answering ++ [tapReply q.fromUser action requestId] }, [.ack])
    else (s, [.alert refusal])

/-- `_on_callback_query`, from the answer on. -/
def answered (s : State) (n : ℕ) (ok : Bool) : State × List Output :=
  match s.answering[n]? with
  | none => (s, [])
  | some r =>
    let left := { s with answering := s.answering.eraseIdx n }
    if ok then ({ left with inbound := s.inbound ++ [r] }, [.queued r]) else (left, [])

/-- `text.strip()`. -/
def stripString (text : String) : String :=
  String.ofList ((text.toList.dropWhile fun c => isSpace c.toNat).rdropWhile fun c =>
    isSpace c.toNat)

/-- The reply a message stands for. -/
def commentReply (fromUser : Option ℤ) (requestId comment : String) : InboundReply where
  requestId := requestId
  action := .comment
  responder := responder fromUser
  comment := comment

/-- `self._reply_index.get(message_id)`. -/
def cardOf (s : State) (messageId : ℤ) : Option String := s.replyIndex.lookup messageId

/-- The request a message is about: an id that is empty counts as none. -/
def requestOf (s : State) (m : Message) : Option String :=
  (m.replyTo.bind (cardOf s)).filter fun requestId => requestId ≠ ""

/-- `_on_reply_message`. -/
def onReplyMessage (cfg : Config) (s : State) : Option Message → State × List Output
  | none => (s, [])
  | some m =>
    match requestOf s m with
    | none => (s, [])
    | some requestId =>
      if Authorised cfg m.fromUser then
        let text := stripString m.text
        if text = "" then (s, [])
        else
          let r := commentReply m.fromUser requestId text
          ({ s with inbound := s.inbound ++ [r] }, [.queued r])
      else (s, [])

/-- `_reply_index_max`. -/
def replyIndexMax : ℕ := 512

/-- The end of `send_approval`. -/
def sendApproval (s : State) (messageId : ℤ) (requestId : String) : State :=
  { s with replyIndex := Fifo.put replyIndexMax s.replyIndex (messageId, requestId) }

/-! ### The daemon -/

/-- A step of the daemon alone. -/
def inDaemon (s : State) (out : Replies.State × List Replies.Event) : State × List Output :=
  ({ s with daemon := out.1 }, out.2.map .daemon)

/-- One turn of `_listener_loop`. -/
def listen (cfg : Config) (s : State) (env : Replies.Env) : State × List Output :=
  match s.inbound with
  | [] => (s, [])
  | r :: inbound =>
    let out := inDaemon { s with inbound } (Replies.dispatchInboundReply cfg.daemon s.daemon r env)
    (out.1, .took r :: out.2)

/-- `handle_approval` puts its approval into the table. -/
def openApproval (d : Replies.State) (request : OtamanBridge.ApprovalRequest)
    (card : Telegram.ApprovalRequest) (now : Seconds) : Replies.State :=
  { d with
    pending := d.pending.insert request.requestId
      { toPendingApproval := .make now request, card := card } }

/-- The handle of a card is stored with an approval in the table. -/
def cardApproval (d : Replies.State) (requestId : String) (card : Approval.CardId) :
    Replies.State :=
  { d with pending := Dict.modify requestId (fun p => p.repost card) d.pending }

/-- It stores the handle, in the table or out of it. -/
def carded (s : State) (requestId : String) (card : Approval.CardId) : State × List Output :=
  inDaemon { s with cancelled := Dict.modify requestId (fun p => p.repost card) s.cancelled }
    (cardApproval s.daemon requestId card, [])

/-- It gives up, and the hook is told to ask. -/
def unsent (s : State) (request : OtamanBridge.ApprovalRequest) (message : String) :
    State × List Output :=
  inDaemon { s with cancelled := s.cancelled.erase request.requestId }
    ({ s.daemon with pending := s.daemon.pending.erase request.requestId },
      [.returned request.requestId (Approval.sendFailedResponse request message)])

/-- `wait` looks, at an approval in the table, or at one that a stop has taken out of it, which
does not wait on. -/
def waited (s : State) (requestId : String) (now : Seconds) (updates : Bool) :
    State × List Output :=
  match s.cancelled.lookup requestId with
  | none => inDaemon s (Replies.waitTurn s.daemon requestId now updates)
  | some _ =>
    let out := Replies.waitTurn { s.daemon with pending := s.cancelled } requestId now updates
    inDaemon { s with cancelled := out.1.pending }
      ({ s.daemon with pending := s.daemon.pending.erase requestId }, out.2)

/-- `POST /reply`: the gate of `do_POST`, and `handle_reply`. -/
def replied (cfg : Config) (s : State) (t : Moment) (headers : Headers) (requestId : String)
    (response : ApprovalResponse) : State × List Output :=
  match (cfg.authAt t).identify t.now headers with
  | (_, .ok (some _)) => inDaemon s (Replies.resolve s.daemon requestId response)
  | _ => (s, [])

/-- `cancel_all`, the first time that the daemon is stopped. -/
def stop (s : State) : State :=
  if s.stopped then s
  else
    { s with
      stopped := true
      cancelled := Dict.map (fun p =>
        p.resolve (Approval.shutdownResponse p.request.requestId)) s.daemon.pending
      daemon := { s.daemon with pending := ∅ } }

/-- `on_approval` puts a message into the table. -/
def surface (d : Replies.State) (requestId : String) (card : Replies.BusCard) : Replies.State :=
  { d with pendingBus := d.pendingBus.insert requestId card }

/-! ### The whole -/

/-- **One step.** -/
def step (cfg : Config) (s : State) : Label → State × List Output
  | .sent messageId requestId => (sendApproval s messageId requestId, [])
  | .tap query => onCallbackQuery cfg s query
  | .answered n ok => answered s n ok
  | .message msg => onReplyMessage cfg s msg
  | .listen env => listen cfg s env
  | .opened request card now => inDaemon s (openApproval s.daemon request card now, [])
  | .carded requestId card => carded s requestId card
  | .unsent request message => unsent s request message
  | .surfaced requestId card => inDaemon s (surface s.daemon requestId card, [])
  | .reposted requestId posted => inDaemon s (Replies.repost s.daemon requestId posted)
  | .waited requestId now updates => waited s requestId now updates
  | .replied t headers requestId response => replied cfg s t headers requestId response
  | .stopped => (stop s, [])

/-- Steps, one after the other. -/
def run (cfg : Config) : State → List Label → State × List (Label × Output) :=
  Unwinding.run (step cfg)

end Inbound

end Telegram

end OtamanBridge
