import Mathlib.Data.List.AList
import Mathlib.Logic.Function.Basic
import OtamanBridge.Core

/-!
# The state of the approval path of one daemon

What the threads of a daemon share on the approval path, and where each thread
stands. A `handle_approval` call owns one `_PendingApproval` object, so the call
and its object share a number; the table `_pending` maps request ids, which the
clients choose, to these numbers. Everything a thread does between two accesses
to shared state is one step, so a thread's position is the access it makes next.

Time stamps that no code stores (when the hook client posted, when a snooze was
accepted) are kept in the call as history: nothing the daemon does reads them.
-/

namespace OtamanBridge

namespace Approval

/-- One `handle_approval` call, and the `_PendingApproval` object it makes. -/
abbrev CallId := ℕ

/-- A message id of the transport: one posted approval card. -/
abbrev CardId := ℕ

/-! ### One pending approval -/

/-- `_PendingApproval`. -/
structure PendingApproval where
  request : ApprovalRequest
  event : Bool := false
  response : Option ApprovalResponse := none
  handle : Option CardId := none
  deadline : Seconds
  deriving DecidableEq

namespace PendingApproval

/-- `_PendingApproval.__init__`. -/
def make (now : Seconds) (request : ApprovalRequest) : PendingApproval :=
  { request, deadline := now + request.timeoutSeconds }

/-- `extend_by`: the deadline is pushed, never shortened. -/
def extendBy (p : PendingApproval) (now seconds : Seconds) : PendingApproval :=
  if p.deadline < now + seconds then { p with deadline := now + seconds } else p

end PendingApproval

/-- The coroutine that sends the first card of a call. -/
inductive Send
  /-- Not scheduled yet. -/
  | idle
  /-- Scheduled; the transport has not answered. -/
  | inFlight
  /-- The card is posted and its handle is the result. -/
  | posted (card : CardId)
  /-- `send_approval` raised. -/
  | failed (message : String)
  deriving DecidableEq

/-- Where a `handle_approval` call stands. -/
inductive Phase
  /-- The connection is accepted and the request is being read. -/
  | accepted
  /-- `_PendingApproval(req)` is made, the table not written yet. -/
  | built
  /-- In the table since this reading; in `fut.result(timeout=10.0)`. -/
  | sending (since : Seconds)
  /-- In the `except` branch, with the text of the exception. -/
  | failing (message : String)
  /-- At the top of the loop of `wait`. -/
  | checking
  /-- In `event.wait`, which gives up at this reading. -/
  | blocked (till : Seconds)
  /-- `wait` returned this response; the `finally` clause comes next. -/
  | leaving (response : ApprovalResponse)
  /-- The response is sent to the hook. -/
  | returned (response : ApprovalResponse)
  deriving DecidableEq

/-- A call is registered from its table write on. -/
def Phase.Registered : Phase → Prop
  | .accepted => False
  | .built => False
  | _ => True

/-- A registered call that has not answered yet. -/
def Phase.InFlight : Phase → Prop
  | .accepted => False
  | .built => False
  | .returned _ => False
  | _ => True

/-- A call still open to a decision: it waits for its card or in `wait`. -/
def Phase.Open : Phase → Prop
  | .sending _ => True
  | .checking => True
  | .blocked _ => True
  | _ => False

/-- A `handle_approval` call. -/
structure Call where
  request : ApprovalRequest
  phase : Phase
  pending : PendingApproval
  send : Send
  /-- When the hook client posted the request. -/
  postedAt : Seconds
  /-- When the `_PendingApproval` was made. -/
  builtAt : Seconds
  /-- When snoozes were accepted for it. -/
  snoozedAt : List Seconds
  deriving DecidableEq

/-! ### The threads that answer a call -/

/-- Who an `ApprovalService.resolve` call acts for. -/
inductive Origin
  /-- The listener, on a reply of the transport. -/
  | listener (reply : InboundReply)
  /-- `POST /reply`, by a caller the auth gate identified. -/
  | http (ctx : CallContext)
  deriving DecidableEq

/-- Where an `ApprovalService.resolve` call stands. -/
inductive ResolvePhase
  /-- About to look the request id up under the lock. -/
  | looking
  /-- Holds the object it found; `self.response = response` comes next. -/
  | holding (c : CallId)
  /-- The response is written; `self.event.set()` comes next. -/
  | written (c : CallId)
  /-- Returned: `True` when it found an object, `False` otherwise. -/
  | done (found : Option CallId)
  deriving DecidableEq

/-- The object a `resolve` call found, if any. -/
def ResolvePhase.found : ResolvePhase → Option CallId
  | .looking => none
  | .holding c => some c
  | .written c => some c
  | .done c => c

/-- An `ApprovalService.resolve` call. -/
structure Resolve where
  requestId : String
  response : ApprovalResponse
  origin : Origin
  phase : ResolvePhase
  deriving DecidableEq

/-- Where a `handle_snooze` call stands. -/
inductive SnoozePhase
  | looking
  /-- Found its object; `extend_by` comes next. -/
  | extending (c : CallId)
  /-- The deadline is pushed; scheduling the two coroutines comes next. -/
  | scheduling (c : CallId)
  | done
  deriving DecidableEq

/-- The object a `handle_snooze` call holds, if any. -/
def SnoozePhase.found : SnoozePhase → Option CallId
  | .extending c => some c
  | .scheduling c => some c
  | _ => none

/-- A `handle_snooze` call. -/
structure Snooze where
  requestId : String
  phase : SnoozePhase
  deriving DecidableEq

/-- Where a `_snooze_repost` coroutine stands. -/
inductive RepostPhase
  /-- In `asyncio.sleep`, due at this reading. -/
  | sleeping (till : Seconds)
  /-- The object was pending; `send_approval` is awaited. -/
  | sending (c : CallId)
  /-- The new card is posted; the handle is not stored yet. -/
  | posted (c : CallId) (card : CardId)
  | done
  deriving DecidableEq

/-- A `_snooze_repost` coroutine. -/
structure Repost where
  requestId : String
  phase : RepostPhase
  deriving DecidableEq

/-- A card in the chat: the call it was sent for, and whether it has buttons. -/
structure Card where
  call : CallId
  live : Bool
  deriving DecidableEq

/-- Where `BridgeDaemon.stop` stands. -/
inductive StopPhase
  /-- Not called. -/
  | running
  /-- In the loop of `cancel_all`: the objects still to be answered. -/
  | sweeping (todo : List CallId)
  /-- In the loop, between the response and the event of the first object. -/
  | setting (c : CallId) (todo : List CallId)
  /-- `cancel_all` returned. -/
  | swept
  /-- The HTTP server accepts no connections any more. -/
  | closed
  deriving DecidableEq

/-! ### The whole state -/

/-- `_pending`. -/
abbrev PendingTable := AList fun _ : String => CallId

/-- The state of one daemon on the approval path. -/
structure State where
  now : Seconds
  calls : CallId → Option Call
  table : PendingTable
  resolves : ℕ → Option Resolve
  snoozes : ℕ → Option Snooze
  reposts : ℕ → Option Repost
  cards : CardId → Option Card
  /-- Scheduled `transport.update` coroutines, by the card they edit. -/
  updates : List CardId
  /-- `_reply_index` of the transport. -/
  replyIndex : List (CardId × String)
  /-- The queue `listen` yields from. -/
  inbound : List InboundReply
  /-- The request ids `_pending_bus` holds. -/
  bus : String → Bool
  stop : StopPhase

namespace State

/-- A daemon that has just started. -/
def init : State where
  now := 0
  calls := fun _ => none
  table := ∅
  resolves := fun _ => none
  snoozes := fun _ => none
  reposts := fun _ => none
  cards := fun _ => none
  updates := []
  replyIndex := []
  inbound := []
  bus := fun _ => false
  stop := .running

variable (s : State)

/-- Write a call. -/
def setCall (c : CallId) (k : Call) : State :=
  { s with calls := Function.update s.calls c (some k) }

/-- Write the object of a call, where the call exists. -/
def modifyPending (c : CallId) (f : PendingApproval → PendingApproval) : State :=
  { s with calls := fun c' =>
      if c' = c then (s.calls c).map fun k => { k with pending := f k.pending } else s.calls c' }

/-- Write a `resolve` call. -/
def setResolve (i : ℕ) (r : Resolve) : State :=
  { s with resolves := Function.update s.resolves i (some r) }

/-- Write a snooze. -/
def setSnooze (i : ℕ) (z : Snooze) : State :=
  { s with snoozes := Function.update s.snoozes i (some z) }

/-- Write a repost. -/
def setRepost (j : ℕ) (q : Repost) : State :=
  { s with reposts := Function.update s.reposts j (some q) }

/-- Write a card. -/
def setCard (m : CardId) (d : Card) : State :=
  { s with cards := Function.update s.cards m (some d) }

@[simp] theorem setCall_calls_self (c : CallId) (k : Call) :
    (s.setCall c k).calls c = some k :=
  Function.update_self ..

theorem setCall_calls_ne {c c₀ : CallId} (k : Call) (h : c ≠ c₀) :
    (s.setCall c₀ k).calls c = s.calls c :=
  Function.update_of_ne h ..

theorem modifyPending_calls_self {c : CallId} {k : Call}
    (f : PendingApproval → PendingApproval) (hk : s.calls c = some k) :
    (s.modifyPending c f).calls c = some { k with pending := f k.pending } := by
  simp [modifyPending, hk]

theorem modifyPending_calls_ne {c c₀ : CallId} (f : PendingApproval → PendingApproval)
    (h : c ≠ c₀) : (s.modifyPending c₀ f).calls c = s.calls c := by
  simp [modifyPending, h]

@[simp] theorem setResolve_resolves_self (i : ℕ) (r : Resolve) :
    (s.setResolve i r).resolves i = some r :=
  Function.update_self ..

theorem setResolve_resolves_ne {i i₀ : ℕ} (r : Resolve) (h : i ≠ i₀) :
    (s.setResolve i₀ r).resolves i = s.resolves i :=
  Function.update_of_ne h ..

@[simp] theorem setSnooze_snoozes_self (i : ℕ) (z : Snooze) :
    (s.setSnooze i z).snoozes i = some z :=
  Function.update_self ..

theorem setSnooze_snoozes_ne {i i₀ : ℕ} (z : Snooze) (h : i ≠ i₀) :
    (s.setSnooze i₀ z).snoozes i = s.snoozes i :=
  Function.update_of_ne h ..

@[simp] theorem setRepost_reposts_self (j : ℕ) (q : Repost) :
    (s.setRepost j q).reposts j = some q :=
  Function.update_self ..

theorem setRepost_reposts_ne {j j₀ : ℕ} (q : Repost) (h : j ≠ j₀) :
    (s.setRepost j₀ q).reposts j = s.reposts j :=
  Function.update_of_ne h ..

@[simp] theorem setCard_cards_self (m : CardId) (d : Card) :
    (s.setCard m d).cards m = some d :=
  Function.update_self ..

theorem setCard_cards_ne {m m₀ : CardId} (d : Card) (h : m ≠ m₀) :
    (s.setCard m₀ d).cards m = s.cards m :=
  Function.update_of_ne h ..

end State

end Approval

end OtamanBridge
