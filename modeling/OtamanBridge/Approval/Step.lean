import OtamanBridge.Approval.State
import OtamanBridge.Lib.Run

/-!
# One step of the approval path

`OtamanBridge.Approval.step` is the transition function of a daemon: the label
says which thread moves and what the environment answers, and the result is the
next state, or nothing when that thread is not there. It follows
`approval_service.py` access by access; the handlers around it follow
`daemon.py` (`handle_reply`, `_dispatch_inbound_reply`, `stop`) and
`transports/telegram.py`.

A step is atomic only where the source holds the lock or touches nothing that is
shared. In particular the lookup of `resolve` and its two writes are three steps,
the deadline check and the wake-up of `wait` are two, and between the wake-up and
the removal from the table anything can happen. The coroutines of the loop thread
are allowed to interleave at every step, although the real loop switches only at
an `await`: every run of the daemon is a run of the model.

What a step can do is said once more, as a relation with its guards, in
`OtamanBridge.Approval.Step`; proofs read a step through `Step.of_step`.
-/

namespace OtamanBridge

namespace Approval

/-- `daemon.SNOOZE_SECONDS`. -/
def snoozeSeconds : Seconds := 15 * 60

/-- What `wait` returns once the deadline has passed. -/
def timeoutResponse (request : ApprovalRequest) : ApprovalResponse :=
  { decision := .timeout, requestId := request.requestId }

/-- What a call returns when its card could not be sent. -/
def sendFailedResponse (request : ApprovalRequest) (message : String) : ApprovalResponse :=
  { decision := .ask, requestId := request.requestId, responder := "daemon:send-failed", message }

/-- The response factory `stop` hands to `cancel_all`. -/
def shutdownResponse (requestId : String) : ApprovalResponse :=
  { decision := .ask, requestId, responder := "daemon:shutdown",
    message := "bridge daemon shutting down" }

/-- The decisions after which `handle_approval` edits the card. -/
def stripsCard (r : ApprovalResponse) : Bool :=
  r.decision = .allow || r.decision = .deny || r.decision = .timeout

/-! ### The thread of a `handle_approval` call -/

/-- A step of a `handle_approval` call that touches only its own object. -/
inductive Move
  | build
  | sendReturned
  | sendRaised
  | sendGaveUp
  | expire
  | block
  | poll
  | wake
  deriving DecidableEq

/-- The steps of a call between its table accesses. -/
def Call.move (now : Seconds) (k : Call) : Move → Option Call
  | .build =>
    match k.phase with
    | .accepted => some { k with phase := .built, pending := .make now k.request, builtAt := now }
    | _ => none
  | .sendReturned =>
    match k.phase, k.send with
    | .sending _, .posted card =>
      some { k with phase := .checking, pending := { k.pending with handle := some card } }
    | _, _ => none
  | .sendRaised =>
    match k.phase, k.send with
    | .sending _, .failed message => some { k with phase := .failing message }
    | _, _ => none
  | .sendGaveUp =>
    match k.phase with
    | .sending since => if since + 10 ≤ now then some { k with phase := .failing "" } else none
    | _ => none
  | .expire =>
    match k.phase with
    | .checking =>
      if k.pending.deadline ≤ now then
        some { k with phase := .leaving (timeoutResponse k.request) } else none
    | _ => none
  | .block =>
    match k.phase with
    | .checking =>
      if now < k.pending.deadline then
        some { k with phase := .blocked (now + min (k.pending.deadline - now) 5) } else none
    | _ => none
  | .poll =>
    match k.phase with
    | .blocked till => if till ≤ now then some { k with phase := .checking } else none
    | _ => none
  | .wake =>
    match k.phase, k.pending.event, k.pending.response with
    | .blocked _, true, some r => some { k with phase := .leaving r }
    | _, _, _ => none

/-- What one step of its own thread does to a call. -/
inductive Call.Moves (now : Seconds) (k : Call) : Move → Call → Prop
  | build (h : k.phase = .accepted) :
      Moves now k .build { k with phase := .built, pending := .make now k.request, builtAt := now }
  | sendReturned {since card} (h : k.phase = .sending since) (hs : k.send = .posted card) :
      Moves now k .sendReturned
        { k with phase := .checking, pending := { k.pending with handle := some card } }
  | sendRaised {since message} (h : k.phase = .sending since) (hs : k.send = .failed message) :
      Moves now k .sendRaised { k with phase := .failing message }
  | sendGaveUp {since} (h : k.phase = .sending since) (hs : since + 10 ≤ now) :
      Moves now k .sendGaveUp { k with phase := .failing "" }
  | expire (h : k.phase = .checking) (hd : k.pending.deadline ≤ now) :
      Moves now k .expire { k with phase := .leaving (timeoutResponse k.request) }
  | block (h : k.phase = .checking) (hd : now < k.pending.deadline) :
      Moves now k .block
        { k with phase := .blocked (now + min (k.pending.deadline - now) 5) }
  | poll {till} (h : k.phase = .blocked till) (ht : till ≤ now) :
      Moves now k .poll { k with phase := .checking }
  | wake {till r} (h : k.phase = .blocked till) (he : k.pending.event = true)
      (hr : k.pending.response = some r) : Moves now k .wake { k with phase := .leaving r }

theorem Call.moves_of_move {now : Seconds} {k k' : Call} {m : Move} (h : k.move now m = some k') :
    k.Moves now m k' := by
  cases m with
  | build =>
    simp only [Call.move] at h
    split at h
    · next hp =>
      obtain rfl := Option.some.inj h
      exact .build hp
    · cases h
  | sendReturned =>
    simp only [Call.move] at h
    split at h
    · next hp hs =>
      obtain rfl := Option.some.inj h
      exact .sendReturned hp hs
    · cases h
  | sendRaised =>
    simp only [Call.move] at h
    split at h
    · next hp hs =>
      obtain rfl := Option.some.inj h
      exact .sendRaised hp hs
    · cases h
  | sendGaveUp =>
    simp only [Call.move] at h
    split at h
    · next hp =>
      obtain ⟨ht, rfl⟩ := by simpa using h
      exact .sendGaveUp hp ht
    · cases h
  | expire =>
    simp only [Call.move] at h
    split at h
    · next hp =>
      obtain ⟨ht, rfl⟩ := by simpa using h
      exact .expire hp ht
    · cases h
  | block =>
    simp only [Call.move] at h
    split at h
    · next hp =>
      obtain ⟨ht, rfl⟩ := by simpa using h
      exact .block hp ht
    · cases h
  | poll =>
    simp only [Call.move] at h
    split at h
    · next hp =>
      obtain ⟨ht, rfl⟩ := by simpa using h
      exact .poll hp ht
    · cases h
  | wake =>
    simp only [Call.move] at h
    split at h
    · next hp he hr =>
      obtain rfl := Option.some.inj h
      exact .wake hp he hr
    · cases h

/-! ### The labels -/

/-- What the run depends on: the Telegram users that may decide. -/
structure Config where
  allowedUserIds : List ℤ

/-- The name of a step: who moves, and what the environment answers. -/
inductive Label
  /-- The monotonic clock reads `t`. -/
  | tick (t : Seconds)
  /-- A button tap arrives at `_on_callback_query`. -/
  | callback (uid : ℤ) (data : String)
  /-- A reply to a message arrives at `_on_reply_message`, with its stripped text. -/
  | replyMessage (uid : ℤ) (messageId : CardId) (text : String)
  /-- The listener takes a reply and dispatches it. -/
  | listen (i : ℕ)
  /-- A bus card for this id becomes pending, or is resolved. -/
  | bus (requestId : String) (pending : Bool)
  /-- `POST /approval`, with what the auth gate answered. -/
  | postApproval (c : CallId) (ctx : Option CallContext) (postedAt : Seconds)
      (request : ApprovalRequest)
  /-- `POST /reply`, with what the auth gate answered. -/
  | postReply (i : ℕ) (ctx : Option CallContext) (response : ApprovalResponse)
  /-- A step of a call on its own object. -/
  | move (c : CallId) (m : Move)
  /-- `self._pending[req.request_id] = pending`, and the card is scheduled. -/
  | register (c : CallId)
  /-- `self._pending.pop(req.request_id, None)`, and the call returns. -/
  | leave (c : CallId)
  /-- The first card of a call is posted. -/
  | sendPosts (c : CallId) (card : CardId)
  /-- Sending the first card of a call raises. -/
  | sendFails (c : CallId) (message : String)
  /-- The lookup of `ApprovalService.resolve`. -/
  | look (i : ℕ)
  /-- `self.response = response`. -/
  | write (i : ℕ)
  /-- `self.event.set()`; `resolve` returns `True`. -/
  | set (i : ℕ)
  /-- The lookup of `handle_snooze`. -/
  | snoozeLook (i : ℕ)
  /-- `extend_by`. -/
  | snoozeExtend (i : ℕ)
  /-- `handle_snooze` schedules the edit of the old card and the repost. -/
  | snoozeSchedule (i j : ℕ)
  /-- `_snooze_repost` wakes up and looks the id up. -/
  | repostWakes (j : ℕ)
  /-- The new card is posted. -/
  | repostPosts (j : ℕ) (card : CardId)
  /-- Sending the new card raises. -/
  | repostFails (j : ℕ)
  /-- `_snooze_repost` stores the new handle, if the object is still pending. -/
  | repostStores (j : ℕ)
  /-- `_snooze_repost` is cancelled by the shutdown. -/
  | repostCancelled (j : ℕ)
  /-- A scheduled `transport.update` runs, and succeeds or fails. -/
  | update (card : CardId) (ok : Bool)
  /-- `stop`: `cancel_all` takes the objects and clears the table. -/
  | stop
  /-- `cancel_all` writes a response. -/
  | sweepWrite
  /-- `cancel_all` sets an event. -/
  | sweepSet
  /-- `cancel_all` returns. -/
  | sweepReturn
  /-- The HTTP server is shut down. -/
  | closeServer

/-! ### The transition function -/

/-- `_reply_index` keeps the newest entries only. -/
def trimIndex (index : List (CardId × String)) : List (CardId × String) :=
  index.drop (index.length - 512)

namespace State

variable (s : State)

/-- A card for call `c` goes live. -/
def postCard (c : CallId) (card : CardId) (requestId : String) : State :=
  { s.setCard card ⟨c, true⟩ with
    replyIndex := trimIndex (s.replyIndex ++ [(card, requestId)]) }

@[simp] theorem postCard_cards_self (c : CallId) (m : CardId) (requestId : String) :
    (s.postCard c m requestId).cards m = some ⟨c, true⟩ := by
  simp [postCard, setCard]

theorem postCard_cards_ne (c : CallId) {m m₀ : CardId} (requestId : String) (h : m ≠ m₀) :
    (s.postCard c m₀ requestId).cards m = s.cards m := by
  simp [postCard, setCard, h]

/-- `_dispatch_inbound_reply`, up to the first access to the approval table. -/
def dispatch (i : ℕ) (reply : InboundReply) : State :=
  match reply.action with
  | .details => s
  | .snooze => s.setSnooze i ⟨reply.requestId, .looking⟩
  | action =>
    if s.bus reply.requestId then s
    else match actionToDecision action with
      | none => s
      | some decision => s.setResolve i
          { requestId := reply.requestId,
            response := ⟨decision, reply.requestId, reply.responder, reply.comment⟩,
            origin := .listener reply, phase := .looking }

/-- `self._pending.pop(req.request_id, None)` on the way out with `r`, and the edit
of the card on the path through `wait`. -/
def returnFrom (c : CallId) (k : Call) (r : ApprovalResponse) (edits : List CardId) : State :=
  { s.setCall c { k with phase := .returned r } with
    table := s.table.erase k.request.requestId, updates := s.updates ++ edits }

end State

/-- The cards `handle_approval` schedules an edit of before it returns `r`. -/
def editsOf (k : Call) (r : ApprovalResponse) : List CardId :=
  if stripsCard r then k.pending.handle.toList else []

/-- The transition function. -/
def step (cfg : Config) (s : State) : Label → Option State
  | .tick t => if s.now ≤ t then some { s with now := t } else none
  | .callback uid data =>
    if uid ∈ cfg.allowedUserIds then
      match decodeCallback data with
      | none => some s
      | some (action, requestId) => some { s with
          inbound := s.inbound ++ [⟨requestId, action, s!"telegram:{uid}", ""⟩] }
    else some s
  | .replyMessage uid messageId text =>
    match s.replyIndex.lookup messageId with
    | none => some s
    | some requestId =>
      if uid ∈ cfg.allowedUserIds ∧ requestId ≠ "" ∧ text ≠ "" then
        some { s with
          inbound := s.inbound ++ [⟨requestId, .comment, s!"telegram:{uid}", text⟩] }
      else some s
  | .listen i =>
    match s.inbound with
    | [] => none
    | reply :: rest =>
      if s.resolves i = none ∧ s.snoozes i = none then
        some ({ s with inbound := rest }.dispatch i reply) else none
  | .bus requestId pending => some { s with bus := Function.update s.bus requestId pending }
  | .postApproval c ctx postedAt request =>
    if s.stop = .closed ∨ s.calls c ≠ none ∨ s.now < postedAt then none
    else match ctx with
      | none => some s
      | some _ => some (s.setCall c
          { request, phase := .accepted, pending := .make s.now request, send := .idle,
            postedAt, builtAt := s.now, snoozedAt := [] })
  | .postReply i ctx response =>
    if s.stop = .closed ∨ s.resolves i ≠ none then none
    else match ctx with
      | none => some s
      | some ctx =>
        if response.requestId = "" then some s
        else some (s.setResolve i
          { requestId := response.requestId, response, origin := .http ctx, phase := .looking })
  | .move c m => (s.calls c).bind fun k => (k.move s.now m).map (s.setCall c)
  | .register c => (s.calls c).bind fun k =>
    if k.phase = .built then
      some { s.setCall c { k with phase := .sending s.now, send := .inFlight } with
        table := s.table.insert k.request.requestId c }
    else none
  | .leave c => (s.calls c).bind fun k =>
    match k.phase with
    | .failing message => some (s.returnFrom c k (sendFailedResponse k.request message) [])
    | .leaving r => some (s.returnFrom c k r (editsOf k r))
    | _ => none
  | .sendPosts c card => (s.calls c).bind fun k =>
    if k.send = .inFlight ∧ s.cards card = none then
      some ((s.setCall c { k with send := .posted card }).postCard c card k.request.requestId)
    else none
  | .sendFails c message => (s.calls c).bind fun k =>
    if k.send = .inFlight then some (s.setCall c { k with send := .failed message }) else none
  | .look i => (s.resolves i).bind fun r =>
    if r.phase = .looking then
      some (s.setResolve i { r with phase :=
        (match s.table.lookup r.requestId with
        | some c => .holding c
        | none => .done none) })
    else none
  | .write i => (s.resolves i).bind fun r =>
    match r.phase with
    | .holding c =>
      some ((s.setResolve i { r with phase := .written c }).modifyPending c fun p =>
        { p with response := some r.response })
    | _ => none
  | .set i => (s.resolves i).bind fun r =>
    match r.phase with
    | .written c =>
      some ((s.setResolve i { r with phase := .done (some c) }).modifyPending c fun p =>
        { p with event := true })
    | _ => none
  | .snoozeLook i => (s.snoozes i).bind fun z =>
    if z.phase = .looking then
      some (s.setSnooze i { z with phase :=
        (match s.table.lookup z.requestId with
        | some c => .extending c
        | none => .done) })
    else none
  | .snoozeExtend i => (s.snoozes i).bind fun z =>
    match z.phase with
    | .extending c => (s.calls c).map fun k =>
        (s.setCall c { k with
          pending := k.pending.extendBy s.now (snoozeSeconds + 30),
          snoozedAt := k.snoozedAt ++ [s.now] }).setSnooze i { z with phase := .scheduling c }
    | _ => none
  | .snoozeSchedule i j => (s.snoozes i).bind fun z =>
    match z.phase with
    | .scheduling c => (s.calls c).bind fun k =>
        if s.reposts j = none then
          some (({ s with updates := s.updates ++ k.pending.handle.toList }.setRepost j
            ⟨z.requestId, .sleeping (s.now + snoozeSeconds)⟩).setSnooze i
            { z with phase := .done })
        else none
    | _ => none
  | .repostWakes j => (s.reposts j).bind fun q =>
    match q.phase with
    | .sleeping till =>
      if till ≤ s.now then
        some (s.setRepost j { q with phase :=
          (match s.table.lookup q.requestId with
          | some c => .sending c
          | none => .done) })
      else none
    | _ => none
  | .repostPosts j card => (s.reposts j).bind fun q =>
    match q.phase with
    | .sending c =>
      if s.cards card = none then
        some ((s.setRepost j { q with phase := .posted c card }).postCard c card q.requestId)
      else none
    | _ => none
  | .repostFails j => (s.reposts j).bind fun q =>
    match q.phase with
    | .sending _ => some (s.setRepost j { q with phase := .done })
    | _ => none
  | .repostStores j => (s.reposts j).bind fun q =>
    match q.phase with
    | .posted c card =>
      let s' := s.setRepost j { q with phase := .done }
      if s.table.lookup q.requestId = some c then
        some (s'.modifyPending c fun p => { p with handle := some card })
      else some s'
    | _ => none
  | .repostCancelled j => (s.reposts j).bind fun q =>
    if s.stop ≠ .running then some (s.setRepost j { q with phase := .done }) else none
  | .update card ok =>
    if card ∈ s.updates then
      let s := { s with updates := s.updates.erase card }
      match ok, s.cards card with
      | true, some d => some (s.setCard card { d with live := false })
      | _, _ => some s
    else none
  | .stop =>
    if s.stop = .running then
      some { s with table := ∅, stop := .sweeping (s.table.entries.map Sigma.snd) }
    else none
  | .sweepWrite =>
    match s.stop with
    | .sweeping (c :: todo) =>
      some ({ s with stop := .setting c todo }.modifyPending c fun p =>
        { p with response := some (shutdownResponse p.request.requestId) })
    | _ => none
  | .sweepSet =>
    match s.stop with
    | .setting c todo =>
      some ({ s with stop := .sweeping todo }.modifyPending c fun p => { p with event := true })
    | _ => none
  | .sweepReturn => if s.stop = .sweeping [] then some { s with stop := .swept } else none
  | .closeServer => if s.stop = .swept then some { s with stop := .closed } else none

/-! ### What a step can do -/

/-- The events a daemon may turn down: a refused tap, an ignored message, a `401`
or a `400`. -/
def Label.Refusable : Label → Prop
  | .callback .. => True
  | .replyMessage .. => True
  | .postApproval .. => True
  | .postReply .. => True
  | _ => False

/-- The steps of `OtamanBridge.Approval.step`, with their guards. -/
inductive Step (cfg : Config) (s : State) : Label → State → Prop
  | silent {l : Label} (hl : l.Refusable) : Step cfg s l s
  | tick {t : Seconds} (ht : s.now ≤ t) : Step cfg s (.tick t) { s with now := t }
  | callback {uid data action requestId} (hu : uid ∈ cfg.allowedUserIds)
      (hd : decodeCallback data = some (action, requestId)) :
      Step cfg s (.callback uid data) { s with
        inbound := s.inbound ++ [⟨requestId, action, s!"telegram:{uid}", ""⟩] }
  | replyMessage {uid messageId text requestId} (hu : uid ∈ cfg.allowedUserIds) :
      Step cfg s (.replyMessage uid messageId text) { s with
        inbound := s.inbound ++ [⟨requestId, .comment, s!"telegram:{uid}", text⟩] }
  | ignored {i reply rest} (hq : s.inbound = reply :: rest) :
      Step cfg s (.listen i) { s with inbound := rest }
  | snoozed {i reply rest} (hq : s.inbound = reply :: rest) (hi : s.snoozes i = none) :
      Step cfg s (.listen i)
        ({ s with inbound := rest }.setSnooze i ⟨reply.requestId, .looking⟩)
  | decided {i reply rest decision} (hq : s.inbound = reply :: rest) (hi : s.resolves i = none)
      (ha : actionToDecision reply.action = some decision) (hb : s.bus reply.requestId = false) :
      Step cfg s (.listen i) ({ s with inbound := rest }.setResolve i
        { requestId := reply.requestId,
          response := ⟨decision, reply.requestId, reply.responder, reply.comment⟩,
          origin := .listener reply, phase := .looking })
  | bus {requestId pending} :
      Step cfg s (.bus requestId pending) { s with bus := Function.update s.bus requestId pending }
  | postApproval {c ctx postedAt request} (hs : s.stop ≠ .closed) (hc : s.calls c = none)
      (hp : postedAt ≤ s.now) :
      Step cfg s (.postApproval c (some ctx) postedAt request) (s.setCall c
        { request, phase := .accepted, pending := .make s.now request, send := .idle,
          postedAt, builtAt := s.now, snoozedAt := [] })
  | postReply {i ctx response} (hs : s.stop ≠ .closed) (hi : s.resolves i = none) :
      Step cfg s (.postReply i (some ctx) response) (s.setResolve i
        { requestId := response.requestId, response, origin := .http ctx, phase := .looking })
  | move {c k m k'} (hk : s.calls c = some k) (hm : k.Moves s.now m k') :
      Step cfg s (.move c m) (s.setCall c k')
  | register {c k} (hk : s.calls c = some k) (hp : k.phase = .built) :
      Step cfg s (.register c) {
        s.setCall c { k with phase := .sending s.now, send := .inFlight } with
        table := s.table.insert k.request.requestId c }
  | leaveFailing {c k message} (hk : s.calls c = some k) (hp : k.phase = .failing message) :
      Step cfg s (.leave c) (s.returnFrom c k (sendFailedResponse k.request message) [])
  | leaveAnswered {c k r} (hk : s.calls c = some k) (hp : k.phase = .leaving r) :
      Step cfg s (.leave c) (s.returnFrom c k r (editsOf k r))
  | sendPosts {c k card} (hk : s.calls c = some k) (hs : k.send = .inFlight)
      (hc : s.cards card = none) :
      Step cfg s (.sendPosts c card)
        ((s.setCall c { k with send := .posted card }).postCard c card k.request.requestId)
  | sendFails {c k message} (hk : s.calls c = some k) (hs : k.send = .inFlight) :
      Step cfg s (.sendFails c message) (s.setCall c { k with send := .failed message })
  | lookHit {i r c} (hr : s.resolves i = some r) (hp : r.phase = .looking)
      (hl : s.table.lookup r.requestId = some c) :
      Step cfg s (.look i) (s.setResolve i { r with phase := .holding c })
  | lookMiss {i r} (hr : s.resolves i = some r) (hp : r.phase = .looking)
      (hl : s.table.lookup r.requestId = none) :
      Step cfg s (.look i) (s.setResolve i { r with phase := .done none })
  | write {i r c} (hr : s.resolves i = some r) (hp : r.phase = .holding c) :
      Step cfg s (.write i) ((s.setResolve i { r with phase := .written c }).modifyPending c
        fun p => { p with response := some r.response })
  | set {i r c} (hr : s.resolves i = some r) (hp : r.phase = .written c) :
      Step cfg s (.set i) ((s.setResolve i { r with phase := .done (some c) }).modifyPending c
        fun p => { p with event := true })
  | snoozeHit {i z c} (hz : s.snoozes i = some z) (hp : z.phase = .looking)
      (hl : s.table.lookup z.requestId = some c) :
      Step cfg s (.snoozeLook i) (s.setSnooze i { z with phase := .extending c })
  | snoozeMiss {i z} (hz : s.snoozes i = some z) (hp : z.phase = .looking)
      (hl : s.table.lookup z.requestId = none) :
      Step cfg s (.snoozeLook i) (s.setSnooze i { z with phase := .done })
  | snoozeExtend {i z c k} (hz : s.snoozes i = some z) (hp : z.phase = .extending c)
      (hk : s.calls c = some k) :
      Step cfg s (.snoozeExtend i) ((s.setCall c { k with
        pending := k.pending.extendBy s.now (snoozeSeconds + 30),
        snoozedAt := k.snoozedAt ++ [s.now] }).setSnooze i { z with phase := .scheduling c })
  | snoozeSchedule {i j z c k} (hz : s.snoozes i = some z) (hp : z.phase = .scheduling c)
      (hk : s.calls c = some k) (hj : s.reposts j = none) :
      Step cfg s (.snoozeSchedule i j)
        (({ s with updates := s.updates ++ k.pending.handle.toList }.setRepost j
          ⟨z.requestId, .sleeping (s.now + snoozeSeconds)⟩).setSnooze i
          { z with phase := .done })
  | repostHit {j q till c} (hq : s.reposts j = some q) (hp : q.phase = .sleeping till)
      (ht : till ≤ s.now) (hl : s.table.lookup q.requestId = some c) :
      Step cfg s (.repostWakes j) (s.setRepost j { q with phase := .sending c })
  | repostMiss {j q till} (hq : s.reposts j = some q) (hp : q.phase = .sleeping till)
      (ht : till ≤ s.now) (hl : s.table.lookup q.requestId = none) :
      Step cfg s (.repostWakes j) (s.setRepost j { q with phase := .done })
  | repostPosts {j q c card} (hq : s.reposts j = some q) (hp : q.phase = .sending c)
      (hc : s.cards card = none) :
      Step cfg s (.repostPosts j card)
        ((s.setRepost j { q with phase := .posted c card }).postCard c card q.requestId)
  | repostFails {j q c} (hq : s.reposts j = some q) (hp : q.phase = .sending c) :
      Step cfg s (.repostFails j) (s.setRepost j { q with phase := .done })
  | repostStores {j q c card} (hq : s.reposts j = some q) (hp : q.phase = .posted c card)
      (hl : s.table.lookup q.requestId = some c) :
      Step cfg s (.repostStores j) ((s.setRepost j { q with phase := .done }).modifyPending c
        fun p => { p with handle := some card })
  | repostDrops {j q c card} (hq : s.reposts j = some q) (hp : q.phase = .posted c card)
      (hl : s.table.lookup q.requestId ≠ some c) :
      Step cfg s (.repostStores j) (s.setRepost j { q with phase := .done })
  | repostCancelled {j q} (hq : s.reposts j = some q) (hs : s.stop ≠ .running) :
      Step cfg s (.repostCancelled j) (s.setRepost j { q with phase := .done })
  | updated {card d} (hu : card ∈ s.updates) (hd : s.cards card = some d) :
      Step cfg s (.update card true)
        ({ s with updates := s.updates.erase card }.setCard card { d with live := false })
  | updateLost {card ok} (hu : card ∈ s.updates) (hd : ok = true → s.cards card = none) :
      Step cfg s (.update card ok) { s with updates := s.updates.erase card }
  | stop (hs : s.stop = .running) :
      Step cfg s .stop
        { s with table := ∅, stop := .sweeping (s.table.entries.map Sigma.snd) }
  | sweepWrite {c todo} (hs : s.stop = .sweeping (c :: todo)) :
      Step cfg s .sweepWrite ({ s with stop := .setting c todo }.modifyPending c fun p =>
        { p with response := some (shutdownResponse p.request.requestId) })
  | sweepSet {c todo} (hs : s.stop = .setting c todo) :
      Step cfg s .sweepSet
        ({ s with stop := .sweeping todo }.modifyPending c fun p => { p with event := true })
  | sweepReturn (hs : s.stop = .sweeping []) : Step cfg s .sweepReturn { s with stop := .swept }
  | closeServer (hs : s.stop = .swept) : Step cfg s .closeServer { s with stop := .closed }

/-- **Every step the transition function takes is one of these.** -/
theorem Step.of_step {cfg : Config} {s s' : State} {l : Label} (h : step cfg s l = some s') :
    Step cfg s l s' := by
  cases l with
  | tick t =>
    obtain ⟨ht, rfl⟩ := by simpa [step] using h
    exact .tick ht
  | callback uid data =>
    simp only [step] at h
    split at h
    · next hu =>
      split at h <;> obtain rfl := Option.some.inj h
      · exact .silent trivial
      · next hd => exact .callback hu hd
    · obtain rfl := Option.some.inj h
      exact .silent trivial
  | replyMessage uid messageId text =>
    simp only [step] at h
    split at h
    · obtain rfl := Option.some.inj h
      exact .silent trivial
    · split at h <;> obtain rfl := Option.some.inj h
      · next hu => exact .replyMessage hu.1
      · exact .silent trivial
  | listen i =>
    simp only [step] at h
    split at h
    · cases h
    · next reply rest hq =>
      split at h
      · next hi =>
        obtain rfl := Option.some.inj h
        unfold State.dispatch
        split
        · exact .ignored hq
        · exact .snoozed hq hi.2
        · split
          · exact .ignored hq
          · next hb =>
            split
            · exact .ignored hq
            · next ha => exact .decided hq hi.1 ha (by simpa using hb)
      · cases h
  | bus requestId pending =>
    obtain rfl := Option.some.inj h
    exact .bus
  | postApproval c ctx postedAt request =>
    simp only [step] at h
    split at h
    · cases h
    · next hg =>
      simp only [not_or, not_not] at hg
      split at h <;> obtain rfl := Option.some.inj h
      · exact .silent trivial
      · exact .postApproval hg.1 hg.2.1 (Rat.not_lt.mp hg.2.2)
  | postReply i ctx response =>
    simp only [step] at h
    split at h
    · cases h
    · next hg =>
      simp only [not_or, not_not] at hg
      split at h
      · obtain rfl := Option.some.inj h
        exact .silent trivial
      · split at h <;> obtain rfl := Option.some.inj h
        · exact .silent trivial
        · exact .postReply hg.1 hg.2
  | move c m =>
    obtain ⟨k, hk, k', hm, rfl⟩ := by simpa [step, Option.bind_eq_some_iff] using h
    exact .move hk (Call.moves_of_move hm)
  | register c =>
    obtain ⟨k, hk, hp, rfl⟩ := by simpa [step, Option.bind_eq_some_iff] using h
    exact .register hk hp
  | leave c =>
    obtain ⟨k, hk, h⟩ := by simpa [step, Option.bind_eq_some_iff] using h
    split at h
    · next hp =>
      obtain rfl := Option.some.inj h
      exact .leaveFailing hk hp
    · next hp =>
      obtain rfl := Option.some.inj h
      exact .leaveAnswered hk hp
    · cases h
  | sendPosts c card =>
    obtain ⟨k, hk, ⟨hs, hc⟩, rfl⟩ := by simpa [step, Option.bind_eq_some_iff] using h
    exact .sendPosts hk hs hc
  | sendFails c message =>
    obtain ⟨k, hk, hs, rfl⟩ := by simpa [step, Option.bind_eq_some_iff] using h
    exact .sendFails hk hs
  | look i =>
    obtain ⟨r, hr, hp, rfl⟩ := by simpa [step, Option.bind_eq_some_iff] using h
    split
    · next hl => exact .lookHit hr hp hl
    · next hl => exact .lookMiss hr hp hl
  | write i =>
    obtain ⟨r, hr, h⟩ := by simpa [step, Option.bind_eq_some_iff] using h
    split at h
    · next hp =>
      obtain rfl := Option.some.inj h
      exact .write hr hp
    · cases h
  | set i =>
    obtain ⟨r, hr, h⟩ := by simpa [step, Option.bind_eq_some_iff] using h
    split at h
    · next hp =>
      obtain rfl := Option.some.inj h
      exact .set hr hp
    · cases h
  | snoozeLook i =>
    obtain ⟨z, hz, hp, rfl⟩ := by simpa [step, Option.bind_eq_some_iff] using h
    split
    · next hl => exact .snoozeHit hz hp hl
    · next hl => exact .snoozeMiss hz hp hl
  | snoozeExtend i =>
    obtain ⟨z, hz, h⟩ := by simpa [step, Option.bind_eq_some_iff] using h
    split at h
    · next hp =>
      obtain ⟨k, hk, rfl⟩ := by simpa using h
      exact .snoozeExtend hz hp hk
    · cases h
  | snoozeSchedule i j =>
    obtain ⟨z, hz, h⟩ := by simpa [step, Option.bind_eq_some_iff] using h
    split at h
    · next hp =>
      obtain ⟨k, hk, hj, rfl⟩ := by simpa [Option.bind_eq_some_iff] using h
      exact .snoozeSchedule hz hp hk hj
    · cases h
  | repostWakes j =>
    obtain ⟨q, hq, h⟩ := by simpa [step, Option.bind_eq_some_iff] using h
    split at h
    · next hp =>
      obtain ⟨ht, rfl⟩ := by simpa using h
      split
      · next hl => exact .repostHit hq hp ht hl
      · next hl => exact .repostMiss hq hp ht hl
    · cases h
  | repostPosts j card =>
    obtain ⟨q, hq, h⟩ := by simpa [step, Option.bind_eq_some_iff] using h
    split at h
    · next hp =>
      obtain ⟨hc, rfl⟩ := by simpa using h
      exact .repostPosts hq hp hc
    · cases h
  | repostFails j =>
    obtain ⟨q, hq, h⟩ := by simpa [step, Option.bind_eq_some_iff] using h
    split at h
    · next hp =>
      obtain rfl := Option.some.inj h
      exact .repostFails hq hp
    · cases h
  | repostStores j =>
    obtain ⟨q, hq, h⟩ := by simpa [step, Option.bind_eq_some_iff] using h
    split at h
    · next hp =>
      split at h
      · next hl =>
        obtain rfl := Option.some.inj h
        exact .repostStores hq hp hl
      · next hl =>
        obtain rfl := Option.some.inj h
        exact .repostDrops hq hp hl
    · cases h
  | repostCancelled j =>
    obtain ⟨q, hq, hs, rfl⟩ := by simpa [step, Option.bind_eq_some_iff] using h
    exact .repostCancelled hq hs
  | update card ok =>
    simp only [step] at h
    split at h
    · next hu =>
      split at h
      · next hd =>
        obtain rfl := Option.some.inj h
        exact .updated hu hd
      · next hno =>
        obtain rfl := Option.some.inj h
        refine .updateLost hu fun hok => ?_
        cases hd : s.cards card with
        | none => rfl
        | some d => exact absurd hd (hno d hok)
    · cases h
  | stop =>
    obtain ⟨hs, rfl⟩ := by simpa [step] using h
    exact .stop hs
  | sweepWrite =>
    simp only [step] at h
    split at h
    · next hs =>
      obtain rfl := Option.some.inj h
      exact .sweepWrite hs
    · cases h
  | sweepSet =>
    simp only [step] at h
    split at h
    · next hs =>
      obtain rfl := Option.some.inj h
      exact .sweepSet hs
    · cases h
  | sweepReturn =>
    obtain ⟨hs, rfl⟩ := by simpa [step] using h
    exact .sweepReturn hs
  | closeServer =>
    obtain ⟨hs, rfl⟩ := by simpa [step] using h
    exact .closeServer hs

/-- A run of one daemon: what it did, oldest first, and where it stands. -/
abbrev Reaches (cfg : Config) (ls : List Label) (s : State) : Prop :=
  Lts.Run (Lts.ofStep (step cfg)) State.init ls s

end Approval

end OtamanBridge
