import OtamanBridge.Permission.System

/-!
# Who lets a tool be called

A tool is called without the prompt of Claude Code if the hook prints an allow, and is not called
if it prints a deny. This module follows such an output back, through the body of the response,
the thread of `handle_approval`, the table, the listener and the bot, to the tap or the post that
decided it (`OtamanBridge.Permission.permitted_of_run`). What can go wrong on the way is a mix-up
of sessions: a decision on one call is to decide no other, and the card somebody has tapped on is
to show the call he decides. This is a matter of the request ids, which are drawn at random
(`OtamanBridge.Permission.Distinct`).
-/

namespace OtamanBridge

namespace Permission

open Py
open Hook (Environment Endpoint Exit Output)
open Telegram (Payload)

variable {H : Type*}

/-! ### Ids -/

/-- The id that a step gives to a request. -/
def Label.issued : Label H → Option String
  | .register _ now token _ => some (idString (Telegram.newRequestId now token))
  | _ => none

/-- It is the id of the request. -/
theorem issued_register (h : H) (payload : Payload) (now : Telegram.Now) (token : BitVec 32)
    (clock : Seconds) : (Label.register h now token clock).issued =
      some (idOf (payload.request now token)) := rfl

/-- The ids that were given, the oldest first. -/
def issued (ls : List (Label H)) : List String := ls.filterMap Label.issued

/-- The id on a card of the bus. -/
def Label.busId : Label H → Option String
  | .busCard _ request => some (idOf request)
  | _ => none

/-- The ids on the cards of the bus. -/
def busIds (ls : List (Label H)) : List String := ls.filterMap Label.busId

/-- **No id is given twice**, and none is the one of a card of the bus. -/
structure Distinct (ls : List (Label H)) : Prop where
  nodup : (issued ls).Nodup
  disjoint : List.Disjoint (issued ls) (busIds ls)

variable {ls : List (Label H)} {l : Label H}

theorem issued_snoc : issued (ls ++ [l]) = issued ls ++ l.issued.toList := by
  rw [issued, List.filterMap_append]
  cases hl : l.issued <;> simp [hl, issued]

theorem busIds_snoc : busIds (ls ++ [l]) = busIds ls ++ l.busId.toList := by
  rw [busIds, List.filterMap_append]
  cases hl : l.busId <;> simp [hl, busIds]

theorem issued_subset : issued ls ⊆ issued (ls ++ [l]) := by
  rw [issued_snoc]
  exact List.subset_append_left _ _

theorem busIds_subset : busIds ls ⊆ busIds (ls ++ [l]) := by
  rw [busIds_snoc]
  exact List.subset_append_left _ _

theorem Distinct.init (h : Distinct (ls ++ [l])) : Distinct ls where
  nodup := by
    have hnodup := h.nodup
    rw [issued_snoc] at hnodup
    exact hnodup.of_append_left
  disjoint _ hid hbus := h.disjoint (issued_subset hid) (busIds_subset hbus)

/-- A new id is one that nobody has had. -/
theorem Distinct.notMem (h : Distinct (ls ++ [l])) {id : String} (hl : l.issued = some id) :
    id ∉ issued ls := by
  have hnodup := h.nodup
  rw [issued_snoc, hl, Option.toList_some] at hnodup
  exact fun hmem => (List.disjoint_of_nodup_append hnodup) hmem (List.mem_singleton_self id)

/-! ### What a step does -/

section Steps

variable [DecidableEq H] (cfg : Config) (s : State H)

/-- What a step does, with what it asks for. -/
inductive Step : Label H → State H → Prop
  | start {h : H} {env : Environment} (hnew : s.sessions h = none) :
      Step (.start h env) (s.put h { env, result := early cfg.py env })
  | register {h : H} {now : Telegram.Now} {token : BitVec 32} {clock : Seconds} {x : Session}
      {endpoint : Endpoint} {payload : Payload} (hx : s.sessions h = some x)
      (hcall : x.call = .unread) (hprepare : prepare cfg.py x.env = .ok (endpoint, payload)) :
      Step (.register h now token clock)
        ((s.tell cfg (.opened (approvalOf (payload.request now token)) (payload.request now token)
          clock)).put h { x with request := some (payload.request now token), call := .sending })
  | card {h : H} {messageId : ℤ} {request : Telegram.ApprovalRequest}
      (hrequest : (s.sessions h).bind Session.request = some request) :
      Step (.card h messageId) (s.send cfg messageId request)
  | busCard {messageId : ℤ} {request : Telegram.ApprovalRequest} :
      Step (.busCard messageId request) (s.send cfg messageId request)
  | sent {h : H} {handle : Approval.CardId} {x : Session} {request : Telegram.ApprovalRequest}
      (hx : s.sessions h = some x) (hcall : x.call = .sending)
      (hrequest : x.request = some request) :
      Step (.sent h handle)
        ((s.tell cfg (.carded (idOf request) handle)).put h { x with call := .waiting })
  | unsent {h : H} {message : String} {x : Session} {request : Telegram.ApprovalRequest}
      (hx : s.sessions h = some x) (hcall : x.call = .sending)
      (hrequest : x.request = some request) :
      Step (.unsent h message)
        ((s.tell cfg (.unsent (approvalOf request) message)).put h
          { x with call := .returned (Approval.sendFailedResponse (approvalOf request) message) })
  | waits {h : H} {now : Seconds} {updates : Bool} {request : Telegram.ApprovalRequest} :
      Step (.look h now updates) (s.tell cfg (.waited (idOf request) now updates))
  | returns {h : H} {now : Seconds} {updates : Bool} {x : Session}
      {request : Telegram.ApprovalRequest} {response : ApprovalResponse}
      (hx : s.sessions h = some x) (hcall : x.call = .waiting) (hrequest : x.request = some request)
      (hreturned : returnedOf (Telegram.Inbound.step cfg.bot s.bot
        (.waited (idOf request) now updates)).2 = some response) :
      Step (.look h now updates)
        ((s.tell cfg (.waited (idOf request) now updates)).put h
          { x with call := .returned response })
  | receive {h : H} {x : Session} {response : ApprovalResponse} (hx : s.sessions h = some x)
      (hresult : x.result = none) (hcall : x.call = .returned response) :
      Step (.receive h) (finish cfg s h x (.response (some (cfg.dumps (toDict response)))))
  | lose {h : H} {caught : Bool} {x : Session} (hx : s.sessions h = some x)
      (hresult : x.result = none) :
      Step (.lose h caught) (finish cfg s h x (if caught then .failed else .raised))
  | bot {l : Telegram.Inbound.Label} (hl : isOthers l) : Step (.bot l) (s.tell cfg l)

variable {cfg s} {s' : State H}

omit [DecidableEq H] in
theorem at?_eq_some {h : H} {call : Call} {x : Session} {request : Telegram.ApprovalRequest}
    (hat : s.at? h call = some (x, request)) :
    s.sessions h = some x ∧ x.call = call ∧ x.request = some request := by
  unfold State.at? at hat
  split at hat
  · cases hat
  next y hy =>
    split_ifs at hat with hcall
    obtain ⟨request', hrequest, heq⟩ := Option.map_eq_some_iff.mp hat
    obtain ⟨rfl, rfl⟩ := Prod.mk.inj heq
    exact ⟨hy, hcall, hrequest⟩

theorem step_register {h : H} {now : Telegram.Now} {token : BitVec 32} {clock : Seconds}
    (hstep : register cfg s h now token clock = some s') :
    Step cfg s (.register h now token clock) s' := by
  unfold register at hstep
  split at hstep
  · cases hstep
  next x hx =>
    split at hstep
    next endpoint payload hcall hprepare =>
      obtain rfl := Option.some.inj hstep
      exact .register hx hcall hprepare
    · cases hstep

theorem step_look {h : H} {now : Seconds} {updates : Bool}
    (hstep : look cfg s h now updates = some s') : Step cfg s (.look h now updates) s' := by
  unfold look at hstep
  split at hstep
  · cases hstep
  next x request hat =>
    obtain ⟨hx, hcall, hrequest⟩ := at?_eq_some hat
    dsimp only at hstep
    split at hstep
    · obtain rfl := Option.some.inj hstep
      exact .waits
    next response hreturned =>
      obtain rfl := Option.some.inj hstep
      exact .returns hx hcall hrequest hreturned

theorem step_receive {h : H} (hstep : receive cfg s h = some s') :
    Step cfg s (.receive h) s' := by
  unfold receive at hstep
  split at hstep
  · cases hstep
  next x hx =>
    split at hstep
    next response hresult hcall =>
      obtain rfl := Option.some.inj hstep
      exact .receive hx hresult hcall
    · cases hstep

theorem step_lose {h : H} {caught : Bool} (hstep : lose cfg s h caught = some s') :
    Step cfg s (.lose h caught) s' := by
  unfold lose at hstep
  split at hstep
  · cases hstep
  next x hx =>
    split at hstep
    next hresult =>
      obtain rfl := Option.some.inj hstep
      exact .lose hx hresult
    · cases hstep

/-- **What a step can do.** -/
theorem Step.of_step (hstep : step cfg s l = some s') : Step cfg s l s' := by
  cases l with
  | start h env =>
    dsimp only [Permission.step] at hstep
    split at hstep
    next hnew =>
      obtain rfl := Option.some.inj hstep
      exact .start hnew
    · cases hstep
  | register h now token clock => exact step_register hstep
  | card h messageId =>
    dsimp only [Permission.step] at hstep
    split at hstep
    · cases hstep
    next request hrequest =>
      obtain rfl := Option.some.inj hstep
      exact .card hrequest
  | busCard messageId request =>
    obtain rfl := Option.some.inj hstep
    exact .busCard
  | sent h handle =>
    dsimp only [Permission.step] at hstep
    split at hstep
    · cases hstep
    next x request hat =>
      obtain ⟨hx, hcall, hrequest⟩ := at?_eq_some hat
      obtain rfl := Option.some.inj hstep
      exact .sent hx hcall hrequest
  | unsent h message =>
    dsimp only [Permission.step] at hstep
    split at hstep
    · cases hstep
    next x request hat =>
      obtain ⟨hx, hcall, hrequest⟩ := at?_eq_some hat
      obtain rfl := Option.some.inj hstep
      exact .unsent hx hcall hrequest
  | look h now updates => exact step_look hstep
  | receive h => exact step_receive hstep
  | lose h caught => exact step_lose hstep
  | bot l =>
    dsimp only [Permission.step] at hstep
    split_ifs at hstep with hl
    obtain rfl := Option.some.inj hstep
    exact .bot hl

end Steps

/-! ### What the hook makes of a response -/

/-- The outputs that decide. -/
def decided : List Text := [lit "allow", lit "deny"]

/-- **The hook reads what the daemon wrote**: `json.loads` undoes `json.dumps`. -/
def Relays (cfg : Config) : Prop :=
  ∀ response, cfg.py.loads (cfg.dumps (toDict response)) = .ok (toDict response)

/-- **The hook in two halves**: the request, and what comes of the exchange. -/
theorem main_exchanged (py : Hook.Python) (env : Environment) (exchange : Hook.Exchange) :
    Hook.main py (exchanged env exchange) =
      prepare py env >>= fun _ => Hook.respond py exchange := by
  simp only [Hook.main, prepare, bind_assoc, pure_bind]
  rfl

variable {cfg : Config} {env : Environment} {output : Output}

/-- What is printed has come of the exchange. -/
theorem respond_of_main {exchange : Hook.Exchange}
    (h : Hook.main cfg.py (exchanged env exchange) = .ok output) :
    Hook.respond cfg.py exchange = .ok output := by
  rw [main_exchanged, Hook.bind_eq_ok_iff] at h
  obtain ⟨-, -, h⟩ := h
  exact h

/-- **A response is translated** to its decision. -/
theorem decision_of_respond (hrelays : Relays cfg) {response : ApprovalResponse}
    (h : Hook.respond cfg.py (.response (some (cfg.dumps (toDict response)))) = .ok output) :
    lit response.decision.toString = output.decision := by
  obtain ⟨body, items, hbody, hload, -, -, htext⟩ :=
    Hook.respond_eq_ok_iff.mp ⟨output.reason, (h : Hook.respond _ _ = _)⟩
  obtain rfl := Option.some.inj (Hook.Exchange.response.inj hbody)
  rw [hrelays response] at hload
  rw [← Except.ok.inj hload, toDict, Value.get_ofFields_cons, if_pos rfl] at htext
  exact htext

/-- Nothing is printed without a response. -/
theorem not_respond_of_lost {caught : Bool} :
    Hook.respond cfg.py (if caught then .failed else .raised) ≠ .ok output := by
  intro h
  obtain ⟨body, items, hbody, -⟩ :=
    Hook.respond_eq_ok_iff.mp ⟨output.reason, (h : Hook.respond _ _ = _)⟩
  cases caught <;> cases hbody

/-! ### The invariant -/

/-- The request is the one of what the hook has posted. -/
def Made (cfg : Config) (env : Environment) (request : Telegram.ApprovalRequest) : Prop :=
  ∃ endpoint payload now token, prepare cfg.py env = .ok (endpoint, payload) ∧
    request = payload.request now token

/-- **A session is in order**: what it has come to comes from somewhere. -/
structure Fine (cfg : Config) (ids : List String) (told : List Telegram.Inbound.Label)
    (x : Session) : Prop where
  unread : x.call = .unread → x.request = none
  made : ∀ request, x.request = some request → idOf request ∈ ids ∧ Made cfg x.env request
  answered : ∀ response, x.call = .returned response → ∃ request, x.request = some request ∧
    (lit response.decision.toString ∈ decided →
      Telegram.Inbound.Answered cfg.bot told (idOf request) response)
  ended : ∀ output, x.result = some (.ok output) → output.decision ∈ decided →
    ∃ response, x.call = .returned response ∧ lit response.decision.toString = output.decision

/-- The request of a session. -/
def State.request (s : State H) (h : H) : Option Telegram.ApprovalRequest :=
  (s.sessions h).bind Session.request

/-- **The invariant**: the sessions are in order, they have ids of their own, and so have the
cards that were sent. -/
structure Inv (cfg : Config) (ls : List (Label H)) (s : State H) : Prop where
  bot : ∃ log, Telegram.Inbound.Inv cfg.bot s.told log s.bot
  fine : ∀ h x, s.sessions h = some x → Fine cfg (issued ls) s.told x
  own : ∀ h h' request request', s.request h = some request → s.request h' = some request' →
    idOf request = idOf request' → h = h'
  shown : ∀ card ∈ s.shown, (∃ h, s.request h = some card.2) ∨ idOf card.2 ∈ busIds ls

section Invariant

variable {ids ids' : List String} {told told' : List Telegram.Inbound.Label} {x : Session}
  {s : State H}

theorem Fine.mono (h : Fine cfg ids told x) (hids : ids ⊆ ids') (htold : told ⊆ told') :
    Fine cfg ids' told' x where
  unread := h.unread
  made request hrequest := (h.made request hrequest).imp_left fun hmem => hids hmem
  answered response hcall := by
    obtain ⟨request, hrequest, hanswered⟩ := h.answered response hcall
    exact ⟨request, hrequest, fun hdecided => (hanswered hdecided).mono htold⟩
  ended := h.ended

/-- A session that has not got to a response has come to no decision. -/
theorem Fine.not_ended (h : Fine cfg ids told x) (hcall : ∀ response, x.call ≠ .returned response)
    (hresult : x.result = some (.ok output)) : output.decision ∉ decided := by
  intro hdecided
  obtain ⟨response, heq, -⟩ := h.ended output hresult hdecided
  exact hcall response heq

/-- `handle_approval` goes on. -/
theorem Fine.goesOn (h : Fine cfg ids told x) (hcall : ∀ response, x.call ≠ .returned response)
    {call : Call} (hunread : call ≠ .unread) {request : Telegram.ApprovalRequest}
    (hrequest : x.request = some request)
    (hanswered : ∀ response, call = .returned response → lit response.decision.toString ∈ decided →
      Telegram.Inbound.Answered cfg.bot told (idOf request) response) :
    Fine cfg ids told { x with call } where
  unread heq := absurd heq hunread
  made := h.made
  answered response heq := ⟨request, hrequest, hanswered response heq⟩
  ended _ hresult hdecided := absurd hdecided (h.not_ended hcall hresult)

/-- The hook goes on. -/
theorem Fine.finish (h : Fine cfg ids told x) {exchange : Hook.Exchange}
    (hexchange : ∀ output, Hook.respond cfg.py exchange = .ok output →
      ∃ response, x.call = .returned response ∧
        lit response.decision.toString = output.decision) :
    Fine cfg ids told { x with
      result := some (Hook.main cfg.py (exchanged x.env exchange)) } where
  unread := h.unread
  made := h.made
  answered := h.answered
  ended output hresult _ := hexchange output (respond_of_main (Option.some.inj hresult))

theorem Inv.snoc (h : Inv cfg ls s) (l : Label H) : Inv cfg (ls ++ [l]) s where
  bot := h.bot
  fine q x hx := (h.fine q x hx).mono issued_subset (List.Subset.refl _)
  own := h.own
  shown card hcard := (h.shown card hcard).imp_right fun hmem => busIds_subset hmem

/-- **The bot and the daemon make a step.** -/
theorem Inv.tell (h : Inv cfg ls s) (l : Telegram.Inbound.Label) :
    Inv cfg ls (s.tell cfg l) where
  bot := by
    obtain ⟨log, hlog⟩ := h.bot
    exact ⟨_, hlog.step l⟩
  fine q x hx := (h.fine q x hx).mono (List.Subset.refl _) (List.subset_append_left _ _)
  own := h.own
  shown := h.shown

/-- The sending of a card leaves the sessions alone. -/
theorem State.request_send (messageId : ℤ) (request : Telegram.ApprovalRequest) :
    (s.send cfg messageId request).request = s.request := by
  funext q
  simp only [State.request, State.send, State.tell]

/-- A card is sent. -/
theorem Inv.send (h : Inv cfg ls s) {messageId : ℤ} {request : Telegram.ApprovalRequest}
    (hcard : (∃ q, s.request q = some request) ∨ idOf request ∈ busIds ls) :
    Inv cfg ls (s.send cfg messageId request) := by
  have htold := h.tell (.sent messageId (idOf request))
  refine ⟨htold.bot, htold.fine, ?_, ?_⟩
  · rw [State.request_send]
    exact h.own
  · rw [State.request_send]
    exact List.forall_mem_cons.mpr ⟨hcard, h.shown⟩

/-- What a wait gives out is returned under the id that was looked up. -/
theorem mem_of_returned_waitTurn {d : Replies.State} {id : String} {now : Seconds}
    {updates : Bool} {response : ApprovalResponse}
    (h : returnedOf ((Replies.waitTurn d id now updates).2.map Telegram.Inbound.Output.daemon) =
      some response) :
    .returned id response ∈ (Replies.waitTurn d id now updates).2 := by
  rw [Replies.waitTurn] at h ⊢
  split at h
  · cases h
  · split at h
    · cases h
    · cases h
    next response' _ =>
      obtain rfl : response' = response := Option.some.inj h
      exact List.mem_cons_self

/-- What is returned is returned under the id that was looked up. -/
theorem mem_of_returnedOf {b : Telegram.Inbound.State} {id : String} {now : Seconds}
    {updates : Bool} {response : ApprovalResponse}
    (h : returnedOf (Telegram.Inbound.step cfg.bot b (.waited id now updates)).2 = some response) :
    .daemon (.returned id response) ∈
      (Telegram.Inbound.step cfg.bot b (.waited id now updates)).2 := by
  rw [Telegram.Inbound.step, Telegram.Inbound.waited] at h ⊢
  split at h <;> exact List.mem_map_of_mem (mem_of_returned_waitTurn h)

/-- A response that decides is neither a timeout nor the prompt. -/
theorem decides_of_mem {response : ApprovalResponse}
    (h : lit response.decision.toString ∈ decided) : Telegram.Inbound.Decides response := by
  refine ⟨fun htimeout => ?_, fun hask => ?_⟩
  · rw [htimeout] at h
    exact absurd h (by decide)
  · rw [hask] at h
    exact absurd h (by decide)

/-- **What a step returns is answered**, if it decides. -/
theorem Inv.answered_of_returned (h : Inv cfg ls s) {id : String} {now : Seconds} {updates : Bool}
    {response : ApprovalResponse} (hreturned : returnedOf (Telegram.Inbound.step cfg.bot s.bot
      (.waited id now updates)).2 = some response)
    (hdecided : lit response.decision.toString ∈ decided) :
    Telegram.Inbound.Answered cfg.bot (s.told ++ [.waited id now updates]) id response := by
  obtain ⟨log, hlog⟩ := h.bot
  have hfounded : Telegram.Inbound.Founded cfg.bot (s.told ++ [.waited id now updates])
      (.returned id response) := by
    refine (hlog.step (.waited id now updates)).events _ ?_
    rw [Telegram.Inbound.outputs_append]
    exact List.mem_append_right _ (mem_of_returnedOf hreturned)
  exact hfounded (decides_of_mem hdecided)

variable [DecidableEq H]

theorem State.request_put {q h : H} : (s.put h x).request q =
    if q = h then x.request else s.request q := by
  show (Function.update s.sessions h (some x) q).bind Session.request = _
  split_ifs with heq
  · rw [heq, Function.update_self]
    rfl
  · rw [Function.update_of_ne heq]
    rfl

/-- A session goes on, and its request stays. -/
theorem Inv.put (h : Inv cfg ls s) {p : H} (hx : Fine cfg (issued ls) s.told x)
    (hsame : s.request p = x.request) : Inv cfg ls (s.put p x) := by
  have hrequest : (s.put p x).request = s.request := by
    funext q
    rw [State.request_put]
    split_ifs with heq
    · rw [heq, hsame]
    · rfl
  refine ⟨h.bot, Lts.forall_update (fun y hy => ?_) fun q y _ hy => h.fine q y hy, ?_, ?_⟩
  · obtain rfl := Option.some.inj hy
    exact hx
  · rw [hrequest]
    exact h.own
  · rw [hrequest]
    exact h.shown

/-- **A session gets a request**, with an id that nobody has had. -/
theorem Inv.putNew (h : Inv cfg ls s) {p : H} {request : Telegram.ApprovalRequest}
    (hl : l.issued = some (idOf request)) (hdistinct : Distinct (ls ++ [l]))
    (hnone : s.request p = none) (hx : Fine cfg (issued (ls ++ [l])) s.told x)
    (hrequest : x.request = some request) : Inv cfg (ls ++ [l]) (s.put p x) := by
  have hput : ∀ q r, (s.put p x).request q = some r →
      q = p ∧ r = request ∨ s.request q = some r := by
    intro q r hr
    rw [State.request_put] at hr
    split_ifs at hr with heq
    · exact .inl ⟨heq, Option.some.inj (hr.symm.trans hrequest)⟩
    · exact .inr hr
  have hfresh : ∀ q r, s.request q = some r → idOf r ≠ idOf request := by
    intro q r hr hid
    obtain ⟨y, hy, hyr⟩ := Option.bind_eq_some_iff.mp hr
    exact hdistinct.notMem hl (hid ▸ ((h.fine q y hy).made r hyr).1)
  have h' := h.snoc l
  refine ⟨h'.bot, Lts.forall_update (fun y hy => ?_) fun q y _ hy => h'.fine q y hy, ?_, ?_⟩
  · obtain rfl := Option.some.inj hy
    exact hx
  · intro q q' r r' hr hr' hid
    rcases hput q r hr with ⟨rfl, rfl⟩ | hold
    · rcases hput q' r' hr' with ⟨rfl, -⟩ | hold'
      · rfl
      · exact absurd hid.symm (hfresh q' r' hold')
    · rcases hput q' r' hr' with ⟨rfl, rfl⟩ | hold'
      · exact absurd hid (hfresh q r hold)
      · exact h.own q q' r r' hold hold' hid
  · intro card hcard
    refine (h'.shown card hcard).imp_left ?_
    rintro ⟨q, hq⟩
    refine ⟨q, ?_⟩
    rw [State.request_put]
    split_ifs with heq
    · rw [heq, hnone] at hq
      cases hq
    · exact hq

/-- **Every step keeps the invariant**, as long as the ids are distinct. -/
theorem Inv.step (hrelays : Relays cfg) (h : Inv cfg ls s) (hdistinct : Distinct (ls ++ [l]))
    {s' : State H} (hstep : Step cfg s l s') : Inv cfg (ls ++ [l]) s' := by
  have h' := h.snoc l
  have hsession : ∀ {q y}, s.sessions q = some y → s.request q = y.request := by
    intro q y hy
    rw [State.request, hy]
    rfl
  cases hstep with
  | start hnew =>
    refine h'.put ?_ (by rw [State.request, hnew]; rfl)
    refine ⟨fun _ => rfl, nofun, nofun, fun output hresult _ => ?_⟩
    unfold early at hresult
    split at hresult
    · cases hresult
    · cases hresult
  -- the one step that gives an id away: no other call has it and no bus card, by `Distinct`
  | @register p now token clock x endpoint payload hx hcall hprepare =>
    have hfine := h'.fine p x hx
    have hissued := issued_register p payload now token clock
    have hids : idOf (payload.request now token) ∈
        issued (ls ++ [.register p now token clock]) := by
      rw [issued_snoc, hissued]
      exact List.mem_append_right _ (List.mem_singleton_self _)
    refine (h.tell _).putNew hissued hdistinct ((hsession hx).trans (hfine.unread hcall)) ?_ rfl
    refine ⟨nofun, fun request hrequest => ?_, nofun, fun output hresult hdecided => ?_⟩
    · obtain rfl := Option.some.inj hrequest
      exact ⟨hids, endpoint, payload, now, token, hprepare, rfl⟩
    · exact absurd hdecided (hfine.not_ended (by simp [hcall]) hresult)
  | card hrequest => exact h'.send (.inl ⟨_, hrequest⟩)
  | busCard =>
    refine h'.send (.inr ?_)
    rw [busIds_snoc]
    exact List.mem_append_right _ (List.mem_singleton_self _)
  | @sent p handle x request hx hcall hrequest =>
    have hsame := hsession hx
    refine (h'.tell _).put ?_ hsame
    exact ((h'.tell _).fine p x hx).goesOn (by simp [hcall]) nofun hrequest nofun
  -- an `ask`, which is no decision
  | @unsent p message x request hx hcall hrequest =>
    have hsame := hsession hx
    refine (h'.tell _).put ?_ hsame
    refine ((h'.tell _).fine p x hx).goesOn (by simp [hcall]) nofun hrequest
      fun response heq hdecided => ?_
    obtain rfl := Call.returned.inj heq
    have hask : lit "ask" ∉ decided := by decide
    exact absurd hdecided hask
  | waits => exact h'.tell _
  | @returns p now updates x request response hx hcall hrequest hreturned =>
    have hsame := hsession hx
    refine (h'.tell _).put ?_ hsame
    refine ((h'.tell _).fine p x hx).goesOn (by simp [hcall]) nofun hrequest
      fun response' heq hdecided => ?_
    obtain rfl := Call.returned.inj heq
    exact h'.answered_of_returned hreturned hdecided
  | @receive p x response hx hresult hcall =>
    have hsame := hsession hx
    refine h'.put ((h'.fine p x hx).finish fun output hout => ?_) hsame
    exact ⟨response, hcall, decision_of_respond hrelays hout⟩
  | @lose p caught x hx hresult =>
    have hsame := hsession hx
    refine h'.put ((h'.fine p x hx).finish fun output hout => ?_) hsame
    exact absurd hout not_respond_of_lost
  | bot hl => exact h'.tell _

end Invariant

/-! ### The whole -/

/-- **Somebody who may has decided on this call**: the hook has posted it, the daemon has made a
request of it, and what is decided is decided on this request. No other session has its id, and
whatever card has this id shows this request. -/
structure Permitted (cfg : Config) (s : State H) (h : H) (x : Session) (decision : Text)
    (request : Telegram.ApprovalRequest) (response : ApprovalResponse) : Prop where
  requested : x.request = some request
  made : Made cfg x.env request
  answered : Telegram.Inbound.Answered cfg.bot s.told (idOf request) response
  decision : lit response.decision.toString = decision
  own : ∀ h' request', s.request h' = some request' → idOf request' = idOf request → h' = h
  shown : ∀ card ∈ s.shown, idOf card.2 = idOf request → card.2 = request

section Runs

variable [DecidableEq H] {s : State H} {files : Text → Option Text}

omit [DecidableEq H] in
theorem inv_init : Inv cfg [] (State.init files : State H) := by
  have hbot : Telegram.Inbound.Inv cfg.bot [] [] (Telegram.Inbound.init files) :=
    Telegram.Inbound.inv_run cfg.bot files []
  refine ⟨⟨[], hbot⟩, fun h x hx => ?_, fun h h' request request' hrequest => ?_,
    List.forall_mem_nil _⟩
  · exact absurd hx (by simp [State.init])
  · exact absurd hrequest (by simp [State.request, State.init])

theorem inv_of_run (hrelays : Relays cfg)
    (hrun : Lts.Run (Lts.ofStep (step cfg)) (State.init files) ls s) (hdistinct : Distinct ls) :
    Inv cfg ls s :=
  Lts.Run.inv (I := fun ls s => Distinct ls → Inv cfg ls s) (fun _ => inv_init)
    (fun _ _ _ _ _ hI hl hdistinct =>
      (hI hdistinct.init).step hrelays hdistinct (.of_step hl)) hrun hdistinct

/-- **Who lets a tool be called.** In every run in which no request id is given twice: a hook
that prints an allow or a deny has posted its call, and somebody of the allowlist has tapped on
it, or posted it with a credential that the auth chain accepts, under the request id that was
given to this call and to no other; and all the cards with this id show this call. -/
theorem permitted_of_run (hrelays : Relays cfg)
    (hrun : Lts.Run (Lts.ofStep (step cfg)) (State.init files) ls s) (hdistinct : Distinct ls)
    {h : H} {x : Session} (hx : s.sessions h = some x) (hresult : x.result = some (.ok output))
    (hdecided : output.decision ∈ decided) :
    ∃ request response, Permitted cfg s h x output.decision request response := by
  have hinv : Inv cfg ls s := inv_of_run hrelays hrun hdistinct
  have hfine := hinv.fine h x hx
  -- from the output to the response, and from there to the request
  obtain ⟨response, hcall, hdecision⟩ := hfine.ended output hresult hdecided
  obtain ⟨request, hrequest, hanswered⟩ := hfine.answered response hcall
  obtain ⟨hid, hmade⟩ := hfine.made request hrequest
  have hat : s.request h = some request := by rw [State.request, hx, Option.bind_some, hrequest]
  refine ⟨request, response, hrequest, hmade, hanswered (hdecision ▸ hdecided), hdecision, ?_, ?_⟩
  · intro h' request' hat' heq
    exact hinv.own h' h request' request hat' hat heq
  · intro card hcard heq
    rcases hinv.shown card hcard with ⟨h', hat'⟩ | hbus
    · obtain rfl := hinv.own h' h card.2 request hat' hat heq
      exact Option.some.inj (hat'.symm.trans hat)
    · exact absurd hbus (hdistinct.disjoint (heq ▸ hid))

end Runs

/-! ### One tap -/

/-- The text under a key. -/
def textAt (v : Value) (key : String) : Text :=
  match v.get key with
  | some (.str t) => t
  | _ => []

/-- The four texts of a response, each after its length. -/
def pack (v : Value) : Text :=
  ["decision", "request_id", "responder", "message"].flatMap fun key =>
    (textAt v key).length :: textAt v key

/-- The first of such texts, and the rest. -/
def unpackOne : Text → Text × Text
  | [] => ([], [])
  | n :: t => (t.take n, t.drop n)

/-- The response with these texts. -/
def unpack (t : Text) : Value :=
  let decision := unpackOne t
  let requestId := unpackOne decision.2
  let responder := unpackOne requestId.2
  let message := unpackOne responder.2
  .ofFields [("decision", .str decision.1), ("request_id", .str requestId.1),
    ("responder", .str responder.1), ("message", .str message.1)]

theorem unpackOne_append (t rest : Text) : unpackOne (t.length :: (t ++ rest)) = (t, rest) := by
  simp [unpackOne]

theorem unpack_pack (response : ApprovalResponse) :
    unpack (pack (toDict response)) = toDict response := by
  have hpack : pack (toDict response) = (lit response.decision.toString).length ::
      (lit response.decision.toString ++ ((lit response.requestId).length ::
        (lit response.requestId ++ ((lit response.responder).length ::
          (lit response.responder ++ ((lit response.message).length ::
            (lit response.message ++ []))))))) := by
    simp [pack, textAt, toDict, Value.get_ofFields_cons]
  simp only [unpack, hpack, unpackOne_append]
  rfl

/-- The id that the daemon draws. -/
def drawn : String := "19700101T000000-00000000"

/-- The response to an approve. -/
def approval : ApprovalResponse where
  decision := .allow
  requestId := drawn
  responder := "telegram:7"

/-- Its JSON. -/
def approvalText : Text :=
  lit "\x7b\"decision\": \"allow\", \"request_id\": " ++
    lit "\"19700101T000000-00000000\", " ++
      lit "\"responder\": \"telegram:7\", \"message\": \"\"\x7d"

/-- A Python that reads the responses it writes, and writes this one as it is. -/
def relayPython : Hook.Python :=
  { Hook.hookPython with
    loads := fun t =>
      if t = approvalText then .ok (toDict approval)
      else if t.head? = some 0 then .ok (unpack t.tail)
      else Hook.hookPython.loads t }

/-- One account may answer. -/
def relaying : Config where
  py := relayPython
  bot := Telegram.Inbound.oneUser
  dumps v := if pack v = pack (toDict approval) then approvalText else 0 :: pack v

theorem loads_relayPython (t : Text) : relayPython.loads t =
    if t = approvalText then .ok (toDict approval)
    else if t.head? = some 0 then .ok (unpack t.tail)
    else Hook.hookPython.loads t := rfl

theorem relays_relaying : Relays relaying := by
  intro response
  show relayPython.loads (if pack (toDict response) = pack (toDict approval) then approvalText
    else 0 :: pack (toDict response)) = _
  split_ifs with hsame
  · rw [loads_relayPython, if_pos rfl, ← unpack_pack response, hsame, unpack_pack]
  · have hother : (0 :: pack (toDict response)) ≠ approvalText := by
      intro heq
      have hhead : some 0 = approvalText.head? := congrArg List.head? heq
      exact absurd hhead (by decide)
    rw [loads_relayPython, if_neg hother, List.head?_cons, if_pos rfl, List.tail_cons, unpack_pack]

/-- A call is posted, shown, approved with a tap and let through. -/
def letThrough : List (Label Unit) :=
  [.start () (Hook.answering []), .register () ⟨⟨0, 0⟩, by decide⟩ 0 0, .card () 11, .sent () 11,
    .bot (.tap (some ⟨some 7, "A|" ++ drawn⟩)), .bot (.answered 0 true),
    .bot (.listen Replies.calm), .look () 90 true, .receive ()]

/-- What the hook has printed. -/
def Session.printed (x : Session) : Option Text :=
  match x.result with
  | some (.ok output) => some output.decision
  | _ => none

/-- The hook has printed an allow. -/
def allowed (s : State Unit) : Bool :=
  (s.sessions ()).any fun x => x.printed = some (lit "allow")

/-- **A tap lets the call through** that it was made on. -/
theorem permitted_of_run_letThrough : ∃ s x request response,
    Lts.Run (Lts.ofStep (step relaying)) (State.init fun _ => none) letThrough s ∧
      s.sessions () = some x ∧ Permitted relaying s () x (lit "allow") request response := by
  have hdistinct : Distinct letThrough := ⟨by decide +kernel, List.disjoint_nil_right _⟩
  obtain ⟨s, hrun, hs⟩ := Lts.exists_run_of_exec (step relaying) (State.init fun _ => none)
    letThrough allowed (by decide +kernel)
  obtain ⟨x, hx, hprinted⟩ := (Option.any_eq_true ..).mp hs
  have hallow : x.printed = some (lit "allow") := of_decide_eq_true hprinted
  unfold Session.printed at hallow
  split at hallow
  next output hresult =>
    have hdecision : output.decision = lit "allow" := Option.some.inj hallow
    obtain ⟨request, response, h⟩ := permitted_of_run relays_relaying hrun hdistinct hx hresult
      (hdecision ▸ by decide)
    exact ⟨s, x, request, response, hrun, hx, hdecision ▸ h⟩
  · cases hallow

end Permission

end OtamanBridge
