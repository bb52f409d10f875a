import OtamanBridge.Team.Server

/-!
# Who kills a session

The runner trusts the bridge: whoever has the token of its endpoint file may kill any session,
and the bridge has to see to it that the caller may. Between the caller and the runner there
are the auth stack, the gate of the route, the dispatcher, the tool and the client, and each of
them looks at a part of the request. Here is what they come to: in every run of a bridge, with
requests from anybody about anything and everything else changing in between as it likes, the
runner is asked to kill exactly the sessions that administrators asked for, once each, in this
order (`OtamanBridge.Team.kills_run`). In the Community Edition nobody has an identity at this
route, so it never is.
-/

namespace OtamanBridge

namespace Team

open Py

open Value (field fieldOr isDict isText)

open Http (AuthStack Body Headers Sessions)

open Http.Mcp (Reply paramsOf)

variable {ρ : Type*} (b : Bridge ρ)

/-! ### A bridge and its surroundings -/

/-- The bridge at a time. -/
structure State (ρ : Type*) where
  now : Seconds
  world : World ρ

/-- What happens. -/
inductive Label (ρ : Type*)
  /-- `POST /mcp`. -/
  | post (headers : Headers) (body : Body)
  /-- Anything else: time passes, messages come and go, people log in and out, the runner
  starts, ends and restarts sessions, and writes its endpoint file. -/
  | others (now : Seconds) (disk : Inbox.Disk) (clock : ℕ) (endpoint : Runner.EndpointFile)
      (sessions : Sessions) (runner : ρ)

/-- The auth stack, with the sessions there are. -/
def State.auth (s : State ρ) : AuthStack := { b.auth with sessions := s.world.sessions }

/-- `POST /mcp`: `identify` may drop a session that has expired, before a tool looks. -/
def post (s : State ρ) (headers : Headers) (body : Body) : State ρ × Reply :=
  let sessions := ((s.auth b).identify s.now headers).1.sessions
  let out := Http.Mcp.post (server b) s.now (s.auth b) headers body { s.world with sessions }
  ({ s with world := out.2.1 }, out.2.2)

/-- One step. -/
def step (s : State ρ) : Label ρ → State ρ
  | .post headers body => (post b s headers body).1
  | .others now disk clock endpoint sessions runner =>
    ⟨now, { disk, clock, endpoint, sessions, runner, requests := s.world.requests }⟩

/-- Steps, one after the other. -/
def run : State ρ → List (Label ρ) → State ρ := List.foldl (step b)

/-! ### What was asked for -/

/-- The runner is asked to kill a session. -/
def Ask.isKill : Ask → Bool
  | .kill _ => true
  | .sessions => false

/-- The requests to kill a session. -/
def kills (requests : List Request) : List Request := requests.filter fun r => r.ask.isKill

/-- The administrator whose credentials the request has. -/
def adminOf (a : AuthStack) (now : Seconds) (headers : Headers) : Option CallContext :=
  if a.ee then
    (a.oidcIdentify now headers).2.toOption.join.filter fun ctx =>
      ctx.userId ≠ [] ∧ adminRole ∈ ctx.roles
  else none

/-- The session that the arguments name. -/
def targetOf (args : Value) : Option Text :=
  match field args "session_id" with
  | .str sessionId =>
    if sessionId ≠ [] ∧ ((field args "reason").isNone || isString (field args "reason")) then
      some sessionId
    else none
  | _ => none

/-- The arguments of a call. -/
def argumentsOf (body : Value) : Value := fieldOr (paramsOf body) "arguments" (.dict [])

/-- The body is a call of this tool. -/
def Calls (name : String) (body : Value) : Prop :=
  isDict body ∧ isText (lit "tools/call") (field body "method") ∧ isDict (paramsOf body) ∧
    isText (lit name) (field (paramsOf body) "name") ∧ isDict (argumentsOf body)

instance (name : String) (body : Value) : Decidable (Calls name body) :=
  inferInstanceAs (Decidable (_ ∧ _))

/-- The session that the body asks to kill. -/
def condemned : Body → Option Text
  | .json body => if Calls "kill_session_for_user" body then targetOf (argumentsOf body) else none
  | _ => none

/-- The request that kills a session: it goes to whoever the endpoint file names. -/
def killRequest (endpoint : Runner.EndpointFile) (sessionId : Text) : Option Request :=
  match b.readEndpoint endpoint with
  | .ok (host, port, token) => some ⟨address host port "/kill", token, .kill sessionId⟩
  | .error _ => none

/-- **An order to kill a session**: an administrator asks for it, and it is known where the
runner is. -/
def order (s : State ρ) : Label ρ → Option Request
  | .post headers body =>
    (adminOf (s.auth b) s.now headers).bind fun _ =>
      (condemned body).bind (killRequest b s.world.endpoint)
  | .others .. => none

/-- The orders of a run. -/
def orders : State ρ → List (Label ρ) → List Request
  | _, [] => []
  | s, l :: ls => (order b s l).toList ++ orders (step b s l) ls

/-! ### The tools -/

section Tools

variable {b} {w : World ρ} {args : Value} {ctx : CallContext}

theorem kills_append (rs rs' : List Request) : kills (rs ++ rs') = kills rs ++ kills rs' :=
  List.filter_append ..

/-- Whom the tool obeys. -/
def Permits (b : Bridge ρ) (ctx : CallContext) : Prop :=
  ctx.userId ≠ [] ∧ (b.auth.ee → adminRole ∈ ctx.roles)

instance : Decidable (Permits b ctx) := inferInstanceAs (Decidable (_ ∧ _))

/-- `list_sessions` kills nothing. -/
theorem kills_listSessions : kills (listSessions b w).1.requests = kills w.requests := by
  unfold listSessions
  rcases b.readEndpoint w.endpoint with f | ⟨host, port, token⟩
  · rfl
  · exact (kills_append _ _).trans (List.append_nil _)

/-- `kill_session` sends its request, if it knows where to. -/
theorem requests_killSession (sessionId : Text) : (killSession b w sessionId).1.requests =
    w.requests ++ (killRequest b w.endpoint sessionId).toList := by
  unfold killSession killRequest
  rcases b.readEndpoint w.endpoint with f | ⟨host, port, token⟩
  · exact (List.append_nil _).symm
  · rfl

theorem kills_toList_killRequest (endpoint : Runner.EndpointFile) (sessionId : Text) :
    kills (killRequest b endpoint sessionId).toList =
      (killRequest b endpoint sessionId).toList := by
  unfold killRequest
  rcases b.readEndpoint endpoint with f | ⟨host, port, token⟩ <;> rfl

/-- **The tool kills what it is told to**, if it obeys the caller. -/
theorem kills_killSessionForUser : kills (killSessionForUser b args ctx w).1.requests =
    kills w.requests ++ if Permits b ctx then
      ((targetOf args).bind (killRequest b w.endpoint)).toList else [] := by
  unfold killSessionForUser
  by_cases huser : ctx.userId = []
  · rw [if_pos huser, if_neg fun h => h.1 huser, List.append_nil]
  rw [if_neg huser]
  by_cases hrole : b.auth.ee ∧ adminRole ∉ ctx.roles
  · rw [if_pos hrole, if_neg fun h => hrole.2 (h.2 hrole.1), List.append_nil]
  have hpermits : Permits b ctx := ⟨huser, fun hee => by_contra fun h => hrole ⟨hee, h⟩⟩
  rw [if_neg hrole, if_pos hpermits, targetOf]
  cases field args "session_id" with
  | str sessionId =>
    dsimp only
    by_cases hnil : sessionId = []
    · rw [if_pos hnil, if_neg fun h => h.1 hnil]
      exact (List.append_nil _).symm
    rw [if_neg hnil]
    by_cases hreason : (field args "reason").isNone || isString (field args "reason")
    · rw [if_pos hreason, if_pos ⟨hnil, hreason⟩, Option.bind_some]
      dsimp only
      rw [requests_killSession, kills_append, kills_toList_killRequest]
    · rw [if_neg hreason, if_neg fun h => hreason h.2]
      exact (List.append_nil _).symm
  | _ => exact (List.append_nil _).symm

/-- The tools over the inboxes kill nothing. -/
theorem kills_inboxHandler (tool : Inbox.Tool) :
    kills (inboxHandler b tool args ctx w).1.requests = kills w.requests := by
  cases tool with
  | getRecentActivity =>
    have hactivity : kills (activitySessions b args ctx w).1.requests = kills w.requests := by
      unfold activitySessions
      split_ifs
      · exact kills_listSessions
      · rfl
    exact hactivity
  | _ => rfl

/-- Of the tools of the server, the others kill nothing. -/
theorem kills_of_mem {tool : Http.Mcp.Tool (World ρ)} (h : tool ∈ (server b).tools)
    (hname : tool.name ≠ lit "kill_session_for_user") :
    kills (tool.handler args ctx w).1.requests = kills w.requests := by
  rcases List.mem_append.mp h with h | h
  · split_ifs at h
    · obtain rfl := List.mem_singleton.mp h
      exact kills_listSessions
    · cases h
  · simp only [List.mem_cons, List.not_mem_nil, or_false] at h
    rcases h with rfl | rfl | rfl | rfl | rfl | rfl
    · exact kills_inboxHandler _
    · exact kills_inboxHandler _
    · exact kills_inboxHandler _
    · exact kills_inboxHandler _
    · exact kills_inboxHandler _
    · exact absurd rfl hname

/-- The tool with its name is the one that kills. -/
theorem find_killTool :
    ((server b).tools.find? fun t => t.name = lit "kill_session_for_user") =
      some (killTool b) := by
  have hlast : ([inboxTool b "send_message_to_user" .sendMessageToUser,
      inboxTool b "check_messages" .checkMessages,
      inboxTool b "mark_message_read" .markMessageRead,
      inboxTool b "request_review" .requestReview,
      inboxTool b "get_recent_activity" .getRecentActivity, killTool b].find?
        fun t => t.name = lit "kill_session_for_user") = some (killTool b) := by
    rfl
  rw [server, List.find?_append]
  split_ifs
  · exact hlast
  · exact hlast

end Tools

/-! ### The dispatcher and the gate -/

section Dispatch

variable {b} {w : World ρ} {ctx : CallContext} {body : Value}

/-- The requests that come of a session that is named, if the caller may name one. -/
def obeyed (b : Bridge ρ) (ctx : CallContext) (endpoint : Runner.EndpointFile)
    (named : Option Text) : List Request :=
  if Permits b ctx then (named.bind (killRequest b endpoint)).toList else []

theorem obeyed_none (endpoint : Runner.EndpointFile) : obeyed b ctx endpoint none = [] := by
  unfold obeyed
  split_ifs <;> rfl

/-- **`tools/call`** kills what the arguments name, if it is a call of the tool that kills. -/
theorem kills_handleToolsCall (params : Value) :
    kills (Http.Mcp.handleToolsCall (server b) params ctx w).1.requests =
      kills w.requests ++ obeyed b ctx w.endpoint
        (if isDict params ∧ isText (lit "kill_session_for_user") (field params "name") ∧
            isDict (fieldOr params "arguments" (.dict [])) then
          targetOf (fieldOr params "arguments" (.dict [])) else none) := by
  unfold Http.Mcp.handleToolsCall
  by_cases hdict : isDict params
  · rw [if_pos hdict]
    cases hname : field params "name" with
    | str name =>
      dsimp only
      by_cases hnil : name = []
      · obtain rfl := hnil
        rw [if_pos rfl, if_neg (by simp [isText, lit]), obeyed_none, List.append_nil]
      rw [if_neg hnil]
      by_cases hkill : name = lit "kill_session_for_user"
      · obtain rfl := hkill
        rw [find_killTool]
        dsimp only
        by_cases hargs : isDict (fieldOr params "arguments" (.dict []))
        · rw [if_pos hargs, if_pos ⟨hdict, by simp [isText], hargs⟩]
          exact kills_killSessionForUser
        · rw [if_neg hargs, if_neg fun h => hargs h.2.2, obeyed_none, List.append_nil]
      · have hother : ¬(isText (lit "kill_session_for_user") (.str name)) := by
          simpa [isText] using hkill
        rw [if_neg fun h => hother h.2.1, obeyed_none, List.append_nil]
        split
        · rfl
        next tool hfind =>
          split_ifs
          · have htool : tool.name = name := by simpa using List.find?_some hfind
            exact kills_of_mem (List.mem_of_find?_eq_some hfind) (htool ▸ hkill)
          · rfl
    | _ =>
      rw [if_neg fun h => absurd h.2.1 (by simp [isText]), obeyed_none, List.append_nil]
  · rw [if_neg hdict, if_neg fun h => hdict h.1, obeyed_none, List.append_nil]

theorem condemned_of_not_calls (h : ¬Calls "kill_session_for_user" body) :
    condemned (.json body) = none := if_neg h

/-- What a method does, of a body that is an object. -/
theorem kills_dispatch {method : Text} (hdict : isDict body)
    (hmethod : field body "method" = .str method) :
    kills (Http.Mcp.dispatch (server b) method (paramsOf body) ctx w).1.requests =
      kills w.requests ++ obeyed b ctx w.endpoint (condemned (.json body)) := by
  unfold Http.Mcp.dispatch
  by_cases hcall : method = lit "tools/call"
  · obtain rfl := hcall
    have hcalls : Calls "kill_session_for_user" body ↔ isDict (paramsOf body) ∧
        isText (lit "kill_session_for_user") (field (paramsOf body) "name") ∧
          isDict (argumentsOf body) := by
      unfold Calls
      rw [hmethod]
      simp [hdict, isText]
    rw [if_neg (by decide), if_neg (by decide), if_pos rfl, kills_handleToolsCall]
    congr 2
    exact (if_congr hcalls rfl rfl).symm
  · have hother : ¬Calls "kill_session_for_user" body := by
      rintro ⟨-, htext, -⟩
      rw [hmethod] at htext
      exact hcall (of_decide_eq_true htext)
    rw [condemned_of_not_calls hother, obeyed_none, List.append_nil]
    split_ifs <;> rfl

/-- **The dispatcher** kills what the body asks for. -/
theorem kills_handleRequest : kills (Http.Mcp.handleRequest (server b) body ctx w).1.requests =
    kills w.requests ++ obeyed b ctx w.endpoint (condemned (.json body)) := by
  have hquiet : ¬Calls "kill_session_for_user" body → kills w.requests =
      kills w.requests ++ obeyed b ctx w.endpoint (condemned (.json body)) := fun h => by
    rw [condemned_of_not_calls h, obeyed_none, List.append_nil]
  unfold Http.Mcp.handleRequest
  by_cases hdict : isDict body
  · rw [if_pos hdict]
    dsimp only
    split
    next method hmethod =>
      split_ifs with hnil
      · refine hquiet fun h => ?_
        obtain ⟨-, htext, -⟩ := h
        rw [hmethod, hnil] at htext
        exact absurd htext (by decide)
      · exact kills_dispatch hdict hmethod
    next hno =>
      refine hquiet fun h => ?_
      obtain ⟨-, htext, -⟩ := h
      cases hmethod : field body "method" with
      | str method => exact hno method hmethod
      | _ =>
        rw [hmethod] at htext
        exact absurd htext (by simp [isText])
  · rw [if_neg hdict]
    exact hquiet fun h => hdict h.1

/-- **The answer to a caller that is known**: without an identity nothing is killed, whatever
the gate says. -/
theorem kills_answer (body : Body) : kills (Http.Mcp.answer (server b) body ctx w).1.requests =
    kills w.requests ++ obeyed b ctx w.endpoint (condemned body) := by
  have hquiet : kills w.requests = kills w.requests ++ obeyed b ctx w.endpoint none := by
    rw [obeyed_none, List.append_nil]
  cases body with
  | json v =>
    by_cases huser : ctx.userId = []
    · have hnone : ∀ named, obeyed b ctx w.endpoint named = [] := fun named =>
        if_neg fun h => h.1 huser
      have hhandle : kills (Http.Mcp.handleRequest (server b) v ctx w).1.requests =
          kills w.requests ++ obeyed b ctx w.endpoint (condemned (.json v)) := kills_handleRequest
      unfold Http.Mcp.answer
      rw [hnone, List.append_nil] at hhandle ⊢
      dsimp only
      split
      · rfl
      · rfl
      · split
        next heq =>
          rw [heq] at hhandle
          exact hhandle
        next heq =>
          rw [heq] at hhandle
          exact hhandle
    · have hgate : Http.Mcp.identityGate v ctx = .ok none :=
        Http.Mcp.identityGate_of_not_anonymous fun h => huser h.2.2
      have hhandle : kills (Http.Mcp.handleRequest (server b) v ctx w).1.requests =
          kills w.requests ++ obeyed b ctx w.endpoint (condemned (.json v)) := kills_handleRequest
      unfold Http.Mcp.answer
      dsimp only
      rw [hgate]
      dsimp only
      split
      next heq =>
        rw [heq] at hhandle
        exact hhandle
      next heq =>
        rw [heq] at hhandle
        exact hhandle
  | invalid => exact hquiet
  | raises => exact hquiet

end Dispatch

/-! ### The route -/

section Route

variable {b} {a : AuthStack} {now : Seconds} {headers : Headers} {ctx : CallContext}

/-- The loopback provider gives nobody an identity. -/
theorem userId_of_loopbackIdentify {token : Text}
    (h : Http.loopbackIdentify token headers = .ok (some ctx)) : ctx.userId = [] := by
  unfold Http.loopbackIdentify at h
  split at h
  · cases h
  · split_ifs at h
    · obtain rfl := Option.some.inj (Except.ok.inj h)
      rfl
    · cases Except.ok.inj h

/-- **Who has an identity** comes with a token of the IdP or a session of the web login. -/
theorem identify_eq_some_iff (huser : ctx.userId ≠ []) :
    (a.identify now headers).2 = .ok (some ctx) ↔
      a.ee ∧ (a.oidcIdentify now headers).2.toOption.join = some ctx := by
  have hloop : ∀ a' : AuthStack, (AuthStack.firstHit now headers a' [.loopback]).2 ≠
      .ok (some ctx) := by
    intro a' h
    simp only [AuthStack.firstHit, AuthStack.ask] at h
    split at h
    · cases h
    next heq _ =>
      have hhit : Http.loopbackIdentify a'.token headers = .ok (some ctx) := h
      exact huser (userId_of_loopbackIdentify hhit)
  unfold AuthStack.identify AuthStack.providers
  rcases hee : a.ee
  · exact iff_of_false (hloop a) (by simp)
  · rw [if_pos rfl, List.singleton_append, AuthStack.firstHit, AuthStack.ask]
    rcases hask : a.oidcIdentify now headers with ⟨a', e | _ | ctx'⟩
    · simp [Except.toOption]
    · exact iff_of_false (hloop a') (by simp [Except.toOption])
    · simp [Except.toOption]

theorem adminOf_eq_some_iff : adminOf a now headers = some ctx ↔
    (a.identify now headers).2 = .ok (some ctx) ∧ ctx.userId ≠ [] ∧ adminRole ∈ ctx.roles := by
  unfold adminOf
  constructor
  · intro h
    split_ifs at h with hee
    obtain ⟨hoidc, hctx⟩ := Option.filter_eq_some_iff.mp h
    have hctx := of_decide_eq_true hctx
    exact ⟨(identify_eq_some_iff hctx.1).mpr ⟨hee, hoidc⟩, hctx⟩
  · rintro ⟨hidentify, hctx⟩
    obtain ⟨hee, hoidc⟩ := (identify_eq_some_iff hctx.1).mp hidentify
    rw [if_pos hee]
    exact Option.filter_eq_some_iff.mpr ⟨hoidc, decide_eq_true hctx⟩

/-- **One post** kills what an administrator orders with it. -/
theorem kills_post (s : State ρ) (headers : Headers) (body : Body) :
    kills (post b s headers body).1.world.requests =
      kills s.world.requests ++ (order b s (.post headers body)).toList := by
  have hnobody : (∀ ctx, ((s.auth b).identify s.now headers).2 ≠ .ok (some ctx)) →
      order b s (.post headers body) = none := by
    intro h
    rw [order]
    rcases hadmin : adminOf (s.auth b) s.now headers with _ | ctx
    · rfl
    · exact absurd (adminOf_eq_some_iff.mp hadmin).1 (h ctx)
  unfold post Http.Mcp.post
  rcases hidentify : (s.auth b).identify s.now headers with ⟨auth, e | _ | ctx⟩
  · rw [hnobody (by simp [hidentify])]
    exact (List.append_nil _).symm
  · rw [hnobody (by simp [hidentify])]
    exact (List.append_nil _).symm
  · dsimp only
    rw [kills_answer]
    congr 1
    unfold obeyed
    by_cases hpermits : Permits b ctx
    · have hcaller : ((s.auth b).identify s.now headers).2 = .ok (some ctx) := by rw [hidentify]
      have hee := ((identify_eq_some_iff hpermits.1).mp hcaller).1
      have hadmin : adminOf (s.auth b) s.now headers = some ctx :=
        adminOf_eq_some_iff.mpr ⟨hcaller, hpermits.1, hpermits.2 hee⟩
      rw [if_pos hpermits, order, hadmin]
      rfl
    · rw [if_neg hpermits, order]
      rcases hadmin : adminOf (s.auth b) s.now headers with _ | ctx'
      · rfl
      · obtain ⟨hcaller, huser, hrole⟩ := adminOf_eq_some_iff.mp hadmin
        rw [hidentify] at hcaller
        obtain rfl := Option.some.inj (Except.ok.inj hcaller)
        exact absurd ⟨huser, fun _ => hrole⟩ hpermits

/-- **Who kills a session.** In every run of a bridge, whatever else happens in between, the
requests to kill that it makes of the runner are the orders of the run: one for each `POST /mcp`
that comes with the credentials of an administrator and calls the tool with the id of a session,
while the endpoint file says where the runner is. -/
theorem kills_run (s : State ρ) (ls : List (Label ρ)) :
    kills (run b s ls).world.requests = kills s.world.requests ++ orders b s ls := by
  induction ls generalizing s with
  | nil => exact (List.append_nil _).symm
  | cons l ls ih =>
    rw [run, List.foldl_cons, ← run, ih, orders, ← List.append_assoc]
    congr 1
    cases l with
    | post headers body => exact kills_post s headers body
    | others now disk clock endpoint sessions runner => exact (List.append_nil _).symm

end Route

/-! ### An administrator and a script -/

/-- A bridge with a validator that knows one administrator. -/
def oneAdmin : Bridge Unit where
  host := Inbox.someHost
  auth :=
    { token := lit "secret"
      token_ascii := by decide
      ee := true
      validator := some fun header =>
        .ok (if header = lit "Bearer ada" then some ⟨lit "ada", none, [adminRole]⟩ else none)
      cookie := none
      sessions := ∅ }
  emails := true
  path := []
  int := fun t => some (t.foldl (fun n c => 10 * n + (c - 48)) 0 : ℕ)
  mishap := fun _ => []
  loads := fun _ => .error (.decode [])
  loads_json := by simp
  runner := fun _ _ => ((), .body [])
  description := fun _ => []
  schema := fun _ => .dict []
  schema_json := fun _ => rfl

/-- It knows where the runner is. -/
def quietWorld : State Unit where
  now := 0
  world :=
    { disk := ⟨∅⟩
      clock := 0
      endpoint := .content (.text (lit "port=8089\ntoken=t\n"))
      sessions := ∅
      runner := ()
      requests := [] }

/-- Somebody asks to kill a session. -/
def asking (bearer : String) : Label Unit :=
  .post [(lit "Authorization", lit "Bearer " ++ lit bearer)]
    (.json (Value.ofFields [("method", .str (lit "tools/call")), ("params", Value.ofFields
      [("name", .str (lit "kill_session_for_user")), ("arguments", Value.ofFields
        [("session_id", .str (lit "s1"))])])]))

-- the administrator gives an order, and the token of the daemon does not
example : orders oneAdmin quietWorld [asking "ada", asking "secret"] =
    [⟨lit "http://127.0.0.1:8089/kill", lit "t", .kill (lit "s1")⟩] := by
  decide +kernel

end Team

end OtamanBridge
