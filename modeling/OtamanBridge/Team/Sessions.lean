import OtamanBridge.Http.Mcp
import OtamanBridge.Inbox.Tools
import OtamanBridge.Spawn.Runner

/-!
# The tools over the runner's sessions

`list_team_sessions` and `kill_session_for_user` of `mcp_tools.py`, with `list_sessions` and
`kill_session` of the client behind them. The client reads the endpoint file, sends one request
to whoever it names and takes the answer apart; the runner itself is not of this program, so
what it does with a request is a parameter, over whatever state it has.

In the Community Edition nobody needs a role to kill a session; where the EE package is
installed, the caller's roles have to include `otaman:admin`.
-/

namespace OtamanBridge

namespace Team

open Py

open Value (field isDict isJson ofFields)

open Http (AuthStack Sessions)

open Http.Mcp (Outcome noGet)

open Inbox (Disk ToolResult)

open Runner (EndpointFile)

/-! ### The client -/

/-- What the runner is asked for. -/
inductive Ask
  /-- `GET /sessions`. -/
  | sessions
  /-- `POST /kill`. -/
  | kill (sessionId : Text)
  deriving DecidableEq

/-- A request of the client. -/
structure Request where
  url : Text
  token : Text
  ask : Ask
  deriving DecidableEq

/-- The exceptions, with their texts. -/
inductive Failure
  /-- `RunnerUnreachableError`. -/
  | unreachable (message : Text)
  /-- `RunnerAuthError`. -/
  | auth (message : Text)
  /-- `SessionNotFoundError`. -/
  | notFound (message : Text)
  /-- A `ValueError`. -/
  | value (message : Text)
  /-- Any other exception. -/
  | other (message : Text)

/-- `str(exc)`. -/
def Failure.message : Failure → Text
  | unreachable m | auth m | notFound m | value m | other m => m

/-- What comes of a request. -/
inductive Answer
  | httpError (code : ℕ)
  /-- Another `URLError` or a `TimeoutError`, with its text. -/
  | unreachable (error : Text)
  /-- Any other exception, in making the request, sending it or reading the answer. -/
  | raised (f : Failure)
  | body (bytes : List ℕ)

/-- What `json.loads` raises. -/
inductive NotJson
  /-- `JSONDecodeError`. -/
  | decode (message : Text)
  /-- Any other exception. -/
  | other (message : Text)

/-- What does not change: the packages that are installed, the settings, what Python makes of
values and texts, and how the runner goes on from a state when it is asked something. -/
structure Bridge (ρ : Type*) where
  host : Inbox.Host
  /-- The auth stack, whose `session_store` changes. -/
  auth : AuthStack
  /-- The privacy mode is `emails`, not `opaque`. -/
  emails : Bool
  /-- `endpoint_file`. -/
  path : Text
  int : Text → Option ℤ
  /-- The text of the exception where the endpoint file cannot be looked at, decoded or read. -/
  mishap : EndpointFile → Text
  loads : List ℕ → Except NotJson Value
  loads_json : ∀ bytes v, loads bytes = .ok v → v.isJson
  runner : ρ → Request → ρ × Answer
  /-- The descriptions and the input schemas of the tools. -/
  description : Text → Text
  schema : Text → Value
  schema_json : ∀ name, (schema name).isJson

/-- What the tools work on: the inboxes and their clock, the endpoint file, the sessions of the
web login, the runner, and the requests that were sent to it, the oldest first. -/
structure World (ρ : Type*) where
  disk : Disk
  clock : ℕ
  endpoint : EndpointFile
  sessions : Sessions
  runner : ρ
  requests : List Request

variable {ρ : Type*} (b : Bridge ρ)

namespace Bridge

/-- The client of the runner, as far as it reads the endpoint file. -/
def client (endpoint : EndpointFile) : Runner.Client where
  path := b.path
  file := endpoint
  answer := fun _ => .raised
  int := b.int
  loads := fun _ => none
  str := b.host.str

/-- `_read_endpoint`. A port that is no number and a file that is no UTF-8 are `ValueError`s. -/
def readEndpoint (endpoint : EndpointFile) : Except Failure (Text × ℤ × Text) :=
  match (b.client endpoint).readEndpoint with
  | .ok found => .ok found
  | .error (.unreachable m) => .error (.unreachable m)
  | .error _ =>
    .error (if endpoint = .hidden then .other (b.mishap endpoint) else .value (b.mishap endpoint))

/-- `f"{v}"`. -/
def text : Value → Text
  | .str t => t
  | v => b.host.str v

/-- A request is sent. -/
def send (w : World ρ) (r : Request) : World ρ × Answer :=
  let out := b.runner w.runner r
  ({ w with runner := out.1, requests := w.requests ++ [r] }, out.2)

end Bridge

/-- The address of a route. -/
def address (host : Text) (port : ℤ) (route : String) : Text :=
  lit "http://" ++ host ++ lit ":" ++ Runner.intText port ++ lit route

/-- The message of `RunnerAuthError`. -/
def staleToken : Text := lit "runner rejected loopback bearer (HTTP 401) -- token may be stale"

/-- What both methods make of an error of HTTP. -/
def httpFailure (url : Text) (code : ℕ) : Failure :=
  if code = 401 then .auth staleToken
  else .unreachable (lit "runner returned HTTP " ++ decimal code ++ lit " on " ++ url)

/-- What both make of a connection that does not come about. -/
def unreachableFailure (url error : Text) : Failure :=
  .unreachable (lit "runner unreachable at " ++ url ++ lit ": " ++ error)

/-- What `list_sessions` makes of JSON. -/
def sessionsOf (data : Value) : Except Failure (List Value) :=
  if isDict data then
    match field data "sessions" with
    | .list sessions => .ok sessions
    | _ => .error (.unreachable
        (lit "runner /sessions response missing 'sessions' list: " ++ b.text data))
  else .error (.other (noGet data))

/-- What `list_sessions` makes of an answer. -/
def readSessions (url : Text) : Answer → Except Failure (List Value)
  | .httpError code => .error (httpFailure url code)
  | .unreachable error => .error (unreachableFailure url error)
  | .raised f => .error f
  | .body bytes =>
    match b.loads bytes with
    | .error (.decode m) => .error (.unreachable (lit "runner response was not valid JSON: " ++ m))
    | .error (.other m) => .error (.other m)
    | .ok data => sessionsOf b data

/-- `list_sessions`. -/
def listSessions (w : World ρ) : World ρ × Except Failure (List Value) :=
  match b.readEndpoint w.endpoint with
  | .error f => (w, .error f)
  | .ok (host, port, token) =>
    let url := address host port "/sessions"
    let out := b.send w ⟨url, token, .sessions⟩
    (out.1, readSessions b url out.2)

/-- What `kill_session` makes of an answer. -/
def readKill (url sessionId : Text) : Answer → Except Failure Unit
  | .httpError code =>
    .error (if code = 404 then .notFound (lit "session not found: " ++ sessionId)
      else httpFailure url code)
  | .unreachable error => .error (unreachableFailure url error)
  | .raised f => .error f
  | .body _ => .ok ()

/-- `kill_session`, of a session id that is no empty string. -/
def killSession (w : World ρ) (sessionId : Text) : World ρ × Except Failure Unit :=
  match b.readEndpoint w.endpoint with
  | .error f => (w, .error f)
  | .ok (host, port, token) =>
    let url := address host port "/kill"
    let out := b.send w ⟨url, token, .kill sessionId⟩
    (out.1, readKill url sessionId out.2)

/-! ### Results -/

/-- The content of a result. -/
def contentOf (t : Text) : String × Value :=
  ("content", .list [ofFields [("type", .str (lit "text")), ("text", .str t)]])

/-- `_mcp_error`. -/
def mcpError (message : Text) : Outcome :=
  .result (ofFields [("isError", .bool true), contentOf message])

/-- A result. -/
def success (t : Text) (structured : Value) : Outcome :=
  .result (ofFields [contentOf t, ("structuredContent", structured)])

theorem isJson_contentOf (t : Text) : (contentOf t).2.isJson = true := rfl

theorem mcpError_isJson (message : Text) : (mcpError message).IsJson := rfl

theorem success_isJson (t : Text) {structured : Value} (h : structured.isJson) :
    (success t structured).IsJson := by
  refine Value.isJson_ofFields.mpr fun kv hkv => ?_
  rcases List.mem_cons.mp hkv with rfl | hkv
  · rfl
  · obtain rfl := List.mem_singleton.mp hkv
    exact h

/-- `runner_feature_unavailable_text`. -/
def runnerFeatureUnavailableText (feature : String) : Option Text :=
  if b.auth.ee then none
  else some (lit feature ++ lit " is part of the hosted/EE tier and is not available in " ++
    lit "this Community Edition install. This is an edition boundary, not " ++
    lit "an error — see https://otaman.ai for the hosted tier.")

/-! ### Listing -/

/-- `v or default`. -/
def orDefault (v default : Value) : Value := if v.truthy then v else default

/-- `_lookup_user_email`: the sessions are gone through in the order in which they came. -/
def lookupUserEmail (sessions : Sessions) (userId : Value) : Value :=
  if userId.truthy then
    ((sessions.entries.reverse.find? fun entry => Value.isText entry.2.userId userId).bind
      fun entry => entry.2.email).elim .none .str
  else .none

/-- The entry of a session of the runner. -/
def entryOf (sessions : Sessions) (ctx : CallContext) (s : Value) : List (String × Value) :=
  let userId := orDefault (field s "user") (.str [])
  [("session_id", field s "session_id"), ("user_id", userId), ("repo", field s "repo"),
    ("agent", field s "agent"), ("session_name", field s "session_name"),
    ("started_at", field s "started_at"), ("is_self", .bool (Value.isText ctx.userId userId))] ++
    if b.emails then [("user_email", lookupUserEmail sessions userId)] else []

/-- The session is the caller's own. -/
def isSelf (ctx : CallContext) (s : Value) : Bool :=
  Value.isText ctx.userId (orDefault (field s "user") (.str []))

/-- The entries that are shown, unless one of the sessions is no object. -/
def entries (sessions : Sessions) (ctx : CallContext) (includeSelf : Bool) :
    List Value → Except Failure (List Value)
  | [] => .ok []
  | s :: rest =>
    if isDict s then
      (entries sessions ctx includeSelf rest).map fun shown =>
        if isSelf ctx s ∧ ¬includeSelf then shown
        else ofFields (entryOf b sessions ctx s) :: shown
    else .error (.other (noGet s))

/-- `_format_sessions`. -/
def formatSessions (entries : List Value) : Text :=
  if entries = [] then lit "No active team sessions."
  else
    let line (e : Value) : Text :=
      let who := orDefault (field e "user_email")
        (orDefault (field e "user_id") (.str (lit "(unknown)")))
      lit "  - " ++ b.text who ++ lit ": " ++
        b.text (orDefault (field e "repo") (.str (lit "(no repo)"))) ++ lit ", started " ++
        b.text (orDefault (field e "started_at") (.str (lit "?"))) ++
        if (field e "is_self").truthy then lit " [self]" else []
    joinLines ((decimal entries.length ++ lit " active team session(s):") :: entries.map line)

/-- What `list_team_sessions` says about a failure of the client. -/
def listFailure : Failure → Outcome
  | .unreachable m =>
    mcpError ((runnerFeatureUnavailableText b "Team session listing").getD
      (lit "Team session list is unavailable: the runner is not " ++
        lit "reachable from this bridge (" ++ m ++ lit "). This is not the " ++
        lit "same as 'no team sessions' -- it means we can't tell."))
  | .auth m =>
    mcpError (lit "Team session list is unavailable: the bridge's loopback " ++
      lit "token for the runner is stale (" ++ m ++ lit "). The runner may " ++
      lit "have restarted; the bridge needs to re-read the endpoint file.")
  | .notFound m | .value m | .other m => .raised m

/-- The handler of `list_team_sessions`. -/
def listTeamSessions (args : Value) (ctx : CallContext) (w : World ρ) : World ρ × Outcome :=
  let out := listSessions b w
  (out.1, match out.2 with
    | .error f => listFailure b f
    | .ok raw =>
      match entries b w.sessions ctx (field args "include_self").truthy raw with
      | .error f => .raised f.message
      | .ok shown => success (formatSessions b shown)
          (ofFields [("sessions", .list shown), ("total", .int shown.length)]))

/-! ### Killing -/

/-- `ADMIN_ROLE`. -/
def adminRole : Text := lit "otaman:admin"

/-- What `kill_session_for_user` says to who lacks the role. -/
def roleRefusal (ctx : CallContext) : Text :=
  lit "kill_session_for_user requires the " ++ b.host.repr (.str adminRole) ++
    lit " role; caller has roles: " ++
    if ctx.roles = [] then lit "none" else b.host.str (.list (ctx.roles.map .str))

/-- What it says about a failure of the client. -/
def killFailure (sessionId : Text) : Failure → Outcome
  | .notFound _ => mcpError (lit "session not found: " ++ sessionId)
  | .auth m => mcpError (lit "runner auth failed: " ++ m)
  | .unreachable m =>
    mcpError ((runnerFeatureUnavailableText b "Session management").getD
      (lit "runner unreachable: " ++ m))
  | .value m => mcpError (lit "invalid session_id: " ++ m)
  | .other m => .raised m

/-- What it says when the session is killed. -/
def killed (ctx : CallContext) (sessionId : Text) (reason : Value) : Outcome :=
  success (lit "Killed session " ++ sessionId ++
      (if reason.truthy then lit " (reason: " ++ b.text reason ++ lit ")" else []) ++ lit ".")
    (ofFields [("session_id", .str sessionId), ("killed_by", .str ctx.userId),
      ("reason", reason)])

/-- `isinstance(v, str)`. -/
def isString : Value → Bool
  | .str _ => true
  | _ => false

/-- The handler of `kill_session_for_user`: the EE package asks for the role. -/
def killSessionForUser (args : Value) (ctx : CallContext) (w : World ρ) : World ρ × Outcome :=
  if ctx.userId = [] then
    (w, mcpError (lit "caller identity required (loopback bearer has no user identity)"))
  else if b.auth.ee ∧ adminRole ∉ ctx.roles then (w, mcpError (roleRefusal b ctx))
  else
    match field args "session_id", field args "reason" with
    | .str sessionId, reason =>
      if sessionId = [] then (w, mcpError (lit "missing or invalid session_id"))
      else if reason.isNone || isString reason then
        let out := killSession b w sessionId
        (out.1, match out.2 with
          | .error f => killFailure b sessionId f
          | .ok () => killed b ctx sessionId reason)
      else (w, mcpError (lit "reason must be a string"))
    | _, _ => (w, mcpError (lit "missing or invalid session_id"))

/-! ### What goes out is JSON -/

section Json

variable {b}

theorem listFailure_isJson (f : Failure) : (listFailure b f).IsJson := by
  cases f <;> first | exact mcpError_isJson _ | trivial

theorem killFailure_isJson (sessionId : Text) (f : Failure) :
    (killFailure b sessionId f).IsJson := by
  cases f <;> first | exact mcpError_isJson _ | trivial

/-- What the client returns was in JSON. -/
theorem isJson_of_readSessions {url : Text} {answer : Answer} {raw : List Value}
    (h : readSessions b url answer = .ok raw) : ∀ s ∈ raw, s.isJson := by
  cases answer with
  | httpError code => cases h
  | unreachable error => cases h
  | raised f => cases h
  | body bytes =>
    rw [readSessions] at h
    rcases hloads : b.loads bytes with (m | m) | data
    · simp [hloads] at h
    · simp [hloads] at h
    · simp only [hloads, sessionsOf] at h
      split_ifs at h
      have hfield := Http.Mcp.isJson_field (b.loads_json bytes data hloads) "sessions"
      split at h
      next items hitems =>
        obtain rfl := Except.ok.inj h
        rw [hitems] at hfield
        exact Value.allJson_iff.mp hfield
      · cases h

theorem isJson_of_listSessions {w : World ρ} {raw : List Value}
    (h : (listSessions b w).2 = .ok raw) : ∀ s ∈ raw, s.isJson := by
  unfold listSessions at h
  split at h
  · cases h
  · exact isJson_of_readSessions h

theorem isJson_elim (t : Option Text) : (t.elim Value.none .str).isJson := by
  cases t <;> rfl

theorem lookupUserEmail_isJson (sessions : Sessions) (userId : Value) :
    (lookupUserEmail sessions userId).isJson := by
  unfold lookupUserEmail
  split_ifs
  · exact isJson_elim _
  · rfl

theorem entryOf_isJson {sessions : Sessions} {ctx : CallContext} {s : Value} (h : s.isJson) :
    (ofFields (entryOf b sessions ctx s)).isJson := by
  have hfield := Http.Mcp.isJson_field h
  have huser : (orDefault (field s "user") (.str [])).isJson := by
    unfold orDefault
    split_ifs
    · exact hfield "user"
    · rfl
  have hemail := lookupUserEmail_isJson sessions (orDefault (field s "user") (.str []))
  rw [Value.isJson_ofFields]
  intro kv hkv
  rcases List.mem_append.mp hkv with hkv | hkv
  · simp only [List.mem_cons, List.not_mem_nil, or_false] at hkv
    rcases hkv with rfl | rfl | rfl | rfl | rfl | rfl | rfl
    · exact hfield "session_id"
    · exact huser
    · exact hfield "repo"
    · exact hfield "agent"
    · exact hfield "session_name"
    · exact hfield "started_at"
    · rfl
  · split_ifs at hkv
    · obtain rfl := List.mem_singleton.mp hkv
      exact hemail
    · cases hkv

/-- The entries that are shown are JSON, if the sessions are. -/
theorem isJson_of_entries {sessions : Sessions} {ctx : CallContext} {includeSelf : Bool}
    {raw shown : List Value} (hraw : ∀ s ∈ raw, s.isJson)
    (h : entries b sessions ctx includeSelf raw = .ok shown) : ∀ e ∈ shown, e.isJson := by
  induction raw generalizing shown with
  | nil =>
    obtain rfl := Except.ok.inj h
    exact List.forall_mem_nil _
  | cons s rest ih =>
    rw [List.forall_mem_cons] at hraw
    rw [entries] at h
    split_ifs at h with hdict hself
    all_goals rcases hrest : entries b sessions ctx includeSelf rest with f | shown'
    all_goals rw [hrest] at h
    · cases h
    · obtain rfl := Except.ok.inj h
      exact ih hraw.2 hrest
    · cases h
    · obtain rfl := Except.ok.inj h
      exact List.forall_mem_cons.mpr ⟨entryOf_isJson hraw.1, ih hraw.2 hrest⟩

theorem listTeamSessions_isJson (args : Value) (ctx : CallContext) (w : World ρ) :
    (listTeamSessions b args ctx w).2.IsJson := by
  unfold listTeamSessions
  rcases hraw : (listSessions b w).2 with f | raw
  · simp only [hraw]
    exact listFailure_isJson f
  · simp only [hraw]
    rcases hshown : entries b w.sessions ctx (field args "include_self").truthy raw with f | shown
    · trivial
    · refine success_isJson _ ?_
      rw [Value.isJson_ofFields, List.forall_mem_cons, List.forall_mem_singleton]
      exact ⟨Value.allJson_iff.mpr (isJson_of_entries (isJson_of_listSessions hraw) hshown), rfl⟩

theorem killSessionForUser_isJson (args : Value) (ctx : CallContext) (w : World ρ) :
    (killSessionForUser b args ctx w).2.IsJson := by
  unfold killSessionForUser
  split_ifs
  · exact mcpError_isJson _
  · exact mcpError_isJson _
  · split
    · next sessionId =>
      split_ifs with hnil hreason
      · exact mcpError_isJson _
      · dsimp only
        split
        · exact killFailure_isJson _ _
        · refine success_isJson _ ?_
          rw [Value.isJson_ofFields, List.forall_mem_cons, List.forall_mem_cons,
            List.forall_mem_singleton]
          refine ⟨rfl, rfl, ?_⟩
          rcases hr : field args "reason" with _ | _ | _ | _ | _ | _ | _ | _
          all_goals first | rfl | simp [hr, Value.isNone, isString] at hreason
      · exact mcpError_isJson _
    · exact mcpError_isJson _

end Json

end Team

end OtamanBridge
