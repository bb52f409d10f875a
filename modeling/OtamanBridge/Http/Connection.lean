import OtamanBridge.Http.Mcp
import OtamanBridge.Http.Posts
import OtamanBridge.Lib.Triple
import OtamanBridge.Lib.Utf8

/-!
# A request on its connection

`http_handler.py` and the dispatch of `routes_dcr.py`, as what they do to the connection: when
the body is read, what head is sent and what comes after it. The handlers are written as the
source writes them, one branch after the other, as computations that may raise. What a method
of the daemon does behind its route is a parameter, since everything that is said here holds
whatever it does: it changes the daemon, and returns or raises.

The path comes with what `urllib.parse` makes of it.
-/

namespace OtamanBridge

namespace Http

namespace Wire

open Py

open Value (isDict ofFields isJson)

/-! ### The connection -/

/-- An exception: an `OSError`, or another one. -/
inductive Fault
  | os
  | other
  deriving DecidableEq

/-- What is done on a connection. -/
inductive Act
  /-- `rfile.read(length)`. -/
  | read (length : ℤ)
  /-- `send_response`, the headers and `end_headers`. -/
  | head (status : ℕ) (headers : List (String × Text))
  /-- `wfile.write`. -/
  | body (bytes : List ℕ)

/-- A request: `self.path`, its route and its query, the headers, and what reading yields. -/
structure Request where
  path : Text
  /-- `urlparse(self.path).path.rstrip("/")`. -/
  route : Text
  /-- `dict(parse_qsl(urlparse(self.path).query))`. -/
  params : List (Text × Text)
  headers : Headers
  rfile : ℤ → Except Unit (List ℕ)

/-- A connection, the sessions of the web login and the rest of the daemon. -/
structure Conn (δ : Type) where
  /-- What has been done, the first first. -/
  acts : List Act
  /-- `_body_consumed`. -/
  consumed : Bool
  sessions : Sessions
  daemon : δ

/-- A connection on which nothing has been done. -/
def Conn.fresh {δ : Type} (sessions : Sessions) (daemon : δ) : Conn δ :=
  ⟨[], false, sessions, daemon⟩

/-- A computation of the handler. -/
abbrev Handler (δ α : Type) := EStateM Fault (Conn δ) α

/-- A method of the daemon. -/
abbrev Method (δ α : Type) := EStateM Fault δ α

/-- The session cookie: its name, whether it is secure, and the lifetime of a session. -/
structure Cookie where
  name : Text
  secure : Bool
  ttl : ℕ

/-- What `LoginCompleter.complete` ends with. -/
inductive Completion
  | session (sid : Text) (sessions : Sessions)
  /-- A `LoginCompleteError`, with its text. -/
  | incomplete (text : Text)
  /-- A `TokenExchangeError`. -/
  | exchange (text : Text)
  /-- Another exception. -/
  | failed (text : Text)

/-- A reply of a method, or the status and the text of an error. -/
abbrev Answer := Except (ℕ × Text) Value

/-- The daemon, as the handler sees it. -/
structure Daemon (δ : Type) where
  /-- `int(t)`, or its `ValueError`. -/
  int : Text → Option ℤ
  loads : List ℕ → Except Posts.LoadError Value
  /-- `json.dumps(v).encode("utf-8")`, of what can be dumped. -/
  dumps : Value → List ℕ
  /-- `repr(t)`. -/
  repr : Text → Text
  /-- `session_store` and `session_cookie`. -/
  cookie : Option Cookie
  /-- `_ee_dcr_try_handle` is there. -/
  ee : Bool
  identify : Headers → Method δ (Option CallContext)
  /-- The challenge to a host, of `challenge_with_error` or `challenge`. -/
  challenge : Text → Text → Method δ (Option Text)
  /-- The secret of the webhook, stripped. -/
  webhookSecret : Text
  /-- `mcp_server.handle_request`. -/
  mcp : Value → CallContext → Method δ Value
  /-- `handle_inbound_webhook`. -/
  pmSync : Value → Method δ Value
  login : Value → Method δ (ℕ × Value)
  refresh : Value → Method δ (ℕ × Value)
  attach : Text → Value → Method δ (ℕ × Value)
  approval : Value → Method δ (ℕ × Value)
  notify : Value → Method δ (ℕ × Value)
  reply : Value → Method δ (ℕ × Value)
  shutdown : Method δ (ℕ × Value)
  /-- The DCR shim is enabled. -/
  dcrShim : Bool
  /-- `registration_trust` is `protected`. -/
  trustProtected : Bool
  /-- `_handle_oauth_register`, from the body on. -/
  register : Value → Method δ (ℕ × Value)
  /-- `_handle_protected_resource`, up to the reply. -/
  protectedResource : Headers → Method δ Answer
  /-- `_handle_authorization_server`, up to the reply. -/
  authorizationServer : Headers → Method δ Answer
  status : Method δ (ℕ × Value)
  healthz : Method δ (ℕ × Value)
  /-- `web_login_flow.start().authorize_url`, where there is a flow. -/
  startLogin : Option (Method δ Text)
  /-- `login_completer.complete`, where there is one. -/
  complete : Option (Text → Text → Sessions → Method δ Completion)
  /-- The time of the session store. -/
  now : Seconds

variable {δ : Type} (d : Daemon δ) (r : Request)

/-- A method of the daemon is called. -/
def call {α : Type} (m : Method δ α) : Handler δ α := fun c =>
  match m c.daemon with
  | .ok a daemon => .ok a { c with daemon }
  | .error e daemon => .error e { c with daemon }

/-- Something is done on the connection. -/
def act (a : Act) : Handler δ Unit := modify fun c => { c with acts := c.acts ++ [a] }

/-- `self._body_consumed = True`. -/
def consume : Handler δ Unit := modify fun c => { c with consumed := true }

/-! ### The body -/

/-- `int(self.headers.get("Content-Length", "0") or "0")`. -/
def contentLength : Option ℤ :=
  d.int (if r.headers.get "Content-Length" = [] then lit "0" else r.headers.get "Content-Length")

/-- The length, or its `ValueError`. -/
def length : Handler δ ℤ :=
  match contentLength d r with
  | some n => pure n
  | none => throw .other

/-- `self.rfile.read(length)`. -/
def readRaw (n : ℤ) : Handler δ (List ℕ) := do
  act (.read n)
  match r.rfile n with
  | .ok bytes => pure bytes
  | .error () => throw .os

/-- `_drain_body`. -/
def drainBody : Handler δ Unit := do
  let c ← get
  if c.consumed then pure ()
  else
    let n ← length d r
    if 0 < n then
      let _ ← readRaw r n
      consume
    else consume

/-- `_drain_body`, where an `OSError` is passed over. -/
def drainQuietly : Handler δ Unit := fun c =>
  match drainBody d r c with
  | .error .os c' => .ok () c'
  | out => out

/-- What `_read_body` makes of the bytes: `null` is like no JSON. -/
def parseBody (bytes : List ℕ) : Handler δ (Option Value) :=
  match d.loads bytes with
  | .error .decode => pure none
  | .error .other => throw .other
  | .ok v => pure (if v.isNone then none else some v)

/-- `_read_body`. -/
def readBody : Handler δ (Option Value) := do
  let n ← length d r
  if n = 0 then
    consume
    pure (some (.dict []))
  else
    let bytes ← readRaw r n
    consume
    parseBody d bytes

/-! ### Replies -/

/-- The header that ends the connection. -/
def closes : String × Text := ("Connection", lit "close")

/-- The header about a body of this length. -/
def announces (n : ℕ) : String × Text := ("Content-Length", decimal n)

/-- `json.dumps(v).encode("utf-8")`, or its `TypeError`. -/
def dump (v : Value) : Handler δ (List ℕ) :=
  if isJson v then pure (d.dumps v) else throw .other

/-- The headers of a JSON reply. -/
def jsonHeaders (payload : List ℕ) : List (String × Text) :=
  [("Content-Type", lit "application/json"), announces payload.length, closes]

/-- `_reply_json`. -/
def replyJson (status : ℕ) (v : Value) : Handler δ Unit := do
  let payload ← dump d v
  act (.head status (jsonHeaders payload))
  act (.body payload)

/-- The JSON of an error. -/
def errorJson (message : Text) : Value := ofFields [("error", .str message)]

/-- `_reply_error`. -/
def replyError (status : ℕ) (message : Text) : Handler δ Unit := do
  drainQuietly d r
  replyJson d status (errorJson message)

/-- `_reply_unauthenticated`. -/
def replyUnauthenticated (error description : Text) : Handler δ Unit := do
  drainQuietly d r
  let payload ← dump d (errorJson description)
  let challenge ← call (d.challenge (r.headers.get "Host") error)
  act (.head 401 (jsonHeaders payload ++ challenge.toList.map fun t => ("WWW-Authenticate", t)))
  act (.body payload)

/-- The headers of a redirect, with those that are its own. -/
def redirectHeaders (location : Text) (cookie : List Text) : List (String × Text) :=
  ("Location", location) :: cookie.map (fun t => ("Set-Cookie", t)) ++
    [("Cache-Control", lit "no-store"), announces 0, closes]

/-- A redirect. -/
def redirect (location : Text) (cookie : List Text) : Handler δ Unit :=
  act (.head 302 (redirectHeaders location cookie))

/-! ### Cookies -/

/-- The attributes of the cookie. -/
def Cookie.attributes (c : Cookie) (value : Text) (maxAge : ℕ) : List Text :=
  [c.name ++ lit "=" ++ value, lit "Path=/", lit "HttpOnly", lit "SameSite=Lax",
    lit "Max-Age=" ++ decimal maxAge] ++ if c.secure then [lit "Secure"] else []

/-- `set_header`. -/
def Cookie.setHeader (c : Cookie) (sid : Text) : Text :=
  (lit "; ").intercalate (c.attributes sid c.ttl)

/-- `clear_header`. -/
def Cookie.clearHeader (c : Cookie) : Text := (lit "; ").intercalate (c.attributes [] 0)

/-- `session_store.delete`. -/
def deleteSession (sid : Text) : Handler δ Unit :=
  modify fun c => { c with sessions := c.sessions.erase sid }

/-- `session_store.get`. -/
def getSession (sid : Text) : Handler δ (Option Session) := fun c =>
  .ok (c.sessions.get d.now sid).2 { c with sessions := (c.sessions.get d.now sid).1 }

/-! ### `POST` -/

/-- `_pm_sync_webhook_auth_ok`: the status and the message, if it is not. -/
def pmSyncAuth : Handler δ (Option (ℕ × Text)) :=
  if d.webhookSecret = [] then pure (some (503, lit "pm-sync webhook auth not configured"))
  else
    let provided := ((bearer r.headers).map strip).getD []
    let refused := some (401, lit "invalid or missing pm-sync webhook secret")
    if provided = [] then pure refused
    else if ¬(Ascii provided ∧ Ascii d.webhookSecret) then throw .other
    else pure (if provided = d.webhookSecret then none else refused)

/-- `POST /mcp`. -/
def postMcp : Handler δ Unit := do
  match ← call (d.identify r.headers) with
  | none => replyUnauthenticated d r (lit "invalid_token") (lit "unauthorized")
  | some ctx =>
    match ← readBody d r with
    | none => replyJson d 200 (Mcp.errorResponse .none Mcp.parseError (lit "invalid JSON") none)
    | some body =>
      match Mcp.identityGate body ctx with
      | .error () => throw .other
      | .ok (some name) =>
        replyUnauthenticated d r (lit "insufficient_scope")
          (lit "tool " ++ d.repr name ++ lit " requires authenticated user")
      | .ok none =>
        let response ← call (d.mcp body ctx)
        replyJson d 200 response

/-- `POST /auth/logout`. -/
def postLogout : Handler δ Unit :=
  match d.cookie with
  | none => replyError d r 503 (lit "web login flow not configured")
  | some cookie => do
    drainBody d r
    match parseCookie cookie.name (r.headers.get "Cookie") with
    | none => redirect (lit "/") [cookie.clearHeader]
    | some sid =>
      deleteSession sid
      redirect (lit "/") [cookie.clearHeader]

/-- A route that takes a body: what is made of it is the reply. -/
def withBody (handle : Value → Method δ (ℕ × Value)) : Handler δ Unit := do
  match ← readBody d r with
  | none => replyError d r 400 (lit "invalid JSON body")
  | some body =>
    let out ← call (handle body)
    replyJson d out.1 out.2

/-- `POST /pm-sync/…`. -/
def postPmSync : Handler δ Unit := do
  match ← pmSyncAuth d r with
  | some refused => replyError d r refused.1 refused.2
  | none => withBody d r fun body => do return (200, ← d.pmSync body)

/-- The internal routes: any caller that is identified may use them. -/
def postControl (handle : Value → Method δ (ℕ × Value)) : Handler δ Unit := do
  match ← call (d.identify r.headers) with
  | none => replyError d r 401 (lit "invalid or missing bearer token")
  | some _ => withBody d r handle

/-- The trust gate of the registration. -/
def admitted : Handler δ Bool :=
  if d.trustProtected then do
    let ctx ← call (d.identify r.headers)
    pure (ctx.any fun ctx => ctx.userId ≠ [])
  else pure true

/-- `_handle_oauth_register`. -/
def postRegister : Handler δ Unit :=
  if ¬d.dcrShim then replyError d r 404 (lit "DCR shim not enabled")
  else do
    let ok ← admitted d r
    if ¬ok then
      replyUnauthenticated d r (lit "invalid_token")
        (lit "DCR shim requires authenticated user when trust=protected")
    else
      match ← readBody d r with
      | none => replyJson d 400 (ofFields [("error", .str (lit "invalid_client_metadata")),
          ("error_description", .str (lit "request body is not valid JSON"))])
      | some body =>
        let out ← call (d.register body)
        replyJson d out.1 out.2

/-- The 404 about a path. -/
def unknownRoute : Handler δ Unit := replyError d r 404 (lit "unknown route: " ++ r.path)

/-- `do_POST`. -/
def doPost : Handler δ Unit :=
  if d.ee ∧ r.route = lit "/oauth/register" then postRegister d r
  else if r.route = lit "/mcp" then postMcp d r
  else if r.route = lit "/auth/logout" then postLogout d r
  else if (lit "/pm-sync/").isPrefixOf r.route then postPmSync d r
  else if r.route = lit "/api/auth/login" then withBody d r d.login
  else if r.route = lit "/api/auth/refresh" then withBody d r d.refresh
  else if r.route = lit "/api/terminal/attach-token" then
    withBody d r (d.attach (r.headers.get "Authorization"))
  else if r.route = lit "/approval" then postControl d r d.approval
  else if r.route = lit "/notify" then postControl d r d.notify
  else if r.route = lit "/reply" then postControl d r d.reply
  else if r.route = lit "/shutdown" then postControl d r fun _ => d.shutdown
  else unknownRoute d r

/-! ### `GET` -/

/-- `html.escape` of one character. -/
def escapeChar (c : ℕ) : Text :=
  if c = '&'.toNat then lit "&amp;"
  else if c = '<'.toNat then lit "&lt;"
  else if c = '>'.toNat then lit "&gt;"
  else if c = '"'.toNat then lit "&quot;"
  else if c = '\''.toNat then lit "&#x27;"
  else [c]

/-- `html.escape`. -/
def escape (t : Text) : Text := t.flatMap escapeChar

/-- `sess.email or "(no email)"`. -/
def emailOf (s : Session) : Text :=
  if s.email.getD [] = [] then lit "(no email)" else s.email.getD []

/-- What the page says about a session. -/
def sessionHtml (s : Session) : Text :=
  lit "<p>Logged in as <strong>" ++ escape (emailOf s) ++ lit "</strong></p>" ++
    lit "<dl><dt>user_id</dt><dd>" ++ escape s.userId ++ lit "</dd>" ++
    lit "<dt>roles</dt><dd>" ++
    escape (if s.roles = [] then lit "(none)" else (lit ", ").intercalate s.roles) ++
    lit "</dd></dl>" ++ lit "<form method=\"post\" action=\"/auth/logout\">" ++
    lit "<button type=\"submit\">Log out</button></form>"

/-- What it says without one. -/
def anonymousHtml : Text :=
  lit "<p>Not logged in.</p>" ++ lit "<p><a href=\"/auth/login\">Log in with Zitadel</a></p>"

/-- What it says where there is no web login. -/
def unconfiguredHtml : Text :=
  lit "<p>Web login flow is not configured " ++ lit "(loopback bearer only).</p>" ++
    lit "<p>Set OTAMAN_AUTH_MODE, OIDC_ISSUER, " ++ lit "OIDC_BRIDGE_WEB_CLIENT_ID, " ++
    lit "OIDC_BRIDGE_REDIRECT_URI " ++ lit "and restart the daemon.</p>"

/-- The page around it. -/
def page (inner : Text) : Text :=
  lit "<!DOCTYPE html><html><head>" ++ lit "<meta charset=\"utf-8\">" ++
    lit "<title>otaman bridge</title>" ++ lit "</head><body>" ++ lit "<h1>otaman bridge</h1>" ++
    inner ++ lit "</body></html>"

/-- `_render_root_html`. -/
def renderRootHtml : Handler δ Text :=
  match d.cookie with
  | none => pure (page unconfiguredHtml)
  | some cookie =>
    match parseCookie cookie.name (r.headers.get "Cookie") with
    | none => pure (page anonymousHtml)
    | some sid => do
      match ← getSession d sid with
      | none => pure (page anonymousHtml)
      | some s => pure (page (sessionHtml s))

/-- The headers of the page: the length is the one of the text. -/
def htmlHeaders (html : Text) : List (String × Text) :=
  [("Content-Type", lit "text/html; charset=utf-8"), announces html.length, closes]

/-- `GET /`. -/
def getRoot : Handler δ Unit := do
  let html ← renderRootHtml d r
  act (.head 200 (htmlHeaders html))
  match Utf8.encode html with
  | none => throw .other
  | some bytes => act (.body bytes)

/-- A route that takes no body. -/
def withoutBody (handle : Method δ (ℕ × Value)) : Handler δ Unit := do
  let out ← call handle
  replyJson d out.1 out.2

/-- A metadata route. -/
def getMetadata (handle : Headers → Method δ Answer) : Handler δ Unit := do
  match ← call (handle r.headers) with
  | .error refused => replyError d r refused.1 refused.2
  | .ok v => replyJson d 200 v

/-- `GET /auth/login`. -/
def getLogin : Handler δ Unit :=
  match d.startLogin with
  | none => replyError d r 503 (lit "web login flow not configured")
  | some start => do
    let url ← call start
    redirect url []

/-- The browser gets the cookie of its session. -/
def welcome (sid : Text) : Handler δ Unit :=
  match d.cookie with
  | none => throw .other
  | some cookie => redirect (lit "/") [cookie.setHeader sid]

/-- `GET /auth/callback`. -/
def getCallback : Handler δ Unit :=
  match d.complete with
  | none => replyError d r 503 (lit "web login flow not configured")
  | some complete =>
    match r.params.lookup (lit "error") with
    | some error => replyError d r 400 (lit "oauth error: " ++ error)
    | none =>
      let code := (r.params.lookup (lit "code")).getD []
      let state := (r.params.lookup (lit "state")).getD []
      if code = [] ∨ state = [] then replyError d r 400 (lit "missing code or state")
      else do
        let c ← get
        match ← call (complete code state c.sessions) with
        | .incomplete text => replyError d r 400 (lit "login failed: " ++ text)
        | .exchange text => replyError d r 502 (lit "token endpoint failed: " ++ text)
        | .failed text => replyError d r 502 (lit "auth callback failed: " ++ text)
        | .session sid sessions =>
          modify fun c => { c with sessions }
          welcome d sid

/-- `do_GET`. -/
def doGet : Handler δ Unit :=
  if d.ee ∧ r.route = lit "/.well-known/oauth-protected-resource" then
    getMetadata d r d.protectedResource
  else if d.ee ∧ (r.route = lit "/.well-known/oauth-authorization-server" ∨
      r.route = lit "/.well-known/openid-configuration") then
    getMetadata d r d.authorizationServer
  else if r.route = lit "/status" then withoutBody d d.status
  else if r.route = lit "/healthz" then withoutBody d d.healthz
  else if r.route = [] then getRoot d r
  else if r.route = lit "/auth/login" then getLogin d r
  else if r.route = lit "/auth/callback" then getCallback d r
  else unknownRoute d r

/-- The methods that are served. -/
inductive Verb
  | get
  | post
  deriving DecidableEq

/-- A request is served. -/
def serve : Verb → Handler δ Unit
  | .get => doGet d r
  | .post => doPost d r

end Wire

end Http

end OtamanBridge
