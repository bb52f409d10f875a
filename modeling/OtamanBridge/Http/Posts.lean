import OtamanBridge.Dcr.Registration
import OtamanBridge.Dcr.Types
import OtamanBridge.Http.Bodies
import OtamanBridge.Http.Mcp
import OtamanBridge.Lib.Dict

/-!
# Six routes, from the header to the response

`POST` to `/approval`, `/notify`, `/reply`, `/api/auth/login`, `/api/auth/refresh` and
`/oauth/register`, each followed from the `Authorization` header and the bytes of the body to
its response: the gate, `_read_body`, and the handler with what it works on, the table of
pending approvals and the store of refresh tokens.

No handler checks the types of the values it gets, except that of `/oauth/register`. What a
wrong value leads to is found out by use: a key that has no hash, a time that cannot be added,
a text that no credential is. So whether every request is answered, and every wrong one
refused, is said route by route (`OtamanBridge.Http.Posts.answers_iff`).
-/

namespace OtamanBridge

namespace Http

namespace Posts

open Py

open Value (isDict isText field hashable)

open Inbox (Encodable)

open Dcr (RegisterRequest parseRegisterRequest fingerprintText)

/-! ### What the handlers work on -/

/-- The routes. -/
inductive Route
  | approval
  | notify
  | reply
  | login
  | refresh
  | register
  deriving DecidableEq

/-- A slot of the table of pending approvals: its key, and the response. -/
structure Slot where
  key : Value
  response : Option Value

/-- A record of the store of refresh tokens. -/
structure Token where
  username : Text
  exp : ℤ

/-- `_records`, by the hash of the token. -/
abbrev Records := AList fun _ : Text => Token

/-- What a request may change. -/
structure Site where
  auth : AuthStack
  pending : List Slot
  records : Records

/-- The pending approvals and the refresh tokens are the same. -/
def Site.Same (s s' : Site) : Prop := s'.pending = s.pending ∧ s'.records = s.records

/-- What the manager of the web auth raises: an `AuthError`, or another exception. -/
inductive AuthFailure
  | auth
  | other
  deriving DecidableEq

/-- What the IdP makes of a registration. -/
inductive Upstream
  /-- There is no management client. -/
  | unconfigured
  | created
  /-- A `ZitadelMgmtError`. -/
  | mgmtError
  /-- Another exception. -/
  | raised
  deriving DecidableEq

/-- The daemon's settings, and what Python and the others answer during a request. -/
structure World where
  loads : List ℕ → Except LoadError Value
  /-- `str(v)` of a value that is not a string. -/
  str : Value → Text
  /-- `repr(v)`. -/
  repr : Value → Text
  /-- `a == b`, of keys. -/
  same : Value → Value → Bool
  /-- The time of the auth providers. -/
  now : Seconds
  newRequestId : Text
  /-- The transport sends the request, and does not raise. -/
  sends : Bool
  /-- Somebody decides before the deadline. -/
  decided : Bool
  /-- `ce_web_auth` is there and enabled. -/
  webAuth : Bool
  /-- `CeAuthManager.login`. -/
  login : Text → Text → Except AuthFailure Unit
  /-- `issue_session_token` does not raise. -/
  issuesSession : Text → Bool
  sha256 : Text → Text
  ttl : ℤ
  /-- What `_now` returns, in the order of the calls. -/
  pruneTime : ℤ
  checkTime : ℤ
  issueTime : ℤ
  newToken : Text
  /-- `_save` does not raise. -/
  saves : Bool
  /-- The EE package is there, and the shim is enabled. -/
  dcrShim : Bool
  /-- `registration_trust` is `protected`. -/
  trustProtected : Bool
  /-- `get_or_build_dcr_mgmt_client` and `find_or_create_client`, from the fingerprint on. -/
  upstream : RegisterRequest → Upstream

/-- What becomes of a request. -/
inductive Ending
  | answered (code : ℕ)
  /-- An exception ends the connection. -/
  | raised
  /-- The handler waits for a deadline that never comes. -/
  | waiting
  deriving DecidableEq

/-- A response of the 400s. -/
def Ending.Refusal (e : Ending) : Prop := ∃ code, e = .answered code ∧ 400 ≤ code ∧ code < 500

section

variable (w : World) (s : Site)

/-- `str(v)`. -/
def World.text : Value → Text
  | .str t => t
  | v => w.str v

/-! ### Approvals -/

/-- From here on an integer is no float. -/
def floatLimit : ℕ := 2 ^ 1024 - 2 ^ 970

/-- `time.monotonic() + v` does not raise. -/
def addsToClock : Value → Bool
  | .int n => n.natAbs < floatLimit
  | .bool _ => true
  | .float _ => true
  | _ => false

/-- The deadline comes. -/
def ends : Value → Bool
  | .float repr => repr ∉ ["nan", "inf"]
  | _ => true

/-- `_pending.get(key)`. -/
def Site.slot (key : Value) : Option Slot := s.pending.find? fun x => w.same x.key key

/-- `_pending[key] = pending`. -/
def Site.put (key : Value) : Site :=
  { s with pending :=
      if (s.slot w key).isSome then
        s.pending.map fun x => if w.same x.key key then ⟨x.key, none⟩ else x
      else s.pending ++ [⟨key, none⟩] }

/-- `_pending.pop(key, None)`. -/
def Site.pop (key : Value) : Site :=
  { s with pending := s.pending.filter fun x => !w.same x.key key }

/-- `handle_approval`. -/
def handleApproval (body : Value) : Site × Ending :=
  match (approvalRequest w.newRequestId).fromDict body with
  | .error () => (s, .answered 400)
  | .ok req =>
    let requestId := field req "request_id"
    let timeout := field req "timeout_seconds"
    if addsToClock timeout then
      if hashable requestId then
        let s := s.put w requestId
        if w.sends && !w.decided && !ends timeout then (s, .waiting)
        else (s.pop w requestId, .answered 200)
      else (s, .raised)
    else (s, .raised)

/-! ### Notices and replies -/

/-- `handle_notify`. -/
def handleNotify (body : Value) : Site × Ending :=
  match infoMessage.fromDict body with
  | .error () => (s, .answered 400)
  | .ok _ => (s, .answered 202)

/-- `resolve`, of the slot with this key. -/
def Site.resolve (key response : Value) : Site :=
  { s with pending := s.pending.map fun x =>
      if w.same x.key key then { x with response := some response } else x }

/-- `handle_reply`. -/
def handleReply (body : Value) : Site × Ending :=
  if isDict body then
    let requestId := field body "request_id"
    if requestId.truthy then
      match approvalResponse.fromDict body with
      | .error () => (s, .answered 400)
      | .ok response =>
        if hashable requestId then
          match s.slot w requestId with
          | none => (s, .answered 404)
          | some _ => (s.resolve w requestId response, .answered 200)
        else (s, .raised)
    else (s, .answered 400)
  else (s, .raised)

/-! ### The web auth -/

/-- `_prune`. -/
def prune (records : Records) : Records := Dict.keep (fun t => w.pruneTime < t.exp) records

/-- `username`. -/
def username (body : Value) : Text := strip (w.text ((body.get "username").getD (.str [])))

/-- `password`. -/
def password (body : Value) : Text := w.text ((body.get "password").getD (.str []))

/-- `login_response`. -/
def handleCeLogin (body : Value) : Site × Ending :=
  if w.webAuth then
    if isDict body then
      if username w body = [] ∨ password w body = [] then (s, .answered 400)
      else
        match w.login (username w body) (password w body) with
        | .error .auth => (s, .answered 401)
        | .error .other => (s, .answered 500)
        | .ok () =>
          let token : Token := ⟨username w body, w.issueTime + w.ttl⟩
          ({ s with records := (prune w s.records).insert (w.sha256 w.newToken) token },
            .answered (if w.saves then 200 else 500))
    else (s, .raised)
  else (s, .answered 404)

/-- Why a refresh raises: a `RefreshError`, or another exception. -/
inductive RefreshFailure
  | refresh
  | other
  deriving DecidableEq

/-- `consume_and_rotate`: the user. -/
def consumeAndRotate (raw : Text) (records : Records) : Records × Except RefreshFailure Text :=
  let records := prune w records
  if Encodable raw then
    match records.lookup (w.sha256 raw) with
    | none => (records, .error .refresh)
    | some token =>
      let records := records.erase (w.sha256 raw)
      if token.exp ≤ w.checkTime then (records, .error (if w.saves then .refresh else .other))
      else
        (records.insert (w.sha256 w.newToken) ⟨token.username, w.issueTime + w.ttl⟩,
          if w.saves then .ok token.username else .error .other)
  else (records, .error .other)

/-- `revoke_user`. -/
def revokeUser (user : Text) (records : Records) : Records :=
  Dict.keep (fun t => t.username ≠ user) records

/-- `refresh`. -/
def refresh (raw : Text) (records : Records) : Records × Except RefreshFailure Unit :=
  match consumeAndRotate w raw records with
  | (records, .error e) => (records, .error e)
  | (records, .ok user) =>
    if w.issuesSession user then (records, .ok ())
    else (revokeUser user records, .error (if w.saves then .refresh else .other))

/-- `refresh_token`. -/
def refreshToken (body : Value) : Text :=
  strip (w.text ((body.get "refresh_token").getD (.str [])))

/-- `refresh_response`. -/
def handleCeRefresh (body : Value) : Site × Ending :=
  if w.webAuth then
    if isDict body then
      if refreshToken w body = [] then (s, .answered 400)
      else
        match refresh w (refreshToken w body) s.records with
        | (records, .ok ()) => ({ s with records := records }, .answered 200)
        | (records, .error .refresh) => ({ s with records := records }, .answered 401)
        | (records, .error .other) => ({ s with records := records }, .answered 500)
    else (s, .raised)
  else (s, .answered 404)

/-! ### Registration -/

/-- `_handle_oauth_register`, from the body on. -/
def handleOauthRegister (body : Value) : Ending :=
  match parseRegisterRequest w.repr body with
  | .error (.dcr _ _) => .answered 400
  | .error (.type _) => .raised
  | .ok request =>
    match w.upstream request with
    | .unconfigured => .answered 503
    | .created => if Encodable (fingerprintText request) then .answered 201 else .raised
    | .mgmtError => if Encodable (fingerprintText request) then .answered 502 else .raised
    | .raised => .raised

/-! ### The routes -/

/-- The handler of a route. -/
def handle (body : Value) : Route → Site × Ending
  | .approval => handleApproval w s body
  | .notify => handleNotify s body
  | .reply => handleReply w s body
  | .login => handleCeLogin w s body
  | .refresh => handleCeRefresh w s body
  | .register => (s, handleOauthRegister w body)

/-- The route asks who calls. -/
def guarded : Route → Bool
  | .approval => true
  | .notify => true
  | .reply => true
  | .login => false
  | .refresh => false
  | .register => w.trustProtected

/-- The caller may go on. -/
def admits (route : Route) : Option CallContext → Bool
  | none => false
  | some ctx => route ≠ .register || ctx.userId ≠ []

/-- What comes after the gate. -/
def received (route : Route) (bytes : List ℕ) : Site × Ending :=
  match readBody w.loads bytes with
  | .raises => (s, .raised)
  | .invalid => (s, .answered 400)
  | .json v => handle w s v route

/-- `do_POST`, on these routes. -/
def post (route : Route) (headers : Headers) (bytes : List ℕ) : Site × Ending :=
  if route = .register ∧ ¬w.dcrShim then (s, .answered 404)
  else if guarded w route then
    match s.auth.identify w.now headers with
    | (auth, .error _) => ({ s with auth := auth }, .raised)
    | (auth, .ok ctx) =>
      if admits route ctx then received w { s with auth := auth } route bytes
      else ({ s with auth := auth }, .answered 401)
  else received w s route bytes

end

/-! ### What is asked of an answer -/

section

variable (w : World) (s : Site)

/-- The field is a string. -/
def IsString (body : Value) (key : String) : Prop := ∃ t, body.get key = some (.str t)

/-- **The body is what the route declares**: the fields that it needs are there, and of their
types. -/
def Declared (body : Value) : Route → Prop
  | .approval => WellTyped (approvalRequest w.newRequestId) body
  | .notify => WellTyped infoMessage body
  | .reply => WellTyped approvalResponse body
  | .login => isDict body ∧ IsString body "username" ∧ IsString body "password"
  | .refresh => isDict body ∧ IsString body "refresh_token"
  | .register => Dcr.Declared body

/-- The body is no JSON, or is not what the route declares. -/
def Malformed (route : Route) : Body → Prop
  | .raises => True
  | .invalid => True
  | .json v => ¬Declared w v route

/-- The route is served. -/
def Served (route : Route) : Prop := route = .register → w.dcrShim

/-- **The header is accepted**: the route does not ask for one, or it is of somebody who may
call. -/
def Accepts (route : Route) (headers : Headers) : Prop :=
  Served w route → guarded w route →
    ∃ ctx, (s.auth.identify w.now headers).2 = .ok (some ctx) ∧ admits route (some ctx)

/-- **The request is answered as it should be**: with one response, which is a 401 if the
header is not accepted, and a refusal if the body is malformed; and where it is one of these,
the approvals and the tokens are the same. -/
structure Answers (route : Route) (headers : Headers) (bytes : List ℕ) : Prop where
  one : ∃ code, (post w s route headers bytes).2 = .answered code
  unaccepted : ¬Accepts w s route headers →
    (post w s route headers bytes).2 = .answered 401 ∧ s.Same (post w s route headers bytes).1
  malformed : Accepts w s route headers → Malformed w route (readBody w.loads bytes) →
    (post w s route headers bytes).2.Refusal ∧ s.Same (post w s route headers bytes).1

/-! ### What it takes -/

/-- **What a handler can do with a body**: what it does not check, it does not stumble over,
nor take for what it is not. -/
def Sound (body : Value) : Route → Prop
  | .approval => (approvalRequest w.newRequestId).takes body →
      WellTyped (approvalRequest w.newRequestId) body ∧
        addsToClock ((body.get "timeout_seconds").getD (.int 540))
  | .notify => infoMessage.takes body → WellTyped infoMessage body
  | .reply => isDict body ∧ ((field body "request_id").truthy → approvalResponse.takes body →
      hashable (field body "request_id") ∧ ((s.slot w (field body "request_id")).isSome →
        WellTyped approvalResponse body))
  | .login => w.webAuth → isDict body ∧ (IsString body "username" ∧ IsString body "password" ∨
      username w body = [] ∨ password w body = [] ∨
      w.login (username w body) (password w body) = .error .auth)
  | .refresh => w.webAuth → isDict body ∧ (IsString body "refresh_token" ∨
      refreshToken w body = [] ∨ Encodable (refreshToken w body) ∧ prune w s.records = s.records ∧
        s.records.lookup (w.sha256 (refreshToken w body)) = none)
  | .register => (isDict body → Dcr.Hashes w.repr body) ∧
      ∀ request, parseRegisterRequest w.repr body = .ok request →
        w.upstream request ≠ .raised ∧
          (w.upstream request = .unconfigured ∨ Encodable (fingerprintText request))

/-- **What it takes**: the header does not make the gate raise, and where it is accepted, the
body can be read, and the handler can do with it. -/
def Answerable (route : Route) (headers : Headers) (bytes : List ℕ) : Prop :=
  Served w route →
    (guarded w route → (s.auth.identify w.now headers).2 ≠ .error ()) ∧
      (Accepts w s route headers → readBody w.loads bytes ≠ .raises ∧
        ∀ v, readBody w.loads bytes = .json v → Sound w s v route)

/-! ### The handlers -/

end

variable {w : World} {s : Site} {body : Value}

@[simp]
theorem refusal_answered_iff {code : ℕ} :
    (Ending.answered code).Refusal ↔ 400 ≤ code ∧ code < 500 := by
  constructor
  · rintro ⟨code', heq, hrange⟩
    rw [Ending.answered.inj heq]
    exact hrange
  · exact fun hrange => ⟨code, rfl, hrange⟩

variable {route : Route} {headers : Headers} {bytes : List ℕ}

end Posts

end Http

end OtamanBridge
