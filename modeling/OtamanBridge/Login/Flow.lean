import OtamanBridge.Http.Auth
import OtamanBridge.Lib.Dict
import OtamanBridge.Lib.Rfc3986
import OtamanBridge.Lib.Run
import OtamanBridge.Lib.Utf8

/-!
# The web login

`LoginFlow.start` and `LoginCompleter.complete` of `web_auth.py`, with the two stores they
write: the logins that were begun and not yet completed, and the sessions of
`web_session.py`. A call is a request of a browser, or a purge, in a thread of its own. Each
store has a lock, and no lock is held over two calls of the stores, so a step is one
operation of a store or one exchange with the identity provider. The clock may be set, so
it goes anywhere.

The identity provider is not trusted here: the token endpoint answers what it likes, and so
does the validator of `otaman_core`. What nothing in the program reads is the log.
-/

namespace OtamanBridge

namespace Login

open Py

open Http (Ascii Session Sessions)

/-! ### Forms -/

/-- A hexadecimal digit, in upper case. -/
def hexDigit (n : ℕ) : ℕ := if n < 10 then '0'.toNat + n else 'A'.toNat + (n - 10)

/-- `urllib.parse.quote_plus` of one byte. -/
def quoteByte (b : ℕ) : Text :=
  if Rfc3986.unreserved b then [b]
  else if b = ' '.toNat then lit "+"
  else ['%'.toNat, hexDigit (b / 16), hexDigit (b % 16)]

/-- `urllib.parse.quote_plus`, which raises on a lone surrogate. -/
def quotePlus (t : Text) : Option Text := (Utf8.encode t).map (·.flatMap quoteByte)

/-- `urllib.parse.urlencode`. -/
def urlencode (params : List (String × Text)) : Option Text :=
  (params.mapM fun (k, v) => do
    return (← quotePlus (lit k)) ++ lit "=" ++ (← quotePlus v)).map (lit "&").intercalate

/-! ### What is kept -/

/-- `DEFAULT_SCOPES`. -/
def defaultScopes : List Text :=
  [lit "openid", lit "profile", lit "email", lit "urn:zitadel:iam:org:projects:roles"]

/-- `WebAuthConfig`. -/
structure WebAuthConfig where
  issuer : Text
  clientId : Text
  redirectUri : Text
  scopes : List Text := defaultScopes
  projectId : Option Text := none

/-- `DEFAULT_PENDING_TTL`. -/
def defaultPendingTtl : Seconds := 600

/-- `DEFAULT_SESSION_TTL`. -/
def defaultSessionTtl : Seconds := 8 * 3600

/-- The configuration, the lifetimes of both stores, and what the program calls: the code
challenge of an ASCII text by the method `S256`, `str` of a value that is not a string, and
`int`. -/
structure Site where
  config : WebAuthConfig
  pendingTtl : Seconds := defaultPendingTtl
  sessionTtl : Seconds := defaultSessionTtl
  s256 : Text → Text
  str : Value → Text
  int : Value → Except Unit ℤ

/-- An entry of `_pending`. -/
structure Pending where
  codeVerifier : Text
  expiresAt : Seconds
  deriving DecidableEq

/-- `_pending`, by the states. -/
abbrev Pendings := AList fun _ : Text => Pending

/-- `StartedLogin`. -/
structure StartedLogin where
  authorizeUrl : Text
  state : Text
  codeVerifier : Text
  deriving DecidableEq

/-- The form that `exchange_code` sends to the token endpoint, without its `grant_type`. -/
structure TokenRequest where
  code : Text
  codeVerifier : Text
  clientId : Text
  redirectUri : Text
  deriving DecidableEq

/-- `TokenResponse`. -/
structure TokenResponse where
  accessToken : Text
  idToken : Value
  refreshToken : Value
  expiresIn : ℤ
  tokenType : Text

/-- What the validator returns. -/
structure ValidationResult where
  ok : Bool
  userId : Option Text := none
  email : Option Text := none
  roles : List Text := []
  error : Option Text := none
  deriving DecidableEq

/-- What a call comes to. -/
inductive Outcome
  | started (login : StartedLogin)
  | completed (sid : Text) (session : Session)
  /-- `LoginCompleteError`. -/
  | refused (message : Text)
  /-- Another exception. -/
  | raised
  | purged (n : ℕ)

/-- The stores that are purged. -/
inductive Store
  | pending
  | sessions
  deriving DecidableEq

/-- Where a call stands. -/
inductive Phase
  /-- In `start`: both random values are drawn, and `put` comes next. -/
  | drawn (state codeVerifier : Text)
  /-- In `complete`: `take` comes next. -/
  | entered (code state : Text)
  /-- `exchange_code` comes next. -/
  | exchanging (code state codeVerifier : Text)
  /-- The form is sent. -/
  | waiting (state : Text)
  /-- `validate` comes next. -/
  | validating (state : Text) (idToken : Value)
  /-- `create` comes next. -/
  | creating (state userId : Text) (email : Option Text) (roles : List Text)
  /-- In `create`, before the lock. -/
  | inserting (state sid : Text) (session : Session)
  /-- In `purge_expired`, between the clock and the lock. -/
  | purging (store : Store) (now : Seconds)
  | returned (outcome : Outcome)

/-- What has happened, in which call. -/
inductive Event (C : Type)
  /-- `start` drew a state and a verifier. -/
  | drew (c : C) (state codeVerifier : Text)
  /-- They were put into the store, at this time. -/
  | issued (c : C) (state codeVerifier : Text) (time : Seconds)
  /-- `take` returned the verifier of the state, at this time. -/
  | taken (c : C) (state codeVerifier : Text) (time : Seconds)
  /-- The form was sent to the token endpoint. -/
  | sent (c : C) (request : TokenRequest)
  /-- `exchange_code` returned. -/
  | answered (c : C) (response : TokenResponse)
  /-- `validate` returned for this header. -/
  | validated (c : C) (header : Text) (result : ValidationResult)
  /-- A session was created for the state. -/
  | created (c : C) (state sid : Text) (session : Session)

/-- The whole state; a call keeps its place when it has returned. -/
structure State (C : Type) where
  now : Seconds
  pending : Pendings
  sessions : Sessions
  calls : C → Option Phase
  log : List (Event C)

namespace State

variable {C : Type}

/-- Nothing has happened. -/
def init (now : Seconds) : State C where
  now := now
  pending := ∅
  sessions := ∅
  calls := fun _ => none
  log := []

variable (s : State C)

/-- A call gets further. -/
def move [DecidableEq C] (c : C) (phase : Phase) : State C :=
  { s with calls := Function.update s.calls c (some phase) }

/-- Note what happened. -/
def note (e : Event C) : State C := { s with log := e :: s.log }

end State

/-! ### `PendingLoginStore` and `SessionStore` -/

/-- `PendingLoginStore.take`. -/
def take (now : Seconds) (pending : Pendings) (state : Text) : Pendings × Option Text :=
  if state = [] then (pending, none)
  else
    match pending.lookup state with
    | none => (pending, none)
    | some entry =>
      (pending.erase state, if entry.expiresAt ≤ now then none else some entry.codeVerifier)

/-- `PendingLoginStore.purge_expired`, at a clock that was read before. -/
def purgePending (now : Seconds) (pending : Pendings) : Pendings :=
  Dict.keep (fun entry => now < entry.expiresAt) pending

/-- `SessionStore.purge_expired`, at a clock that was read before. -/
def purgeSessions (now : Seconds) (sessions : Sessions) : Sessions :=
  Dict.keep (fun session => now < session.expiresAt) sessions

/-- `SessionStore.delete`. -/
def deleteSession (sessions : Sessions) (sid : Text) : Sessions :=
  if sid = [] then sessions else sessions.erase sid

/-! ### `LoginFlow` and `TokenExchanger` -/

/-- `issuer.rstrip("/")`. -/
def WebAuthConfig.base (config : WebAuthConfig) : Text :=
  config.issuer.rdropWhile (· = '/'.toNat)

/-- `authorize_endpoint`. -/
def WebAuthConfig.authorizeEndpoint (config : WebAuthConfig) : Text :=
  config.base ++ lit "/oauth/v2/authorize"

/-- `effective_scopes`. -/
def WebAuthConfig.effectiveScopes (config : WebAuthConfig) : List Text :=
  match config.projectId with
  | none | some [] => config.scopes
  | some id =>
    let aud := lit "urn:zitadel:iam:org:project:id:" ++ id ++ lit ":aud"
    if aud ∈ config.scopes then config.scopes else config.scopes ++ [aud]

/-- The address the browser is sent to. -/
def WebAuthConfig.authorizeUrl (config : WebAuthConfig) (state challenge : Text) : Option Text :=
  (urlencode [("client_id", config.clientId), ("redirect_uri", config.redirectUri),
    ("response_type", lit "code"), ("scope", (lit " ").intercalate config.effectiveScopes),
    ("state", state), ("code_challenge", challenge),
    ("code_challenge_method", lit "S256")]).map
      fun query => config.authorizeEndpoint ++ lit "?" ++ query

/-- The request that `exchange_code` makes. -/
def WebAuthConfig.tokenRequest (config : WebAuthConfig) (code codeVerifier : Text) :
    TokenRequest :=
  ⟨code, codeVerifier, config.clientId, config.redirectUri⟩

/-- The body of the request. -/
def TokenRequest.body (request : TokenRequest) : Option Text :=
  urlencode [("grant_type", lit "authorization_code"), ("code", request.code),
    ("code_verifier", request.codeVerifier), ("client_id", request.clientId),
    ("redirect_uri", request.redirectUri)]

namespace Site

variable (site : Site)

/-- `str(v)`. -/
def text : Value → Text
  | .str t => t
  | v => site.str v

/-- What `exchange_code` makes of the JSON of an answer, as far as it does not raise: an
object without `error`, with an `access_token`, and with an `expires_in` that `int` takes. -/
def tokenResponse (data : Value) : Option TokenResponse :=
  match data with
  | .dict _ => do
    guard (data.get "error").isNone
    let accessToken ← data.get "access_token"
    let expiresIn ← (site.int ((data.get "expires_in").getD (.int 0))).toOption
    return {
      accessToken := site.text accessToken
      idToken := (data.get "id_token").getD .none
      refreshToken := (data.get "refresh_token").getD .none
      expiresIn
      tokenType := site.text ((data.get "token_type").getD (.str (lit "Bearer"))) }
  | _ => none

/-- What the validator is asked about. -/
def bearerHeader (idToken : Value) : Text := lit "Bearer " ++ site.text idToken

/-- What `start` returns when the login is in the store. -/
def started (state codeVerifier : Text) : Outcome :=
  match site.config.authorizeUrl state (site.s256 codeVerifier) with
  | none => .raised
  | some url => .started ⟨url, state, codeVerifier⟩

end Site

/-! ### Steps -/

/-- Where `start` stands when it has drawn its values. -/
def afterDraw (state codeVerifier : Text) : Phase :=
  if Ascii codeVerifier then .drawn state codeVerifier else .returned .raised

/-- Where `complete` stands when it has looked at its arguments. -/
def afterEntry (code state : Text) : Phase :=
  if code = [] ∨ state = [] then .returned (.refused (lit "missing code or state"))
  else .entered code state

/-- Where `complete` stands when `exchange_code` has returned. -/
def afterAnswer (state : Text) (response : TokenResponse) : Phase :=
  if response.idToken.truthy then .validating state response.idToken
  else .returned (.refused (lit "token response missing id_token"))

/-- Where `complete` stands when `validate` has returned. -/
def afterValidation (state : Text) (result : ValidationResult) : Phase :=
  if result.ok = false then
    .returned (.refused (lit "id_token validation failed: " ++ result.error.getD (lit "None")))
  else
    match result.userId with
    | none | some [] => .returned (.refused (lit "id_token has no sub claim"))
    | some userId => .creating state userId result.email result.roles

/-- What a step is told: who moves, what is drawn, and what the environment answers. -/
inductive Label (C : Type)
  /-- The clock moves. -/
  | tick (d : Seconds)
  /-- `start` is called, and draws these. -/
  | start (c : C) (state codeVerifier : Text)
  | put (c : C)
  /-- `complete` is called. -/
  | complete (c : C) (code state : Text)
  | take (c : C)
  /-- `exchange_code` calls the token endpoint. -/
  | send (c : C)
  /-- It gets this JSON, or fails. -/
  | reply (c : C) (payload : Option Value)
  /-- `validate` returns this, or raises. -/
  | validate (c : C) (result : Option ValidationResult)
  /-- `create` draws the id of the session and reads the clock. -/
  | create (c : C) (sid : Text)
  | insert (c : C)
  /-- `purge_expired` is called, and reads the clock. -/
  | purge (c : C) (store : Store)
  | sweep (c : C)
  /-- `SessionStore.get`. -/
  | get (sid : Text)
  /-- `SessionStore.delete`. -/
  | delete (sid : Text)

variable {C : Type} [DecidableEq C] (site : Site)

/-- The first step of a call. -/
def begin (s : State C) (c : C) (phase : Phase) : Option (State C) :=
  match s.calls c with
  | none => some (s.move c phase)
  | some _ => none

/-- One step. -/
def step (s : State C) : Label C → Option (State C)
  | .tick d => some { s with now := s.now + d }
  | .start c state codeVerifier =>
    (begin s c (afterDraw state codeVerifier)).map (·.note (.drew c state codeVerifier))
  | .put c =>
    match s.calls c with
    | some (.drawn state codeVerifier) =>
      some (({ s with
        pending := s.pending.insert state ⟨codeVerifier, s.now + site.pendingTtl⟩ }.move c
          (.returned (site.started state codeVerifier))).note
            (.issued c state codeVerifier s.now))
    | _ => none
  | .complete c code state => begin s c (afterEntry code state)
  | .take c =>
    match s.calls c with
    | some (.entered code state) =>
      match take s.now s.pending state with
      | (pending, none) =>
        some ({ s with pending }.move c
          (.returned (.refused (lit "unknown or expired state"))))
      | (pending, some codeVerifier) =>
        some (({ s with pending }.move c (.exchanging code state codeVerifier)).note
          (.taken c state codeVerifier s.now))
    | _ => none
  | .send c =>
    match s.calls c with
    | some (.exchanging code state codeVerifier) =>
      let request := site.config.tokenRequest code codeVerifier
      match request.body with
      | none => some (s.move c (.returned .raised))
      | some _ => some ((s.move c (.waiting state)).note (.sent c request))
    | _ => none
  | .reply c payload =>
    match s.calls c with
    | some (.waiting state) =>
      match payload.bind site.tokenResponse with
      | none => some (s.move c (.returned .raised))
      | some response =>
        some ((s.move c (afterAnswer state response)).note (.answered c response))
    | _ => none
  | .validate c result =>
    match s.calls c with
    | some (.validating state idToken) =>
      match result with
      | none => some (s.move c (.returned .raised))
      | some result =>
        some ((s.move c (afterValidation state result)).note
          (.validated c (site.bearerHeader idToken) result))
    | _ => none
  | .create c sid =>
    match s.calls c with
    | some (.creating state userId email roles) =>
      some (s.move c (.inserting state sid ⟨userId, email, roles, s.now + site.sessionTtl⟩))
    | _ => none
  | .insert c =>
    match s.calls c with
    | some (.inserting state sid session) =>
      some (({ s with sessions := s.sessions.insert sid session }.move c
        (.returned (.completed sid session))).note (.created c state sid session))
    | _ => none
  | .purge c store => begin s c (.purging store s.now)
  | .sweep c =>
    match s.calls c with
    | some (.purging .pending now) =>
      let pending := purgePending now s.pending
      some ({ s with pending }.move c
        (.returned (.purged (s.pending.entries.length - pending.entries.length))))
    | some (.purging .sessions now) =>
      let sessions := purgeSessions now s.sessions
      some ({ s with sessions }.move c
        (.returned (.purged (s.sessions.entries.length - sessions.entries.length))))
    | _ => none
  | .get sid => some { s with sessions := (s.sessions.get s.now sid).1 }
  | .delete sid => some { s with sessions := deleteSession s.sessions sid }

/-! ### What a step can do -/

variable {site : Site} {s s' : State C}

/-- The steps, by what they do. -/
inductive Step (site : Site) (s : State C) : Label C → State C → Prop
  | tick (d : Seconds) : Step site s (.tick d) { s with now := s.now + d }
  | start {c : C} {state codeVerifier : Text} (hnew : s.calls c = none) :
      Step site s (.start c state codeVerifier)
        ((s.move c (afterDraw state codeVerifier)).note (.drew c state codeVerifier))
  | put {c : C} {state codeVerifier : Text} (hat : s.calls c = some (.drawn state codeVerifier)) :
      Step site s (.put c) (({ s with
        pending := s.pending.insert state ⟨codeVerifier, s.now + site.pendingTtl⟩ }.move c
          (.returned (site.started state codeVerifier))).note
            (.issued c state codeVerifier s.now))
  | complete {c : C} {code state : Text} (hnew : s.calls c = none) :
      Step site s (.complete c code state) (s.move c (afterEntry code state))
  | miss {c : C} {code state : Text} (hat : s.calls c = some (.entered code state)) :
      Step site s (.take c) ({ s with pending := (take s.now s.pending state).1 }.move c
        (.returned (.refused (lit "unknown or expired state"))))
  | take {c : C} {code state : Text} {entry : Pending}
      (hat : s.calls c = some (.entered code state))
      (hentry : s.pending.lookup state = some entry) (hlive : s.now < entry.expiresAt) :
      Step site s (.take c) (({ s with pending := s.pending.erase state }.move c
        (.exchanging code state entry.codeVerifier)).note
          (.taken c state entry.codeVerifier s.now))
  | send {c : C} {code state codeVerifier : Text}
      (hat : s.calls c = some (.exchanging code state codeVerifier)) :
      Step site s (.send c) ((s.move c (.waiting state)).note
        (.sent c (site.config.tokenRequest code codeVerifier)))
  | sendFails {c : C} {code state codeVerifier : Text}
      (hat : s.calls c = some (.exchanging code state codeVerifier)) :
      Step site s (.send c) (s.move c (.returned .raised))
  | answer {c : C} {state : Text} {data : Value} {response : TokenResponse}
      (hat : s.calls c = some (.waiting state)) (hdata : site.tokenResponse data = some response) :
      Step site s (.reply c (some data))
        ((s.move c (afterAnswer state response)).note (.answered c response))
  | replyFails {c : C} {state : Text} {payload : Option Value}
      (hat : s.calls c = some (.waiting state)) :
      Step site s (.reply c payload) (s.move c (.returned .raised))
  | validate {c : C} {state : Text} {idToken : Value} (result : ValidationResult)
      (hat : s.calls c = some (.validating state idToken)) :
      Step site s (.validate c (some result)) ((s.move c (afterValidation state result)).note
        (.validated c (site.bearerHeader idToken) result))
  | validateFails {c : C} {state : Text} {idToken : Value}
      (hat : s.calls c = some (.validating state idToken)) :
      Step site s (.validate c none) (s.move c (.returned .raised))
  | create {c : C} {state userId : Text} {email : Option Text} {roles : List Text} (sid : Text)
      (hat : s.calls c = some (.creating state userId email roles)) :
      Step site s (.create c sid)
        (s.move c (.inserting state sid ⟨userId, email, roles, s.now + site.sessionTtl⟩))
  | insert {c : C} {state sid : Text} {session : Session}
      (hat : s.calls c = some (.inserting state sid session)) :
      Step site s (.insert c) (({ s with sessions := s.sessions.insert sid session }.move c
        (.returned (.completed sid session))).note (.created c state sid session))
  | purge {c : C} (store : Store) (hnew : s.calls c = none) :
      Step site s (.purge c store) (s.move c (.purging store s.now))
  | sweepPending {c : C} {now : Seconds} {n : ℕ}
      (hat : s.calls c = some (.purging .pending now)) :
      Step site s (.sweep c) ({ s with pending := purgePending now s.pending }.move c
        (.returned (.purged n)))
  | sweepSessions {c : C} {now : Seconds} {n : ℕ}
      (hat : s.calls c = some (.purging .sessions now)) :
      Step site s (.sweep c) ({ s with sessions := purgeSessions now s.sessions }.move c
        (.returned (.purged n)))
  | get (sid : Text) :
      Step site s (.get sid) { s with sessions := (s.sessions.get s.now sid).1 }
  | delete (sid : Text) :
      Step site s (.delete sid) { s with sessions := deleteSession s.sessions sid }

theorem begin_eq_some {c : C} {phase : Phase} (h : begin s c phase = some s') :
    s.calls c = none ∧ s' = s.move c phase := by
  unfold begin at h
  split at h
  next hnew => exact ⟨hnew, (Option.some.inj h).symm⟩
  · exact absurd h (by simp)

/-- **What `take` returns**: the verifier of an entry that has not expired, which is gone
from the store. -/
theorem take_eq {now : Seconds} {pending pending' : Pendings} {state codeVerifier : Text}
    (h : Login.take now pending state = (pending', some codeVerifier)) :
    ∃ entry, pending.lookup state = some entry ∧ now < entry.expiresAt ∧
      codeVerifier = entry.codeVerifier ∧ pending' = pending.erase state := by
  unfold Login.take at h
  split_ifs at h
  · simp at h
  · split at h
    · simp at h
    next entry hentry =>
      obtain ⟨rfl, hv⟩ := Prod.mk.inj h
      split_ifs at hv with hexpired
      exact ⟨entry, hentry, lt_of_not_ge hexpired, (Option.some.inj hv).symm, rfl⟩

/-- `take` leaves nothing in the store that was not there. -/
theorem lookup_of_take {now : Seconds} {pending : Pendings} {state state' : Text}
    {entry : Pending} (h : (Login.take now pending state).1.lookup state' = some entry) :
    pending.lookup state' = some entry := by
  unfold Login.take at h
  split_ifs at h
  · exact h
  · split at h
    · exact h
    · exact Dict.lookup_of_erase h

/-- `get` leaves nothing in the store that was not there. -/
theorem lookup_of_get {now : Seconds} {sessions : Sessions} {sid k : Text} {session : Session}
    (h : (sessions.get now sid).1.lookup k = some session) :
    sessions.lookup k = some session := by
  unfold Http.Sessions.get at h
  split_ifs at h
  · exact h
  · split at h
    · exact h
    · split_ifs at h
      · exact Dict.lookup_of_erase h
      · exact h

/-- Nor does `delete`. -/
theorem lookup_of_delete {sessions : Sessions} {sid k : Text} {session : Session}
    (h : (deleteSession sessions sid).lookup k = some session) :
    sessions.lookup k = some session := by
  unfold deleteSession at h
  split_ifs at h
  · exact h
  · exact Dict.lookup_of_erase h

/-- **Every step is one of these.** -/
theorem Step.of_step {l : Label C} (h : step site s l = some s') : Step site s l s' := by
  cases l with
  | tick d =>
    obtain rfl := Option.some.inj h
    exact .tick d
  | start c state codeVerifier =>
    obtain ⟨a, ha, rfl⟩ := Option.map_eq_some_iff.mp h
    obtain ⟨hnew, rfl⟩ := begin_eq_some ha
    exact .start hnew
  | put c =>
    simp only [step] at h
    split at h
    next hat =>
      obtain rfl := Option.some.inj h
      exact .put hat
    · exact absurd h (by simp)
  | complete c code state =>
    obtain ⟨hnew, rfl⟩ := begin_eq_some h
    exact .complete hnew
  | take c =>
    simp only [step] at h
    split at h
    next code state hat =>
      split at h
      next pending htake =>
        obtain rfl := Option.some.inj h
        have hstep : Step site s _ _ := .miss hat
        rwa [htake] at hstep
      next pending codeVerifier htake =>
        obtain rfl := Option.some.inj h
        obtain ⟨entry, hentry, hlive, rfl, rfl⟩ := take_eq htake
        exact .take hat hentry hlive
    · exact absurd h (by simp)
  | send c =>
    simp only [step] at h
    split at h
    next hat =>
      split at h
      · obtain rfl := Option.some.inj h
        exact .sendFails hat
      · obtain rfl := Option.some.inj h
        exact .send hat
    · exact absurd h (by simp)
  | reply c payload =>
    simp only [step] at h
    split at h
    next hat =>
      split at h
      · obtain rfl := Option.some.inj h
        exact .replyFails hat
      next response hdata =>
        obtain rfl := Option.some.inj h
        obtain ⟨data, rfl, hdata⟩ := Option.bind_eq_some_iff.mp hdata
        exact .answer hat hdata
    · exact absurd h (by simp)
  | validate c result =>
    simp only [step] at h
    split at h
    next hat =>
      split at h
      · obtain rfl := Option.some.inj h
        exact .validateFails hat
      · obtain rfl := Option.some.inj h
        exact .validate _ hat
    · exact absurd h (by simp)
  | create c sid =>
    simp only [step] at h
    split at h
    next hat =>
      obtain rfl := Option.some.inj h
      exact .create sid hat
    · exact absurd h (by simp)
  | insert c =>
    simp only [step] at h
    split at h
    next hat =>
      obtain rfl := Option.some.inj h
      exact .insert hat
    · exact absurd h (by simp)
  | purge c store =>
    obtain ⟨hnew, rfl⟩ := begin_eq_some h
    exact .purge store hnew
  | sweep c =>
    simp only [step] at h
    split at h
    next hat =>
      obtain rfl := Option.some.inj h
      exact .sweepPending hat
    next hat =>
      obtain rfl := Option.some.inj h
      exact .sweepSessions hat
    · exact absurd h (by simp)
  | get sid =>
    obtain rfl := Option.some.inj h
    exact .get sid
  | delete sid =>
    obtain rfl := Option.some.inj h
    exact .delete sid

end Login

end OtamanBridge
