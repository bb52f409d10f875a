import Mathlib.Data.List.AList
import OtamanBridge.Core
import OtamanBridge.Lib.PyLines

/-!
# Who a request comes from

The providers of `auth.py` and `auth_oidc.py`, the session store and the session cookie
they read, and the chain `AuthStack` puts them in. The first provider that knows the
caller answers, so a request is identified exactly when it presents one of three
credentials (`OtamanBridge.Http.AuthStack.identify_isSome_iff`), a bearer token that the
OIDC validator accepts, the cookie of a live session, or the token of the daemon, and the
validator, which is asked about every bearer token first, does not raise.
-/

namespace OtamanBridge

namespace Http

open Py

/-! ### Headers -/

/-- The headers of a request. -/
abbrev Headers := List (Text × Text)

/-- `headers.get(name, "")`. -/
def Headers.get (headers : Headers) (name : String) : Text :=
  ((headers.find? fun kv => lower kv.1 = lower (lit name)).map Prod.snd).getD []

/-- The text after `Bearer `, if the header begins so. -/
def bearer (headers : Headers) : Option Text :=
  let header := headers.get "Authorization"
  if (lit "Bearer ").isPrefixOf header then some (header.drop 7) else none

/-! ### Sessions of the web login -/

/-- `Session`. -/
structure Session where
  userId : Text
  email : Option Text
  roles : List Text
  expiresAt : Seconds

/-- The sessions of a `SessionStore`, by their ids. -/
abbrev Sessions := AList fun _ : Text => Session

/-- `SessionStore.get`: an expired session is forgotten when it is asked for. -/
def Sessions.get (now : Seconds) (sessions : Sessions) (sid : Text) :
    Sessions × Option Session :=
  if sid = [] then (sessions, none)
  else
    match sessions.lookup sid with
    | none => (sessions, none)
    | some session =>
      if session.expiresAt ≤ now then (sessions.erase sid, none) else (sessions, some session)

/-- `SessionCookie.parse`, of the cookie with this name. -/
def parseCookie (name header : Text) : Option Text :=
  (header.splitOn ';'.toNat).findSome? fun part =>
    match cut (lit "=") (strip part) with
    | none => none
    | some (k, v) => if strip k = name ∧ strip v ≠ [] then some (strip v) else none

/-! ### The providers -/

/-- A text of ASCII characters, as `compare_digest` wants it. -/
def Ascii (t : Text) : Prop := ∀ c ∈ t, c < 128

instance (t : Text) : Decidable (Ascii t) := inferInstanceAs (Decidable (∀ c ∈ t, c < 128))

/-- `AuthStack`: the token of the daemon and, as far as they are there, the EE package,
the OIDC validator with the callers it finds behind a header, if it does not raise (an
`OIDCError` about the keys or the network), and the name of the session cookie with the
sessions. -/
structure AuthStack where
  token : Text
  token_ascii : Ascii token
  ee : Bool
  validator : Option (Text → Except Unit (Option CallContext))
  cookie : Option Text
  sessions : Sessions

/-- The providers of the chain. -/
inductive Provider
  | oidc
  | loopback
  deriving DecidableEq

/-- `LoopbackAuthProvider.identify`; `compare_digest` raises on a text that is not
ASCII. -/
def loopbackIdentify (token : Text) (headers : Headers) : Except Unit (Option CallContext) :=
  match bearer headers with
  | none => .ok none
  | some supplied =>
    if ¬Ascii (strip supplied) then .error ()
    else if strip supplied = token then .ok (some { userId := [] })
    else .ok none

namespace AuthStack

variable (a : AuthStack)

/-- The first path of `OIDCAuthProvider.identify`. -/
def oidcBearer (headers : Headers) : Except Unit (Option CallContext) :=
  match a.validator with
  | none => .ok none
  | some validate =>
    if (bearer headers).isSome then validate (headers.get "Authorization") else .ok none

/-- The second path: the session whose id the cookie holds. -/
def cookieSession (now : Seconds) (headers : Headers) : Sessions × Option Session :=
  match a.cookie.bind fun name => parseCookie name (headers.get "Cookie") with
  | none => (a.sessions, none)
  | some sid => a.sessions.get now sid

/-- `OIDCAuthProvider.identify`. -/
def oidcIdentify (now : Seconds) (headers : Headers) :
    AuthStack × Except Unit (Option CallContext) :=
  match a.oidcBearer headers with
  | .error e => (a, .error e)
  | .ok (some ctx) => (a, .ok (some ctx))
  | .ok none =>
    let (sessions, session) := a.cookieSession now headers
    ({ a with sessions }, .ok (session.map fun s => ⟨s.userId, s.email, s.roles⟩))

/-- `identify` of a provider. -/
def ask (now : Seconds) (headers : Headers) :
    Provider → AuthStack × Except Unit (Option CallContext)
  | .oidc => a.oidcIdentify now headers
  | .loopback => (a, loopbackIdentify a.token headers)

/-- The chain `AuthStack.__init__` builds. -/
def providers : List Provider := (if a.ee then [.oidc] else []) ++ [.loopback]

/-- `CompositeAuthProvider.identify`: the first hit. -/
def firstHit (now : Seconds) (headers : Headers) :
    AuthStack → List Provider → AuthStack × Except Unit (Option CallContext)
  | a, [] => (a, .ok none)
  | a, p :: ps =>
    match a.ask now headers p with
    | (a, .ok none) => firstHit now headers a ps
    | r => r

/-- `auth_provider.identify`. -/
def identify (now : Seconds) (headers : Headers) : AuthStack × Except Unit (Option CallContext) :=
  firstHit now headers a a.providers

/-! ### Credentials -/

/-- The request presents the token of the daemon. -/
def PresentsToken (headers : Headers) : Prop := (bearer headers).any (strip · = a.token)

/-- The request presents a bearer token the validator accepts. -/
def PresentsBearer (headers : Headers) : Prop :=
  a.ee ∧ ∃ ctx, a.oidcBearer headers = .ok (some ctx)

/-- The validator raises on the bearer token of the request. -/
def ValidatorRaises (headers : Headers) : Prop := a.ee ∧ a.oidcBearer headers = .error ()

/-- The request presents the cookie of a live session. -/
def PresentsCookie (now : Seconds) (headers : Headers) : Prop :=
  a.ee ∧ ∃ name ∈ a.cookie, ∃ sid session, parseCookie name (headers.get "Cookie") = some sid ∧
    a.sessions.lookup sid = some session ∧ now < session.expiresAt

/-- The request presents a credential this daemon knows, and the validator, if it is asked,
does not raise. -/
def Authorised (now : Seconds) (headers : Headers) : Prop :=
  ¬a.ValidatorRaises headers ∧
    (a.PresentsToken headers ∨ a.PresentsBearer headers ∨ a.PresentsCookie now headers)

/-- A daemon that serves the loopback bearer only. -/
def LoopbackOnly : Prop := a.ee = false ∨ a.validator = none ∧ a.cookie = none

variable {a} {now : Seconds} {headers : Headers}

theorem parseCookie_ne_nil {name header sid : Text} (h : parseCookie name header = some sid) :
    sid ≠ [] := by
  obtain ⟨part, -, hpart⟩ := List.exists_of_findSome?_eq_some h
  split at hpart
  · exact absurd hpart (by simp)
  · split_ifs at hpart with hv
    rw [← Option.some.inj hpart]
    exact hv.2

theorem cookieSession_isSome_iff :
    (a.cookieSession now headers).2.isSome ↔ ∃ name ∈ a.cookie, ∃ sid session,
      parseCookie name (headers.get "Cookie") = some sid ∧
        a.sessions.lookup sid = some session ∧ now < session.expiresAt := by
  unfold cookieSession
  rcases hc : a.cookie with _ | name
  · simp
  rw [Option.bind_some]
  rcases hp : parseCookie name (headers.get "Cookie") with _ | sid
  · simp [hp]
  have hne := parseCookie_ne_nil hp
  rcases hl : a.sessions.lookup sid with _ | session
  · simp [hp, hl, Sessions.get, hne]
  · by_cases hexp : session.expiresAt ≤ now
    · simp [hp, hl, Sessions.get, hne, hexp]
    · simp [hp, hl, Sessions.get, hne, hexp, lt_of_not_ge hexp]

theorem oidcIdentify_isSome_iff : (∃ ctx, (a.oidcIdentify now headers).2 = .ok (some ctx)) ↔
    (∃ ctx, a.oidcBearer headers = .ok (some ctx)) ∨
      a.oidcBearer headers = .ok none ∧ (a.cookieSession now headers).2.isSome := by
  unfold oidcIdentify
  rcases a.oidcBearer headers with e | _ | ctx
  · simp
  · simp [Option.isSome_iff_exists]
  · simp

theorem loopbackIdentify_eq_some_iff :
    (∃ ctx, loopbackIdentify a.token headers = .ok (some ctx)) ↔ a.PresentsToken headers := by
  unfold loopbackIdentify PresentsToken
  rcases bearer headers with _ | supplied
  · simp
  · by_cases htoken : strip supplied = a.token
    · simp [htoken, a.token_ascii]
    · by_cases hascii : Ascii (strip supplied)
      · simp [htoken, hascii]
      · simp [htoken, hascii]

/-- **Who is identified**: a request that presents one of the three credentials, unless the
validator raises. -/
theorem identify_isSome_iff :
    (∃ ctx, (a.identify now headers).2 = .ok (some ctx)) ↔ a.Authorised now headers := by
  -- the daemon's token is asked last, on the stack that the providers before it have left
  have hloop : ∀ a' : AuthStack, a'.token = a.token →
      ((∃ ctx, (firstHit now headers a' [.loopback]).2 = .ok (some ctx)) ↔
        a.PresentsToken headers) := by
    intro a' htoken
    rw [← loopbackIdentify_eq_some_iff, ← htoken]
    simp only [firstHit, ask]
    rcases loopbackIdentify a'.token headers with _ | _ | ctx <;> simp
  unfold identify providers Authorised ValidatorRaises PresentsBearer PresentsCookie
  rw [← cookieSession_isSome_iff]
  rcases hee : a.ee
  · simpa using hloop a rfl
  · have htoken : (a.oidcIdentify now headers).1.token = a.token := by
      unfold oidcIdentify
      split <;> rfl
    have hoidc : (∃ ctx, (a.oidcIdentify now headers).2 = .ok (some ctx)) ↔ _ :=
      oidcIdentify_isSome_iff
    simp only [if_true, List.singleton_append, true_and]
    rcases hbearer : a.oidcBearer headers with e | _ | ctx
    -- a validator that raises ends the chain: neither the cookie nor the token is looked at
    · have hask : a.oidcIdentify now headers = (a, .error e) := by
        unfold oidcIdentify
        rw [hbearer]
      simp [firstHit, ask, hask]
    · simp only [hbearer, true_and] at hoidc
      rcases hask : a.oidcIdentify now headers with ⟨a', e | _ | ctx⟩
      · unfold oidcIdentify at hask
        rw [hbearer] at hask
        exact absurd (congrArg Prod.snd hask) (by simp)
      · rw [hask] at htoken hoidc
        have hcookie : ¬(a.cookieSession now headers).2.isSome := by simpa using hoidc
        simpa [firstHit, ask, hask, hcookie] using hloop a' htoken
      · rw [hask] at hoidc
        have hcookie : (a.cookieSession now headers).2.isSome := by simpa using hoidc
        simp [firstHit, ask, hask, hcookie]
    · have hask : a.oidcIdentify now headers = (a, .ok (some ctx)) := by
        unfold oidcIdentify
        rw [hbearer]
      simp [firstHit, ask, hask]

/-- A daemon that serves the loopback bearer only identifies the holder of its token and
nobody else. -/
theorem LoopbackOnly.authorised_iff (h : a.LoopbackOnly) :
    a.Authorised now headers ↔ a.PresentsToken headers := by
  unfold Authorised ValidatorRaises PresentsBearer PresentsCookie
  rcases h with hee | ⟨hvalidator, hcookie⟩
  · simp [hee]
  · simp [oidcBearer, hvalidator, hcookie]

end AuthStack

end Http

end OtamanBridge
