import OtamanBridge.Lib.Rfc3986

/-!
# Registration of OAuth clients

`parse_register_request` of `dcr_shim.py`, on a body of any shape, and the redirect URIs
it lets through. The check cuts a string at the first slash and at the first colon after
`http://`; what it finds there is the host only where there is no user information
(`OtamanBridge.Dcr.redirects_safe_iff`).
-/

namespace OtamanBridge

namespace Dcr

open Py Rfc3986

/-! ### The check of one string -/

/-- The hosts of a loopback redirect. -/
def loopbackHosts : List Text := ["localhost", "127.0.0.1"].map lit

/-- `_is_loopback_http_uri`. -/
def isLoopbackHttpUri (u : Text) : Bool :=
  (lit "http://").isPrefixOf u &&
    ((u.drop 7).takeWhile (· ≠ 47)).takeWhile (· ≠ 58) ∈ loopbackHosts

/-! ### The request -/

/-- How the request is refused: a `DCRError`, or the `TypeError` of a value that has no
hash. -/
inductive Failure
  | dcr (error description : Text)
  | type (v : Value)

/-- `RegisterRequest`. -/
structure RegisterRequest where
  redirectUris : List Text
  clientName : Option Text
  grantTypes : List Text
  responseTypes : List Text
  tokenEndpointAuthMethod : Text
  scope : Option Text
  softwareId : Option Text
  softwareVersion : Option Text

/-- `ERR_INVALID_REDIRECT_URI`. -/
def invalidRedirectUri (description : Text) : Failure :=
  .dcr (lit "invalid_redirect_uri") description

/-- `ERR_INVALID_CLIENT_METADATA`. -/
def invalidClientMetadata (description : Text) : Failure :=
  .dcr (lit "invalid_client_metadata") description

/-- The loop over `redirect_uris`, on one of them. -/
def checkRedirect (repr : Value → Text) : Value → Except Failure Text
  | .str u =>
    if isLoopbackHttpUri u then .ok u
    else .error (invalidRedirectUri (lit "redirect_uri " ++ repr (.str u) ++
      lit " must be http://localhost:<port>/... or http://127.0.0.1:<port>/..."))
  | _ => .error (invalidRedirectUri (lit "redirect_uris must contain strings"))

/-- `redirect_uris`, checked. -/
def redirectUris (repr : Value → Text) (body : Value) : Except Failure (List Text) :=
  match body.get "redirect_uris" with
  | some (.list (u :: us)) => (u :: us).mapM (checkRedirect repr)
  | _ => .error (invalidRedirectUri (lit "redirect_uris is required and must be non-empty"))

/-- `token_endpoint_auth_method`, checked. -/
def authMethod (body : Value) : Except Failure Text :=
  let refused := invalidClientMetadata (lit ("token_endpoint_auth_method must be 'none' " ++
    "(the shim only emits public clients with PKCE)"))
  match (body.get "token_endpoint_auth_method").getD (.str (lit "none")) with
  | .str t => if t = lit "none" then .ok t else .error refused
  | _ => .error refused

/-- Whether a value has a hash, as a member of a set must. -/
def hashable : Value → Bool
  | .list _ => false
  | .dict _ => false
  | _ => true

/-- A list of strings of a set: `grant_types` and `response_types`, with the `str` of
the sorted set. -/
def allowedTypes (repr : Value → Text) (body : Value) (key : String) (default allowed : List Text)
    (shown : String) : Except Failure (List Text) :=
  match (body.get key).getD (.list (default.map .str)) with
  | .list (v :: vs) =>
    match (v :: vs).find? (!hashable ·) with
    | some v => .error (.type v)
    | none =>
      let good : Value → Option Text
        | .str t => if t ∈ allowed then some t else none
        | _ => none
      let bad := (v :: vs).filter (fun v => (good v).isNone)
      if bad = [] then .ok ((v :: vs).filterMap good)
      else .error (invalidClientMetadata (lit key ++ lit " contains unsupported value(s): " ++
        repr (.list bad) ++ lit "; allowed: " ++ lit shown))
  | _ => .error (invalidClientMetadata (lit key ++ lit " must be a non-empty array"))

/-- `_str_or_none`. -/
def strOrNone (body : Value) (key : String) : Except Failure (Option Text) :=
  match body.get key with
  | none => .ok none
  | some .none => .ok none
  | some (.str t) => .ok (some t)
  | some _ => .error (invalidClientMetadata (lit key ++ lit " must be a string"))

/-- `parse_register_request`. -/
def parseRegisterRequest (repr : Value → Text) (body : Value) :
    Except Failure RegisterRequest :=
  match body with
  | .dict _ => do
    let redirectUris ← redirectUris repr body
    let tokenEndpointAuthMethod ← authMethod body
    let grantTypes ← allowedTypes repr body "grant_types" [lit "authorization_code"]
      [lit "authorization_code", lit "refresh_token"] "['authorization_code', 'refresh_token']"
    let responseTypes ← allowedTypes repr body "response_types" [lit "code"] [lit "code"]
      "['code']"
    let clientName ← strOrNone body "client_name"
    let scope ← strOrNone body "scope"
    let softwareId ← strOrNone body "software_id"
    let softwareVersion ← strOrNone body "software_version"
    return ⟨redirectUris, clientName, grantTypes, responseTypes, tokenEndpointAuthMethod, scope,
      softwareId, softwareVersion⟩
  | _ => .error (invalidClientMetadata (lit "request body must be a JSON object"))

/-! ### What is accepted -/

/-- The redirect URIs of a body. -/
def Redirects (body : Value) (u : Text) : Prop :=
  ∃ vs, body.get "redirect_uris" = some (.list vs) ∧ ∃ v ∈ vs, v = .str u

variable {repr : Value → Text} {body : Value} {r : RegisterRequest} {u : Text}

theorem bind_eq_ok {α β : Type} {x : Except Failure α} {f : α → Except Failure β} {b : β}
    (h : x >>= f = .ok b) : ∃ a, x = .ok a ∧ f a = .ok b := by
  rcases x with e | a
  · exact absurd h (by simp [bind, Except.bind])
  · exact ⟨a, rfl, h⟩

theorem mapM_checkRedirect {vs : List Value} {us : List Text}
    (h : vs.mapM (checkRedirect repr) = .ok us) :
    vs = us.map .str ∧ ∀ u ∈ us, isLoopbackHttpUri u := by
  induction vs generalizing us with
  | nil =>
    obtain rfl := Except.ok.inj h
    simp
  | cons v vs ih =>
    rw [List.mapM_cons] at h
    obtain ⟨u, hv, h⟩ := bind_eq_ok h
    obtain ⟨us', hvs, h⟩ := bind_eq_ok h
    obtain rfl := Except.ok.inj h
    obtain ⟨hvs, hus⟩ := ih hvs
    have hu : v = .str u ∧ isLoopbackHttpUri u := by
      unfold checkRedirect at hv
      split at hv
      · split_ifs at hv with hloop
        obtain rfl := Except.ok.inj hv
        exact ⟨rfl, hloop⟩
      · exact absurd hv (by simp)
    refine ⟨by rw [hu.1, hvs, List.map_cons], ?_⟩
    rintro u' hu'
    rcases List.mem_cons.mp hu' with rfl | hu'
    · exact hu.2
    · exact hus u' hu'

/-- **What is registered**: the redirect URIs of the body, each of which passed the
check. -/
theorem mem_redirectUris (h : parseRegisterRequest repr body = .ok r) :
    (u ∈ r.redirectUris ↔ Redirects body u) ∧ (u ∈ r.redirectUris → isLoopbackHttpUri u) := by
  have hr : redirectUris repr body = .ok r.redirectUris := by
    unfold parseRegisterRequest at h
    split at h
    · obtain ⟨us, hus, h⟩ := bind_eq_ok h
      obtain ⟨_, -, h⟩ := bind_eq_ok h
      obtain ⟨_, -, h⟩ := bind_eq_ok h
      obtain ⟨_, -, h⟩ := bind_eq_ok h
      obtain ⟨_, -, h⟩ := bind_eq_ok h
      obtain ⟨_, -, h⟩ := bind_eq_ok h
      obtain ⟨_, -, h⟩ := bind_eq_ok h
      obtain ⟨_, -, h⟩ := bind_eq_ok h
      rw [← Except.ok.inj h, hus]
    · exact absurd h (by simp)
  unfold redirectUris at hr
  split at hr
  next v vs hget =>
    obtain ⟨hvs, hloop⟩ := mapM_checkRedirect hr
    refine ⟨?_, hloop u⟩
    simp only [Redirects, hget, hvs]
    constructor
    · intro hu
      exact ⟨_, rfl, _, List.mem_map_of_mem hu, rfl⟩
    · rintro ⟨vs', hvs', v', hv', rfl⟩
      obtain rfl := Value.list.inj (Option.some.inj hvs')
      simpa using hv'
  · exact absurd hr (by simp)

/-! ### Where the code is sent to -/

/-- A URI that names a loopback host. -/
def LoopbackUri (u : Text) : Prop := ∃ p : Parts, p.Valid ∧ p.text = u ∧ p.host ∈ loopbackHosts

/-- A URI in which user information, if there is any, stands before a loopback host. -/
structure Plain (u : Text) : Prop where
  uri : ∃ p : Parts, p.Valid ∧ p.text = u
  userinfo : 64 ∈ authorityOf u →
    (withoutUserinfo (authorityOf u)).takeWhile (· ≠ 58) ∈ loopbackHosts

theorem not_mem_of_mem_loopbackHosts {t : Text} (h : t ∈ loopbackHosts) :
    t.head? ≠ some 91 ∧ ∀ c ∈ t, c ∉ lit ":/?#@" :=
  (by decide : ∀ t ∈ loopbackHosts, t.head? ≠ some 91 ∧ ∀ c ∈ t, c ∉ lit ":/?#@") t h

/-- Before the port stands the host, or a piece of an IP literal. -/
theorem takeWhile_hostPort {p : Parts} (h : p.Valid) (t : Text) :
    (p.hostPort ++ t).takeWhile (· ≠ 58) =
        p.host ++ (if p.port = none then t else []).takeWhile (· ≠ 58) ∨
      p.host.head? = some 91 ∧ ((p.hostPort ++ t).takeWhile (· ≠ 58)).head? = some 91 := by
  rcases h.host_cases with ⟨address, heq, -⟩ | hchars
  · right
    simp [Parts.hostPort, heq]
  · left
    have hcolon : ∀ c ∈ p.host, decide (c ≠ 58) = true := by
      intro c hc
      refine decide_eq_true ?_
      rintro rfl
      exact hchars 58 hc (by decide)
    rw [Parts.hostPort, List.append_assoc, List.takeWhile_append_of_pos hcolon]
    rcases p.port with _ | port
    · simp
    · simp [lit]

/-- What stands before the port is a loopback host if and only if the host is one. -/
theorem takeWhile_hostPort_mem {p : Parts} (h : p.Valid) :
    p.hostPort.takeWhile (· ≠ 58) ∈ loopbackHosts ↔ p.host ∈ loopbackHosts := by
  have hcase := takeWhile_hostPort h []
  rw [List.append_nil] at hcase
  rcases hcase with heq | ⟨hhost, hhead⟩
  · rw [heq]
    simp
  · constructor
    · intro hmem
      exact absurd hhead (not_mem_of_mem_loopbackHosts hmem).1
    · intro hmem
      exact absurd hhost (not_mem_of_mem_loopbackHosts hmem).1

/-- What the check looks at, on a text that is an address. -/
theorem drop_text {p : Parts} (h : p.Valid) (hhttp : (lit "http://").isPrefixOf p.text) :
    p.text.drop 7 = p.authority ++ p.rest := by
  obtain ⟨t, ht⟩ := List.isPrefixOf_iff_prefix.mp hhttp
  have hscheme : ∀ c ∈ p.scheme, decide (c ≠ 58) = true := fun c hc =>
    decide_eq_true (h.colon_not_mem_scheme c hc)
  have htext : p.text = p.scheme ++ (58 :: 47 :: 47 :: (p.authority ++ p.rest)) := by
    simp only [Parts.text, List.append_assoc]
    rfl
  have hfirst : p.scheme = lit "http" := by
    have := congrArg (List.takeWhile (· ≠ 58)) ht
    rw [htext, List.takeWhile_append_of_pos hscheme, List.takeWhile_cons_of_neg (by simp),
      List.append_nil] at this
    rw [← this]
    simp [lit]
  rw [htext, hfirst]
  rfl

/-- Without user information, what the check finds is the host. -/
theorem host_mem_of_isLoopbackHttpUri {p : Parts} (h : p.Valid)
    (hloop : isLoopbackHttpUri p.text) (hu : p.userinfo = none) : p.host ∈ loopbackHosts := by
  simp only [isLoopbackHttpUri, Bool.and_eq_true, decide_eq_true_eq] at hloop
  obtain ⟨hhttp, hmem⟩ := hloop
  have hauth : p.authority = p.hostPort := by
    simp [Parts.authority, hu]
  have hslash : ∀ c ∈ p.hostPort, decide (c ≠ 47) = true := by
    intro c hc
    refine decide_eq_true ?_
    rintro rfl
    exact h.hostPort_not_mem 47 hc (by decide)
  rw [drop_text h hhttp, hauth, List.takeWhile_append_of_pos hslash] at hmem
  rcases takeWhile_hostPort h (p.rest.takeWhile (· ≠ 47)) with heq | ⟨-, hhead⟩
  · rw [heq] at hmem
    rcases h.rest_cases with hrest | ⟨c, t, hrest, hc, -⟩
    · simpa [hrest] using hmem
    by_cases hpath : c = 47
    · simpa [hrest, hpath] using hmem
    by_cases hport : p.port = none
    · -- a query or a fragment right after the host is taken for a piece of it
      have hc' : c ∈ lit "?#" := by
        simp only [endsAuthority, decide_eq_true_eq] at hc
        exact (by decide : ∀ c ∈ lit "/?#", c ≠ 47 → c ∈ lit "?#") c hc hpath
      have hcolon : c ≠ 58 := (by decide : ∀ c ∈ lit "?#", c ≠ 58) c hc'
      refine absurd ?_ ((not_mem_of_mem_loopbackHosts hmem).2 c
        (by simp [hrest, hpath, hport, hcolon]))
      exact (by decide : ∀ c ∈ lit "?#", c ∈ lit ":/?#@") c hc'
    · simpa [hport] using hmem
  · exact absurd hhead (not_mem_of_mem_loopbackHosts hmem).1

/-- **One URI**: where the check lets a URI through, its host is a loopback host exactly
when what stands after the user information is. -/
theorem loopbackUri_iff (hloop : isLoopbackHttpUri u) : LoopbackUri u ↔ Plain u := by
  constructor
  · rintro ⟨p, hp, rfl, hhost⟩
    refine ⟨⟨p, hp, rfl⟩, fun _ => ?_⟩
    rw [hp.authorityOf_text, hp.withoutUserinfo_authority, takeWhile_hostPort_mem hp]
    exact hhost
  · rintro ⟨⟨p, hp, rfl⟩, huser⟩
    refine ⟨p, hp, rfl, ?_⟩
    rcases hu : p.userinfo with _ | t
    · exact host_mem_of_isLoopbackHttpUri hp hloop hu
    · rw [hp.authorityOf_text, hp.withoutUserinfo_authority, takeWhile_hostPort_mem hp,
        hp.at_mem_authority_iff] at huser
      exact huser (by simp [hu])

/-- **When registration is safe.** For every body that is accepted: every redirect URI
that is registered is a URI with a loopback host exactly when every one in the body is a
URI in which user information, if there is any, stands before a loopback host. -/
theorem redirects_safe_iff (h : parseRegisterRequest repr body = .ok r) :
    (∀ u ∈ r.redirectUris, LoopbackUri u) ↔ ∀ u, Redirects body u → Plain u := by
  constructor
  · intro hsafe u hu
    have hmem := (mem_redirectUris h).1.mpr hu
    exact (loopbackUri_iff ((mem_redirectUris h).2 hmem)).mp (hsafe u hmem)
  · intro hplain u hu
    exact (loopbackUri_iff ((mem_redirectUris h).2 hu)).mpr
      (hplain u ((mem_redirectUris h).1.mp hu))

/-- A body with one redirect URI. -/
def registration (u : String) : Value :=
  .dict [(.str (lit "redirect_uris"), .list [.str (lit u)])]

/-- The redirect URI of a native client. -/
theorem redirects_safe_iff_callback : ∃ r,
    parseRegisterRequest (fun _ => []) (registration "http://localhost:54321/cb") = .ok r ∧
      r.redirectUris ≠ [] ∧ ∀ u ∈ r.redirectUris, LoopbackUri u := by
  obtain ⟨r, hr, hne⟩ : ∃ r, parseRegisterRequest (fun _ => [])
      (registration "http://localhost:54321/cb") = .ok r ∧ r.redirectUris ≠ [] :=
    ⟨_, rfl, by simp⟩
  refine ⟨r, hr, hne, (redirects_safe_iff hr).mpr ?_⟩
  rintro u ⟨vs, hvs, v, hv, rfl⟩
  obtain rfl := Value.list.inj (Option.some.inj hvs)
  obtain rfl := Value.str.inj (List.mem_singleton.mp hv)
  refine ⟨⟨⟨lit "http", none, lit "localhost", some (lit "54321"), lit "/cb", none, none⟩, ?_,
    by decide⟩, by decide⟩
  constructor
  · decide
  · rintro t ⟨⟩
  · exact .inr (by decide)
  · rintro t ⟨⟩
    decide
  · decide
  · rintro t ⟨⟩
  · rintro t ⟨⟩

/-- A redirect URI with user information is registered, and names another host. -/
theorem not_redirects_safe_userinfo : ∃ r u,
    parseRegisterRequest (fun _ => []) (registration "http://localhost:x@evil.example/cb") =
      .ok r ∧ u ∈ r.redirectUris ∧ hostOf u = lit "evil.example" ∧ ¬LoopbackUri u := by
  have hhost : hostOf (lit "http://localhost:x@evil.example/cb") = lit "evil.example" := by
    decide
  refine ⟨_, lit "http://localhost:x@evil.example/cb", rfl, List.mem_singleton.mpr rfl, hhost, ?_⟩
  rintro ⟨p, hp, htext, hmem⟩
  rw [← hp.hostOf_text, htext, hhost] at hmem
  exact absurd hmem (by decide)

end Dcr

end OtamanBridge
