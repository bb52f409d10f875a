import Mathlib.Tactic.Linarith
import OtamanBridge.Http.Auth
import OtamanBridge.Lib.PyDigits
import OtamanBridge.Lib.PyValue
import OtamanBridge.Lib.Run

/-!
# The metadata of the authorization server

`MetadataCache`, `fetch_upstream_metadata` and `overlay_metadata` of `dcr_shim.py`, and the two
routes of `routes_dcr.py` that tell an MCP client where to register. The document of the
identity provider is fetched and kept for a while, and each client gets a copy of it with some
fields of the bridge put in. A request is a thread of its own: the cache has a lock, but no
lock is held while the identity provider is asked, so that others come and go in between. What
counts of a request is when it looks into the cache, where it sends what it finds there or is to
ask; when it is answered; and when it stores the document and sends it: these are its steps. The
clock is a monotonic one.

In every run, a client gets the document that was stored last, with the fields of the bridge
and its own host in it; it is not older than it may be, unless the client fetched it itself;
and the identity provider is asked only when all that was ever stored has become too old
(`OtamanBridge.Dcr.Metadata.discovered_of_run`).
-/

namespace OtamanBridge

namespace Dcr

namespace Metadata

open Py

open Value (ofFields)

/-! ### Documents -/

/-- `d[key] = v`: the items of a mapping after an item is set. -/
def setEntry (key : Text) (v : Value) : List (Value × Value) → List (Value × Value)
  | [] => [(.str key, v)]
  | (k, x) :: items =>
    if k.isText key then (k, v) :: items else (k, x) :: setEntry key v items

/-- `d[key] = v`. -/
def setItem (key : String) (v : Value) : Value → Value
  | .dict items => .dict (setEntry (lit key) v items)
  | d => d

/-- A list of one string. -/
def only (s : String) : Value := .list [.str (lit s)]

/-- The fields that are put in. -/
def ownFields (registrationEndpoint : Text) : List (String × Value) :=
  [("registration_endpoint", .str registrationEndpoint),
    ("registration_endpoint_auth_methods_supported", only "none"),
    ("token_endpoint_auth_methods_supported", only "none"),
    ("code_challenge_methods_supported", only "S256")]

/-- `overlay_metadata`. -/
def overlayMetadata (upstreamDoc : Value) (registrationEndpoint : Text) : Value :=
  (ownFields registrationEndpoint).foldl (fun out kv => setItem kv.1 kv.2 out) upstreamDoc

/-! ### Addresses -/

/-- `t.rstrip("/")`. -/
def rstripSlashes (t : Text) : Text := t.rdropWhile (· = '/'.toNat)

/-- `_resolve_public_resource_url`, where the variable `OTAMAN_BRIDGE_PUBLIC_URL` is this. -/
def resolvePublicResourceUrl (publicUrl hostHeader : Text) : Text :=
  if strip publicUrl ≠ [] then rstripSlashes (strip publicUrl)
  else lit "http://" ++ strip (if hostHeader = [] then lit "127.0.0.1" else hostHeader)

/-- `derive_registration_endpoint`. -/
def deriveRegistrationEndpoint (bridgePublicUrl : Text) : Text :=
  rstripSlashes bridgePublicUrl ++ lit "/oauth/register"

/-- `_build_protected_resource_metadata`. -/
def buildProtectedResourceMetadata (issuer resource : Text) : Value :=
  ofFields [("resource", .str resource), ("authorization_servers", .list [.str issuer]),
    ("bearer_methods_supported", only "header"),
    ("scopes_supported", .list [.str (lit "openid"), .str (lit "profile"), .str (lit "email")])]

/-! ### The identity provider -/

/-- What comes of a request to the identity provider. -/
inductive Upstream
  /-- A `URLError`, with its text; an error status is one. -/
  | urlError (text : Text)
  /-- Another exception. -/
  | error (text : Text)
  | response (status : ℕ) (raw : List ℕ)

/-- A reply of a route: a body with status 200, a status and the text of an error, or an
exception that reaches the server. -/
inductive Reply
  | ok (body : Value)
  | error (status : ℕ) (message : Text)
  | raised

/-- What the daemon is configured with: the shim, with the base URL of the identity provider
and the lifetime of its document, the issuer of the validator and the public URL, and
`json.loads`, which raises a `ValueError` with a text or another exception. -/
structure Site where
  dcrShim : Bool
  managementBaseUrl : Text
  ttl : Seconds
  issuer : Option Text
  publicUrl : Text
  loads : List ℕ → Except (Option Text) Value

namespace Site

variable (site : Site)

/-- The URL that is fetched. -/
def upstreamUrl : Text :=
  rstripSlashes site.managementBaseUrl ++ lit "/.well-known/openid-configuration"

/-- The text of a `MetadataFetchError`. -/
def fetchError (what : Text) : Text := lit "upstream " ++ site.upstreamUrl ++ what

/-- `fetch_upstream_metadata`: the document, the text of a `MetadataFetchError`, or another
exception. The error about the status is raised where exceptions are caught, so it is told
twice. -/
def fetchUpstreamMetadata : Upstream → Except (Option Text) Value
  | .urlError text => .error (some (site.fetchError (lit " unreachable: " ++ text)))
  | .error text => .error (some (site.fetchError (lit " failed: " ++ text)))
  | .response status raw =>
    if status ≠ 200 then
      .error (some (site.fetchError (lit " failed: " ++
        site.fetchError (lit " returned HTTP " ++ decimal status))))
    else
      match site.loads raw with
      | .error none => .error none
      | .error (some text) =>
        .error (some (site.fetchError (lit " returned malformed JSON: " ++ text)))
      | .ok doc =>
        if doc.isDict then .ok doc
        else .error (some (site.fetchError (lit " returned non-object JSON")))

/-- The document a client gets, by its `Host` header. -/
def overlaid (host : Text) (doc : Value) : Value :=
  overlayMetadata doc
    (deriveRegistrationEndpoint (resolvePublicResourceUrl site.publicUrl host))

/-- `_handle_protected_resource`. -/
def protectedResource (host : Text) : Reply :=
  match site.issuer with
  | none => .error 404 (lit "OIDC not configured on this bridge")
  | some issuer =>
    let resource := resolvePublicResourceUrl site.publicUrl host
    .ok (buildProtectedResourceMetadata (if site.dcrShim then resource else issuer) resource)

end Site

/-! ### `_handle_authorization_server`, step by step -/

/-- Where a request stands. -/
inductive Phase
  /-- It has asked the identity provider. -/
  | fetching (host : Text)
  /-- It has its answer, and stores it next. -/
  | storing (host : Text) (doc : Value)
  | returned (reply : Reply)

/-- What has happened, in which request. -/
inductive Event (C : Type)
  /-- Nothing was found in the cache at this time, and the identity provider is asked. -/
  | asked (c : C) (time : Seconds)
  /-- It answered so. -/
  | fetched (c : C) (raw : List ℕ)
  /-- The document was stored. -/
  | stored (c : C) (doc : Value) (time : Seconds)
  /-- A client got this. -/
  | served (c : C) (host : Text) (time : Seconds) (body : Value)

/-- Something was stored. -/
def Event.stores {C : Type} : Event C → Prop
  | .stored .. => True
  | _ => False

/-- The whole state: `_doc` with `_expires_at`, and the requests. -/
structure State (C : Type) where
  now : Seconds
  cache : Option (Value × Seconds)
  calls : C → Option Phase
  log : List (Event C)

/-- What a step is told. -/
inductive Label (C : Type)
  /-- The clock goes on. -/
  | tick (d : ℚ≥0)
  /-- A request comes, with this `Host`, and looks into the cache. -/
  | request (c : C) (host : Text)
  /-- The identity provider answers. -/
  | upstream (c : C) (answer : Upstream)
  | store (c : C)

namespace State

variable {C : Type}

/-- Nothing has happened. -/
def init (now : Seconds) : State C := ⟨now, none, fun _ => none, []⟩

variable (s : State C)

/-- A request gets further. -/
def move [DecidableEq C] (c : C) (phase : Phase) : State C :=
  { s with calls := Function.update s.calls c (some phase) }

/-- Note what happened. -/
def note (e : Event C) : State C := { s with log := e :: s.log }

/-- `MetadataCache.get`. -/
def cacheGet : Option Value :=
  s.cache.bind fun entry => if entry.2 ≤ s.now then none else some entry.1

/-- `MetadataCache.put`. -/
def cachePut (ttl : Seconds) (doc : Value) : State C :=
  { s with cache := some (doc, s.now + ttl) }

end State

variable {C : Type} [DecidableEq C] (site : Site)

/-- The document is sent. -/
def serve (s : State C) (c : C) (host : Text) (doc : Value) : State C :=
  (s.move c (.returned (.ok (site.overlaid host doc)))).note
    (.served c host s.now (site.overlaid host doc))

/-- One step. -/
def step (s : State C) : Label C → Option (State C)
  | .tick d => some { s with now := s.now + d }
  | .request c host =>
    match s.calls c with
    | some _ => none
    | none =>
      if ¬site.dcrShim then
        some (s.move c (.returned (.error 404 (lit "DCR shim not enabled on this bridge"))))
      else
        match s.cacheGet with
        | some doc => some (serve site s c host doc)
        | none => some ((s.move c (.fetching host)).note (.asked c s.now))
  | .upstream c answer =>
    match s.calls c with
    | some (.fetching host) =>
      match site.fetchUpstreamMetadata answer with
      | .error none => some (s.move c (.returned .raised))
      | .error (some text) =>
        some (s.move c (.returned (.error 502 (lit "upstream metadata unavailable: " ++ text))))
      | .ok doc =>
        match answer with
        | .response _ raw => some ((s.move c (.storing host doc)).note (.fetched c raw))
        | _ => none
    | _ => none
  | .store c =>
    match s.calls c with
    | some (.storing host doc) =>
      some (serve site ((s.cachePut site.ttl doc).note (.stored c doc s.now)) c host doc)
    | _ => none

/-! ### What a step can do -/

variable {site} {s s' : State C} {l : Label C}

/-- What is fetched is a mapping that was sent with status 200. -/
theorem Site.fetchUpstreamMetadata_eq_ok {answer : Upstream} {doc : Value}
    (h : site.fetchUpstreamMetadata answer = .ok doc) :
    ∃ raw, answer = .response 200 raw ∧ site.loads raw = .ok doc ∧ doc.isDict := by
  unfold fetchUpstreamMetadata at h
  split at h
  · exact absurd h (by simp)
  · exact absurd h (by simp)
  next status raw =>
    split_ifs at h with hstatus
    split at h
    · exact absurd h (by simp)
    · exact absurd h (by simp)
    next v hv =>
      split_ifs at h with hdict
      obtain rfl := Except.ok.inj h
      obtain rfl := not_not.mp hstatus
      exact ⟨raw, rfl, hv, hdict⟩

omit [DecidableEq C] in
theorem State.cacheGet_eq_some_iff {doc : Value} :
    s.cacheGet = some doc ↔ ∃ expiresAt, s.cache = some (doc, expiresAt) ∧ s.now < expiresAt := by
  unfold cacheGet
  rw [Option.bind_eq_some_iff]
  constructor
  · rintro ⟨⟨d, expiresAt⟩, hcache, hget⟩
    split_ifs at hget with hexpired
    obtain rfl := Option.some.inj hget
    exact ⟨expiresAt, hcache, lt_of_not_ge hexpired⟩
  · rintro ⟨expiresAt, hcache, hlive⟩
    exact ⟨(doc, expiresAt), hcache, if_neg (not_le_of_gt hlive)⟩

omit [DecidableEq C] in
theorem State.cacheGet_eq_none_iff :
    s.cacheGet = none ↔ ∀ entry, s.cache = some entry → entry.2 ≤ s.now := by
  unfold cacheGet
  rw [Option.bind_eq_none_iff]
  refine forall_congr' fun entry => imp_congr_right fun _ => ?_
  split_ifs with hexpired
  · simp [hexpired]
  · simp [hexpired]

/-- The steps, by what they do. -/
inductive Step (site : Site) (s : State C) : Label C → State C → Prop
  | tick (d : ℚ≥0) : Step site s (.tick d) { s with now := s.now + d }
  | hit {c : C} {host : Text} {doc : Value} (hget : s.cacheGet = some doc) :
      Step site s (.request c host) (serve site s c host doc)
  | miss {c : C} {host : Text} (hget : s.cacheGet = none) :
      Step site s (.request c host) ((s.move c (.fetching host)).note (.asked c s.now))
  | fetch {c : C} {host : Text} {raw : List ℕ} {doc : Value}
      (hat : s.calls c = some (.fetching host)) (hloads : site.loads raw = .ok doc)
      (hdict : doc.isDict) : Step site s (.upstream c (.response 200 raw))
        ((s.move c (.storing host doc)).note (.fetched c raw))
  | refuse {c : C} {l : Label C} {reply : Reply} (hreply : ∀ body, reply ≠ .ok body) :
      Step site s l (s.move c (.returned reply))
  | store {c : C} {host : Text} {doc : Value} (hat : s.calls c = some (.storing host doc)) :
      Step site s (.store c)
        (serve site ((s.cachePut site.ttl doc).note (.stored c doc s.now)) c host doc)

/-- **Every step is one of these.** -/
theorem Step.of_step (h : step site s l = some s') : Step site s l s' := by
  cases l with
  | tick d =>
    obtain rfl := Option.some.inj h
    exact .tick d
  | request c host =>
    simp only [step] at h
    split at h
    · exact absurd h (by simp)
    · split_ifs at h
      · split at h
        next doc hget =>
          obtain rfl := Option.some.inj h
          exact .hit hget
        next hget =>
          obtain rfl := Option.some.inj h
          exact .miss hget
      · obtain rfl := Option.some.inj h
        exact .refuse nofun
  | upstream c answer =>
    simp only [step] at h
    split at h
    next host hat =>
      split at h
      · obtain rfl := Option.some.inj h
        exact .refuse nofun
      · obtain rfl := Option.some.inj h
        exact .refuse nofun
      next doc hdoc =>
        obtain ⟨raw, rfl, hloads, hdict⟩ := Site.fetchUpstreamMetadata_eq_ok hdoc
        obtain rfl := Option.some.inj h
        exact .fetch hat hloads hdict
    · exact absurd h (by simp)
  | store c =>
    simp only [step] at h
    split at h
    next hat =>
      obtain rfl := Option.some.inj h
      exact .store hat
    · exact absurd h (by simp)

/-! ### What a client reads -/

theorem isDict_setItem {d : Value} (hd : d.isDict) (key : String) (v : Value) :
    (setItem key v d).isDict := by
  cases d with
  | dict items => rfl
  | _ => exact absurd hd (by simp [Value.isDict])

/-- An item that is set is read, and the others are as they were. -/
theorem get_setItem {d : Value} (hd : d.isDict) (key key' : String) (v : Value) :
    (setItem key v d).get key' = if key = key' then some v else d.get key' := by
  cases d with
  | dict items =>
    induction items with
    | nil =>
      simp only [setItem, setEntry, Value.get, List.findSome?_cons, List.findSome?_nil,
        lit_injective.eq_iff]
      split_ifs <;> rfl
    | cons kx items ih =>
      obtain ⟨k, x⟩ := kx
      have hcons : ∀ (k x : Value) (items : List (Value × Value)),
          (Value.dict ((k, x) :: items)).get key' =
            if k.isText (lit key') then some x else (Value.dict items).get key' := by
        intro k x items
        simp only [Value.get, List.findSome?_cons]
        cases k with
        | str t =>
          by_cases ht : t = lit key'
          · simp [ht, Value.isText]
          · simp [ht, Value.isText]
        | _ => simp [Value.isText]
      rw [setItem, setEntry]
      by_cases hk : k.isText (lit key)
      · rw [if_pos hk, hcons, hcons]
        cases k with
        | str t =>
          obtain rfl : t = lit key := of_decide_eq_true hk
          by_cases hkey : key = key'
          · simp [hkey, Value.isText]
          · simp [hkey, Value.isText, lit_injective.eq_iff]
        | _ => exact absurd hk (by simp [Value.isText])
      · rw [if_neg hk, hcons, hcons]
        have hih := ih rfl
        rw [setItem] at hih
        rw [hih]
        by_cases hkey : key = key'
        · subst hkey
          simp [hk]
        · simp only [if_neg hkey]
  | _ => exact absurd hd (by simp [Value.isDict])

/-- So it is with items that are set one after the other, under different keys. -/
theorem get_foldl_setItem {fields : List (String × Value)} (hnodup : (fields.map Prod.fst).Nodup)
    {d : Value} (hd : d.isDict) (key : String) :
    (fields.foldl (fun out kv => setItem kv.1 kv.2 out) d).get key =
      (fields.lookup key).or (d.get key) := by
  induction fields generalizing d with
  | nil => rfl
  | cons kv fields ih =>
    obtain ⟨k, v⟩ := kv
    rw [List.map_cons, List.nodup_cons] at hnodup
    rw [List.foldl_cons, ih hnodup.2 (isDict_setItem hd k v), get_setItem hd, List.lookup_cons]
    rcases eq_or_ne k key with rfl | hne
    · have hnone : fields.lookup k = none := by
        refine List.lookup_eq_none_iff.mpr fun p hp => ?_
        have hpk : k ≠ p.1 := by
          rintro rfl
          exact hnodup.1 (List.mem_map.mpr ⟨p, hp, rfl⟩)
        simpa using hpk
      simp [hnone]
    · have hbeq : (key == k) = false := beq_eq_false_iff_ne.mpr hne.symm
      simp [hne, hbeq]

/-- **The fields of the bridge are its own, and the others those of the identity provider.** -/
theorem get_overlayMetadata {doc : Value} (hdoc : doc.isDict) (endpoint : Text) (key : String) :
    (overlayMetadata doc endpoint).get key =
      ((ownFields endpoint).lookup key).or (doc.get key) :=
  get_foldl_setItem (by simp [ownFields]) hdoc key

/-! ### Runs -/

/-- This was stored, and nothing since. -/
def LastStored (c : C) (doc : Value) (time : Seconds) (log : List (Event C)) : Prop :=
  ∃ later earlier, log = later ++ .stored c doc time :: earlier ∧ ∀ e ∈ later, ¬e.stores

variable (site) in
/-- What is promised of an event, by what came before. -/
def Fine : Event C → List (Event C) → Prop
  -- all that was stored has become too old
  | .asked _ time, earlier => ∀ c doc t, .stored c doc t ∈ earlier → t + site.ttl ≤ time
  | .fetched c _, earlier => ∃ time, .asked c time ∈ earlier
  -- what is stored was sent to the request that stores it
  | .stored c doc _, earlier =>
    ∃ raw, .fetched c raw ∈ earlier ∧ site.loads raw = .ok doc ∧ doc.isDict
  -- what is served is what was stored last, with the own fields for this host
  | .served c host time body, earlier =>
    ∃ c' doc t, LastStored c' doc t earlier ∧ t ≤ time ∧ (c' = c ∨ time < t + site.ttl) ∧
      ∀ key, body.get key = ((ownFields (deriveRegistrationEndpoint
        (resolvePublicResourceUrl site.publicUrl host))).lookup key).or (doc.get key)

variable (site) in
/-- Where a request stands, by what has happened. -/
def Grounded (log : List (Event C)) (c : C) : Phase → Prop
  | .fetching _ => ∃ time, .asked c time ∈ log
  | .storing _ doc => ∃ raw, .fetched c raw ∈ log ∧ site.loads raw = .ok doc ∧ doc.isDict
  | .returned (.ok body) => ∃ host time, .served c host time body ∈ log
  | .returned _ => True

variable (site) in
/-- **The invariant.** -/
structure Kept (s : State C) : Prop where
  fine : Lts.Respected (Fine site) (fun _ _ _ => False) s.log
  cache : ∀ entry, s.cache = some entry → ∃ c t, LastStored c entry.1 t s.log ∧
    entry.2 = t + site.ttl ∧ entry.1.isDict ∧ ∀ c' doc t', .stored c' doc t' ∈ s.log → t' ≤ t
  empty : s.cache = none → ∀ c doc t, .stored c doc t ∉ s.log
  past : ∀ c doc t, .stored c doc t ∈ s.log → t ≤ s.now
  calls : ∀ c phase, s.calls c = some phase → Grounded site s.log c phase

section Steps

omit [DecidableEq C] in
/-- More may happen. -/
theorem Grounded.mono {log log' : List (Event C)} {c : C} {phase : Phase}
    (h : Grounded site log c phase) (hlog : ∀ e ∈ log, e ∈ log') : Grounded site log' c phase := by
  rcases phase with host | ⟨host, doc⟩ | reply
  · obtain ⟨time, hasked⟩ := h
    exact ⟨time, hlog _ hasked⟩
  · obtain ⟨raw, hfetched, hdoc⟩ := h
    exact ⟨raw, hlog _ hfetched, hdoc⟩
  · rcases reply with body | ⟨status, message⟩ | _
    · obtain ⟨host, time, hserved⟩ := h
      exact ⟨host, time, hlog _ hserved⟩
    · trivial
    · trivial

omit [DecidableEq C] in
/-- Something that is not stored comes after. -/
theorem LastStored.cons {c : C} {doc : Value} {time : Seconds} {log : List (Event C)}
    (h : LastStored c doc time log) {e : Event C} (he : ¬e.stores) :
    LastStored c doc time (e :: log) := by
  obtain ⟨later, earlier, rfl, hlater⟩ := h
  exact ⟨e :: later, earlier, rfl, List.forall_mem_cons.mpr ⟨he, hlater⟩⟩

omit [DecidableEq C] in
theorem LastStored.mem {c : C} {doc : Value} {time : Seconds} {log : List (Event C)}
    (h : LastStored c doc time log) : .stored c doc time ∈ log := by
  obtain ⟨later, earlier, rfl, -⟩ := h
  exact List.mem_append_right _ List.mem_cons_self

/-- A request goes on, and something may be noted that is not stored. -/
theorem Kept.of_move (h : Kept site s) {c : C} {phase : Phase} {e : Event C} (he : ¬e.stores)
    (hfine : Fine site e s.log) (hphase : Grounded site (e :: s.log) c phase) :
    Kept site ((s.move c phase).note e) where
  fine := h.fine.cons (fun _ _ _ hg => hg) (fun _ _ _ hno => hno) hfine
  cache := by
    intro entry hentry
    obtain ⟨c', t, hlast, hexpires, hdict, horder⟩ := h.cache entry hentry
    refine ⟨c', t, hlast.cons he, hexpires, hdict, fun c'' doc t' hin => ?_⟩
    rcases List.mem_cons.mp hin with rfl | hin
    · exact absurd trivial he
    · exact horder c'' doc t' hin
  empty := by
    intro hnone c' doc t hin
    rcases List.mem_cons.mp hin with rfl | hin
    · exact absurd trivial he
    · exact h.empty hnone c' doc t hin
  past := by
    intro c' doc t hin
    rcases List.mem_cons.mp hin with rfl | hin
    · exact absurd trivial he
    · exact h.past c' doc t hin
  calls := Lts.forall_update (fun phase' hphase' => by rwa [← Option.some.inj hphase'])
    fun q phase' _ hq => (h.calls q phase' hq).mono fun x hx => List.mem_cons_of_mem e hx

omit [DecidableEq C] in
/-- A document is stored. -/
theorem Kept.store (h : Kept site s) {c : C} {host : Text} {doc : Value}
    (hat : s.calls c = some (.storing host doc)) :
    Kept site ((s.cachePut site.ttl doc).note (.stored c doc s.now)) where
  fine := h.fine.cons (fun _ _ _ hg => hg) (fun _ _ _ hno => hno) (h.calls c _ hat)
  cache := by
    rintro entry hentry
    obtain rfl := Option.some.inj hentry
    obtain ⟨-, -, -, hdict⟩ := h.calls c _ hat
    refine ⟨c, s.now, ⟨[], s.log, rfl, List.forall_mem_nil _⟩, rfl, hdict, fun c' doc' t' hin => ?_⟩
    rcases List.mem_cons.mp hin with heq | hin
    · obtain ⟨-, -, rfl⟩ := Event.stored.inj heq
      exact le_rfl
    · exact h.past c' doc' t' hin
  empty := fun hnone => absurd hnone (by simp [State.note, State.cachePut])
  past := by
    intro c' doc' t' hin
    rcases List.mem_cons.mp hin with heq | hin
    · obtain ⟨-, -, rfl⟩ := Event.stored.inj heq
      exact le_rfl
    · exact h.past c' doc' t' hin
  calls := fun q phase hq =>
    (h.calls q phase hq).mono fun x hx => List.mem_cons_of_mem _ hx

/-- What was stored last is served. -/
theorem Kept.serve (h : Kept site s) {c c' : C} {host : Text} {doc : Value} {t : Seconds}
    (hlast : LastStored c' doc t s.log) (hdict : doc.isDict)
    (hage : c' = c ∨ s.now < t + site.ttl) : Kept site (Metadata.serve site s c host doc) :=
  h.of_move id ⟨c', doc, t, hlast, h.past c' doc t hlast.mem, hage,
    get_overlayMetadata hdict _⟩ ⟨host, s.now, List.mem_cons_self⟩

/-- **Every step keeps the invariant.** -/
theorem Kept.step (h : Kept site s) (hstep : Step site s l s') : Kept site s' := by
  cases hstep with
  | tick d =>
    have hle : s.now ≤ s.now + d := le_add_of_nonneg_right d.2
    exact ⟨h.fine, h.cache, h.empty, fun c doc t hin => (h.past c doc t hin).trans hle, h.calls⟩
  | hit hget =>
    obtain ⟨expiresAt, hcache, hlive⟩ := State.cacheGet_eq_some_iff.mp hget
    obtain ⟨c', t, hlast, rfl, hdict, -⟩ := h.cache _ hcache
    exact h.serve hlast hdict (.inr hlive)
  | @miss c host hget =>
    refine h.of_move id (fun c' doc t hin => ?_) ⟨s.now, List.mem_cons_self⟩
    rcases hcache : s.cache with _ | entry
    · exact absurd hin (h.empty hcache c' doc t)
    · -- no document was stored after the one that has become too old
      obtain ⟨c'', t', -, hexpires, -, horder⟩ := h.cache entry hcache
      have hold := State.cacheGet_eq_none_iff.mp hget entry hcache
      have hle := horder c' doc t hin
      rw [hexpires] at hold
      linarith
  | fetch hat hloads hdict =>
    exact h.of_move id (h.calls _ _ hat) ⟨_, List.mem_cons_self, hloads, hdict⟩
  | @refuse c _ reply hreply =>
    refine ⟨h.fine, h.cache, h.empty, h.past, Lts.forall_update ?_ fun q phase _ hq =>
      h.calls q phase hq⟩
    intro phase hphase
    obtain rfl := Option.some.inj hphase
    rcases reply with body | ⟨status, message⟩ | _
    · exact absurd rfl (hreply body)
    · trivial
    · trivial
  | @store c host doc hat =>
    obtain ⟨-, -, -, hdict⟩ := h.calls c _ hat
    exact (h.store hat).serve ⟨[], s.log, rfl, List.forall_mem_nil _⟩ hdict (.inl rfl)

/-- **Discovery.** In every run of the route, whoever comes and whatever the identity provider
answers: every reply is one that was served; it is the document that was stored last, with the
fields of the bridge and the host of the request in it, and was stored by the request itself or
less than its lifetime ago; what was stored had been fetched by the request that stored it; and
nobody asks while anything that was stored is young enough. -/
theorem discovered_of_run {now : Seconds} {ls : List (Label C)}
    (hrun : Lts.Run (Lts.ofStep (step site)) (State.init now) ls s) :
    (∀ c body, s.calls c = some (.returned (.ok body)) →
      ∃ host time, .served c host time body ∈ s.log) ∧
      ∀ later e earlier, s.log = later ++ e :: earlier → Fine site e earlier := by
  have h : Kept site s := hrun.inv_state (I := Kept site)
    ⟨Lts.respected_nil, fun _ h => absurd h (by simp [State.init]), fun _ _ _ _ => List.not_mem_nil,
      fun _ _ _ h => absurd h List.not_mem_nil, fun _ _ h => absurd h (by simp [State.init])⟩
    fun _ _ _ hI hl => hI.step (.of_step hl)
  exact ⟨fun c body hc => h.calls c _ hc, fun later e earlier hlog =>
    (h.fine later e earlier hlog).1⟩

end Steps

/-! ### Two clients -/

/-- An identity provider whose document is empty. -/
def plainSite : Site where
  dcrShim := true
  managementBaseUrl := lit "https://idp/"
  ttl := 300
  issuer := none
  publicUrl := []
  loads := fun _ => .ok (.dict [])

/-- The second client comes while the first one waits, the third one when the document is in
the cache, and the fourth one when it is too old. -/
def clients : List (Label ℕ) :=
  [.request 0 (lit "a"), .tick 1, .request 1 (lit "b"), .upstream 0 (.response 200 []), .store 0,
    .tick 299, .request 2 (lit "c"), .tick 1, .request 3 (lit "d")]

/-- The times at which the identity provider was asked. -/
def asked (log : List (Event ℕ)) : List Seconds :=
  log.filterMap fun
    | .asked _ time => some time
    | _ => none

theorem discovered_of_run_clients : ∃ s : State ℕ, asked s.log = [301, 1, 0] ∧
    ∀ later e earlier, s.log = later ++ e :: earlier → Fine plainSite e earlier := by
  obtain ⟨s, hrun, hs⟩ := Lts.exists_run_of_exec (step plainSite) (State.init 0) clients
    (fun s => asked s.log = [301, 1, 0]) (by decide +kernel)
  exact ⟨s, of_decide_eq_true hs, (discovered_of_run hrun).2⟩

end Metadata

end Dcr

end OtamanBridge
