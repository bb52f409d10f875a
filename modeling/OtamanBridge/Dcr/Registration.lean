import Mathlib.Data.List.Sort
import Mathlib.Logic.Embedding.Basic
import OtamanBridge.Dcr.Register
import OtamanBridge.Inbox.Store
import OtamanBridge.Lib.Run

/-!
# The clients that are registered

`_handle_oauth_register` of `routes_dcr.py` from where it has read a body, with
`compute_fingerprint`, `find_or_create_client`, `build_zitadel_oidc_payload` and
`to_rfc7591_response` of `dcr_shim.py`, before an IdP that stores what it is sent, under
names of which it takes each once. The server handles each request in a thread, so a step is
one call of the IdP; a search may miss what has just been stored, and a call may fail.

An application is found by a fingerprint of the software id and the redirect URIs. So every
response is true to the application it names, whatever requests of a kind come, just when the
texts that are hashed tell apart what the requests ask for
(`OtamanBridge.Dcr.sound_iff`): they do not say the grant types, and they do not say which of
their lines are URIs (`OtamanBridge.Dcr.not_sound`).
-/

namespace OtamanBridge

namespace Dcr

open Py

/-! ### The fingerprint -/

/-- The text that is hashed: the software id and the sorted redirect URIs, a line each. -/
def fingerprintText (r : RegisterRequest) : Text :=
  [10].intercalate (r.softwareId.getD [] :: r.redirectUris.insertionSort (· ≤ ·))

/-- How the shim is set up: `sha256`, cut short, and `managed_name_prefix`. -/
structure Config where
  sha256 : Text ↪ Text
  namePrefix : Text

/-- The name of the application for a request. -/
def appName (cfg : Config) (r : RegisterRequest) : Text :=
  cfg.namePrefix ++ cfg.sha256 (fingerprintText r)

/-! ### The IdP -/

/-- The grant types, as Zitadel calls them. -/
def zitadelGrants : List (Text × Text) :=
  [(lit "authorization_code", lit "OIDC_GRANT_TYPE_AUTHORIZATION_CODE"),
    (lit "refresh_token", lit "OIDC_GRANT_TYPE_REFRESH_TOKEN")]

/-- `build_zitadel_oidc_payload`, of which the rest is the same for all. -/
structure Payload where
  name : Text
  redirectUris : List Text
  grantTypes : List Text
  deriving DecidableEq

/-- `build_zitadel_oidc_payload`. -/
def buildZitadelOidcPayload (name : Text) (r : RegisterRequest) : Payload where
  name := name
  redirectUris := r.redirectUris
  grantTypes := (zitadelGrants.filter fun g => g.1 ∈ r.grantTypes).map Prod.snd

/-- An application of the project. -/
structure App where
  clientId : Text
  payload : Payload
  deriving DecidableEq

/-- `find_app_by_name`. -/
def findAppByName (apps : List App) (name : Text) : Option App :=
  apps.find? fun app => app.payload.name = name

/-! ### The response -/

/-- `to_rfc7591_response`. -/
structure Response where
  clientId : Text
  clientIdIssuedAt : ℕ
  clientSecret : Text
  redirectUris : List Text
  grantTypes : List Text
  responseTypes : List Text
  tokenEndpointAuthMethod : Text
  clientName : Option Text
  scope : Option Text
  softwareId : Option Text
  softwareVersion : Option Text
  deriving DecidableEq

/-- `to_rfc7591_response`, which leaves out what is empty. -/
def toRfc7591Response (r : RegisterRequest) (clientId : Text) (nowUnix : ℕ) : Response where
  clientId := clientId
  clientIdIssuedAt := nowUnix
  clientSecret := []
  redirectUris := r.redirectUris
  grantTypes := r.grantTypes
  responseTypes := r.responseTypes
  tokenEndpointAuthMethod := r.tokenEndpointAuthMethod
  clientName := r.clientName.filter (· ≠ [])
  scope := r.scope.filter (· ≠ [])
  softwareId := r.softwareId.filter (· ≠ [])
  softwareVersion := r.softwareVersion.filter (· ≠ [])

/-! ### The requests -/

/-- Where a request stands. -/
inductive Phase
  /-- `find_app_by_name` comes next. -/
  | searching
  /-- `create_oidc_app` comes next. -/
  | creating
  /-- `find_app_by_name` comes once more, after a conflict. -/
  | lookingAgain
  /-- `to_rfc7591_response` comes next. -/
  | answering (clientId : Text)
  deriving DecidableEq

/-- The applications, the requests that are being handled, and the responses that were
given. -/
structure State where
  apps : List App
  calls : ℕ → Option (RegisterRequest × Phase)
  log : List Response

/-- A project without applications. -/
def State.init : State := ⟨[], fun _ => none, []⟩

/-- What the IdP makes of a call. -/
inductive Outcome
  /-- It answers. -/
  | answers
  /-- A search does not see what there is; a create is stored and its answer lost. -/
  | misses
  /-- It refuses, saying or not that the name exists. -/
  | refuses (exists_ : Bool)
  deriving DecidableEq

/-- What a step is told: whose request moves, and what the IdP does. -/
inductive Label
  /-- A body comes in. -/
  | receive (t : ℕ) (body : Value)
  | search (t : ℕ) (outcome : Outcome)
  /-- `create_oidc_app`, with the id that an application it makes is given. -/
  | create (t : ℕ) (clientId : Text) (outcome : Outcome)
  | lookAgain (t : ℕ) (outcome : Outcome)
  | answer (t : ℕ) (nowUnix : ℕ)

namespace State

variable (s : State)

/-- A request moves. -/
def move (t : ℕ) (r : RegisterRequest) (phase : Phase) : State :=
  { s with calls := Function.update s.calls t (some (r, phase)) }

@[simp] theorem move_calls_self (t : ℕ) (r : RegisterRequest) (phase : Phase) :
    (s.move t r phase).calls t = some (r, phase) := Function.update_self ..

/-- A request is turned away. -/
def drop (t : ℕ) : State := { s with calls := Function.update s.calls t none }

/-- An application is stored. -/
def store (app : App) : State := { s with apps := s.apps ++ [app] }

end State

variable (cfg : Config) (repr : Value → Text)

/-- A search, and where the request goes if nothing is found. -/
def afterSearch (s : State) (t : ℕ) (r : RegisterRequest) (otherwise : State) : Outcome → State
  | .answers =>
    match findAppByName s.apps (appName cfg r) with
    | some app => s.move t r (.answering app.clientId)
    | none => otherwise
  | .misses => otherwise
  | .refuses _ => s.drop t

/-- `create_oidc_app`, which takes each name once. -/
def afterCreate (s : State) (t : ℕ) (r : RegisterRequest) (clientId : Text) : Outcome → State
  | .refuses true => s.move t r .lookingAgain
  | .refuses false => s.drop t
  | outcome =>
    let app := ⟨clientId, buildZitadelOidcPayload (appName cfg r) r⟩
    match findAppByName s.apps (appName cfg r), outcome with
    | some _, _ => s.move t r .lookingAgain
    | none, .answers => (s.store app).move t r (.answering clientId)
    | none, _ => (s.store app).drop t

/-- One step of a request. -/
def stepCall (s : State) (t : ℕ) (r : RegisterRequest) : Phase → Label → Option State
  | .searching, .search _ outcome =>
    some (afterSearch cfg s t r (s.move t r .creating) outcome)
  | .creating, .create _ clientId outcome =>
    if clientId ≠ [] ∧ clientId ∉ s.apps.map App.clientId then
      some (afterCreate cfg s t r clientId outcome)
    else none
  | .lookingAgain, .lookAgain _ outcome => some (afterSearch cfg s t r (s.drop t) outcome)
  | .answering clientId, .answer _ nowUnix =>
    some { s.drop t with log := toRfc7591Response r clientId nowUnix :: s.log }
  | _, _ => none

/-- One step. A body that is refused, or whose fingerprint cannot be encoded, is turned
away. -/
def step (s : State) : Label → Option State
  | .receive t body =>
    match s.calls t with
    | some _ => none
    | none =>
      match parseRegisterRequest repr body with
      | .error _ => some s
      | .ok r =>
        if Inbox.Encodable (fingerprintText r) then some (s.move t r .searching) else some s
  | .search t outcome =>
    (s.calls t).bind fun c => stepCall cfg s t c.1 c.2 (.search t outcome)
  | .create t clientId outcome =>
    (s.calls t).bind fun c => stepCall cfg s t c.1 c.2 (.create t clientId outcome)
  | .lookAgain t outcome =>
    (s.calls t).bind fun c => stepCall cfg s t c.1 c.2 (.lookAgain t outcome)
  | .answer t nowUnix =>
    (s.calls t).bind fun c => stepCall cfg s t c.1 c.2 (.answer t nowUnix)

/-! ### What is to hold -/

/-- **Registration is sound**: a response names an application with the redirect URIs and the
grant types that it states, and none that is named for other URIs or grant types too. -/
structure Sound (s : State) : Prop where
  denotes : ∀ response ∈ s.log, ∃ app ∈ s.apps, app.clientId = response.clientId ∧
    (∀ u, u ∈ app.payload.redirectUris ↔ u ∈ response.redirectUris) ∧
      ∀ g ∈ zitadelGrants, g.2 ∈ app.payload.grantTypes ↔ g.1 ∈ response.grantTypes
  apart : ∀ response ∈ s.log, ∀ response' ∈ s.log, response.clientId = response'.clientId →
    (∀ u, u ∈ response.redirectUris ↔ u ∈ response'.redirectUris) ∧
      ∀ g, g ∈ response.grantTypes ↔ g ∈ response'.grantTypes

/-- The two requests ask for the same redirect URIs and the same grant types. -/
def SameAsk (r r' : RegisterRequest) : Prop :=
  (∀ u, u ∈ r.redirectUris ↔ u ∈ r'.redirectUris) ∧ ∀ g, g ∈ r.grantTypes ↔ g ∈ r'.grantTypes

/-- The request of a body of this kind, which can be hashed. -/
def Asked (bodies : Value → Prop) (r : RegisterRequest) : Prop :=
  ∃ body, bodies body ∧ parseRegisterRequest repr body = .ok r ∧
    Inbox.Encodable (fingerprintText r)

/-- The texts that are hashed tell apart what the requests of this kind ask for. -/
def TellsApart (bodies : Value → Prop) : Prop :=
  ∀ r r', Asked repr bodies r → Asked repr bodies r' →
    fingerprintText r = fingerprintText r' → SameAsk r r'

/-- The bodies that come in are of this kind. -/
def Bodies (bodies : Value → Prop) (_s : State) : Label → Prop
  | .receive _ body => bodies body
  | _ => True

/-! ### The invariant -/

/-- The request has an application, by this id. -/
def Has (s : State) (r : RegisterRequest) (clientId : Text) : Prop :=
  ∃ app ∈ s.apps, app.clientId = clientId ∧ app.payload.name = appName cfg r

/-- What is known of the applications, the requests and the responses. -/
structure Known (bodies : Value → Prop) (s : State) : Prop where
  ids : (s.apps.map App.clientId).Nodup
  apps : ∀ app ∈ s.apps, ∃ r, Asked repr bodies r ∧
    app.payload = buildZitadelOidcPayload (appName cfg r) r
  calls : ∀ t call, s.calls t = some call → Asked repr bodies call.1 ∧
    ∀ clientId, call.2 = .answering clientId → Has cfg s call.1 clientId
  log : ∀ response ∈ s.log, ∃ r nowUnix, Asked repr bodies r ∧
    response = toRfc7591Response r response.clientId nowUnix ∧ Has cfg s r response.clientId

variable {cfg repr} {bodies : Value → Prop} {s s' : State} {t : ℕ} {r r' : RegisterRequest}

theorem known_init : Known cfg repr bodies State.init :=
  ⟨List.nodup_nil, fun _ h => absurd h List.not_mem_nil,
    fun _ _ h => absurd h (by simp [State.init]),
    fun _ h => absurd h List.not_mem_nil⟩

/-- What `find_app_by_name` finds has the name. -/
theorem findAppByName_eq_some {apps : List App} {name : Text} {app : App}
    (h : findAppByName apps name = some app) : app ∈ apps ∧ app.payload.name = name :=
  ⟨List.mem_of_find?_eq_some h, by simpa using List.find?_some h⟩

theorem Known.move (h : Known cfg repr bodies s) {phase : Phase} (hr : Asked repr bodies r)
    (hphase : ∀ clientId, phase = .answering clientId → Has cfg s r clientId) :
    Known cfg repr bodies (s.move t r phase) := by
  refine ⟨h.ids, h.apps, fun t' call hcall => ?_, h.log⟩
  rcases Lts.update_eq_some hcall with ⟨-, ⟨⟩⟩ | ⟨-, hcall⟩
  · exact ⟨hr, hphase⟩
  · exact h.calls t' call hcall

theorem Known.drop (h : Known cfg repr bodies s) : Known cfg repr bodies (s.drop t) := by
  refine ⟨h.ids, h.apps, fun t' call hcall => ?_, h.log⟩
  rcases Lts.update_eq_some hcall with ⟨-, hnone⟩ | ⟨-, hcall⟩
  · exact absurd hnone (by simp)
  · exact h.calls t' call hcall

/-- An application is stored, under an id that no other has. -/
theorem Known.store (h : Known cfg repr bodies s) {clientId : Text}
    (hid : clientId ∉ s.apps.map App.clientId) (hr : Asked repr bodies r) :
    Known cfg repr bodies (s.store ⟨clientId, buildZitadelOidcPayload (appName cfg r) r⟩) := by
  have hmono : ∀ {r' : RegisterRequest} {id : Text}, Has cfg s r' id →
      Has cfg (s.store ⟨clientId, buildZitadelOidcPayload (appName cfg r) r⟩) r' id :=
    fun ⟨app, happ, h⟩ => ⟨app, List.mem_append_left _ happ, h⟩
  refine ⟨?_, fun app happ => ?_, fun t call hcall => ?_, fun response hresponse => ?_⟩
  · rw [State.store, List.map_append, List.nodup_append]
    refine ⟨h.ids, List.nodup_singleton _, fun id hold id' hnew heq => hid ?_⟩
    rw [List.map_cons, List.map_nil, List.mem_singleton] at hnew
    obtain rfl : id = clientId := heq.trans hnew
    exact hold
  · rcases List.mem_append.mp happ with happ | happ
    · exact h.apps app happ
    · obtain rfl := List.mem_singleton.mp happ
      exact ⟨r, hr, rfl⟩
  · exact ⟨(h.calls t call hcall).1, fun id hid => hmono ((h.calls t call hcall).2 id hid)⟩
  · obtain ⟨r', now, hr', heq, hhas⟩ := h.log response hresponse
    exact ⟨r', now, hr', heq, hmono hhas⟩

/-- A search leads to an application of that name, or to where nothing was found. -/
theorem Known.search (h : Known cfg repr bodies s) {otherwise : State} {outcome : Outcome}
    (hr : Asked repr bodies r) (hotherwise : Known cfg repr bodies otherwise) :
    Known cfg repr bodies (afterSearch cfg s t r otherwise outcome) := by
  cases outcome with
  | answers =>
    dsimp only [afterSearch]
    split
    next app hfound =>
      obtain ⟨happ, hname⟩ := findAppByName_eq_some hfound
      refine h.move hr fun clientId heq => ?_
      obtain rfl := Phase.answering.inj heq
      exact ⟨app, happ, rfl, hname⟩
    · exact hotherwise
  | misses => exact hotherwise
  | refuses exists_ => exact h.drop

/-- An application is made where the name is free. -/
theorem Known.create (h : Known cfg repr bodies s) {clientId : Text} {outcome : Outcome}
    (hid : clientId ∉ s.apps.map App.clientId) (hr : Asked repr bodies r) :
    Known cfg repr bodies (afterCreate cfg s t r clientId outcome) := by
  have hlook : Known cfg repr bodies (s.move t r .lookingAgain) := h.move hr (by simp)
  unfold afterCreate
  split
  · exact hlook
  · exact h.drop
  · dsimp only
    split
    · exact hlook
    · refine (h.store hid hr).move hr fun clientId' heq => ?_
      obtain rfl := Phase.answering.inj heq
      exact ⟨_, List.mem_append_right _ (List.mem_singleton_self _), rfl, rfl⟩
    · exact (h.store hid hr).drop

/-- One step of a request. -/
theorem Known.stepCall {l : Label} {phase : Phase} (h : Known cfg repr bodies s)
    (hcall : s.calls t = some (r, phase)) (hstep : stepCall cfg s t r phase l = some s') :
    Known cfg repr bodies s' := by
  obtain ⟨hr, hanswering⟩ := h.calls t _ hcall
  unfold Dcr.stepCall at hstep
  split at hstep
  · obtain rfl := Option.some.inj hstep
    exact h.search hr (h.move hr (by simp))
  · split_ifs at hstep with hid
    obtain rfl := Option.some.inj hstep
    exact h.create hid.2 hr
  · obtain rfl := Option.some.inj hstep
    exact h.search hr h.drop
  next clientId _ nowUnix =>
    obtain rfl := Option.some.inj hstep
    refine ⟨h.ids, h.apps, (h.drop (t := t)).calls, List.forall_mem_cons.mpr ⟨?_, h.log⟩⟩
    exact ⟨r, nowUnix, hr, rfl, hanswering clientId rfl⟩
  · exact absurd hstep (by simp)

/-- **What a step keeps.** -/
theorem Known.step {l : Label} (h : Known cfg repr bodies s) (hg : Bodies bodies s l)
    (hstep : step cfg repr s l = some s') : Known cfg repr bodies s' := by
  cases l with
  | receive t body =>
    simp only [Dcr.step] at hstep
    split at hstep
    · exact absurd hstep (by simp)
    · split at hstep
      · obtain rfl := Option.some.inj hstep
        exact h
      next r hparse =>
        split_ifs at hstep with hencodable
        · obtain rfl := Option.some.inj hstep
          exact h.move ⟨body, hg, hparse, hencodable⟩ (by simp)
        · obtain rfl := Option.some.inj hstep
          exact h
  | search t outcome | create t clientId outcome | lookAgain t outcome | answer t nowUnix =>
    obtain ⟨c, hcall, hstep⟩ := Option.bind_eq_some_iff.mp hstep
    exact h.stepCall hcall hstep

/-! ### When it is sound -/

theorem fingerprintText_of_appName (h : appName cfg r = appName cfg r') :
    fingerprintText r = fingerprintText r' :=
  cfg.sha256.injective (List.append_cancel_left h)

/-- The grant types of an application are those of its request. -/
theorem mem_grantTypes (name : Text) (r : RegisterRequest) :
    ∀ g ∈ zitadelGrants,
      g.2 ∈ (buildZitadelOidcPayload name r).grantTypes ↔ g.1 ∈ r.grantTypes := by
  intro g hg
  have hinj : ∀ g ∈ zitadelGrants, ∀ g' ∈ zitadelGrants, g.2 = g'.2 → g = g' := by decide
  simp only [buildZitadelOidcPayload, List.mem_map, List.mem_filter, decide_eq_true_eq]
  constructor
  · rintro ⟨g', ⟨hg', hmem⟩, heq⟩
    obtain rfl := hinj g' hg' g hg heq
    exact hmem
  · exact fun hmem => ⟨g, ⟨hg, hmem⟩, rfl⟩

theorem Known.sound (h : Known cfg repr bodies s) (htells : TellsApart repr bodies) :
    Sound s := by
  refine ⟨fun response hresponse => ?_, fun response hresponse response' hresponse' hid => ?_⟩
  · obtain ⟨r, now, hr, heq, app, happ, hid, hname⟩ := h.log response hresponse
    obtain ⟨r₀, hr₀, hpayload⟩ := h.apps app happ
    have happName : appName cfg r₀ = appName cfg r := by
      rw [← hname, hpayload]
      rfl
    have hsame : SameAsk r₀ r := htells r₀ r hr₀ hr (fingerprintText_of_appName happName)
    refine ⟨app, happ, hid, fun u => ?_, fun g hg => ?_⟩
    · rw [hpayload, heq]
      exact hsame.1 u
    · rw [hpayload, heq, mem_grantTypes _ _ g hg]
      exact hsame.2 g.1
  · obtain ⟨r, now, hr, heq, app, happ, hclient, hname⟩ := h.log response hresponse
    obtain ⟨r', now', hr', heq', app', happ', hclient', hname'⟩ := h.log response' hresponse'
    obtain rfl : app = app' := by
      refine List.inj_on_of_nodup_map h.ids happ happ' ?_
      rw [hclient, hclient', hid]
    have hsame := htells r r' hr hr' (fingerprintText_of_appName (hname.symm.trans hname'))
    rw [heq, heq']
    exact hsame

/-- The steps while the bodies that come in are of this kind. -/
abbrev StepOf (cfg : Config) (repr : Value → Text) (bodies : Value → Prop) :
    State → Label → State → Prop :=
  Lts.Under (Bodies bodies) (Lts.ofStep (step cfg repr))

/-- A request comes in, and is about to be searched for. -/
theorem StepOf.receive {body : Value} (hcall : s.calls t = none) (hbody : bodies body)
    (hparse : parseRegisterRequest repr body = .ok r)
    (hencodable : Inbox.Encodable (fingerprintText r)) :
    StepOf cfg repr bodies s (.receive t body) (s.move t r .searching) :=
  ⟨hbody, by simp [Lts.ofStep, step, hcall, hparse, hencodable]⟩

/-- A step of a request. -/
theorem StepOf.call {phase : Phase} {l : Label} (hcall : s.calls t = some (r, phase))
    (hl : (∃ outcome, l = .search t outcome) ∨
      (∃ clientId outcome, l = .create t clientId outcome) ∨
      ∃ nowUnix, l = .answer t nowUnix)
    (hstep : stepCall cfg s t r phase l = some s') : StepOf cfg repr bodies s l s' := by
  rcases hl with ⟨outcome, rfl⟩ | ⟨clientId, outcome, rfl⟩ | ⟨nowUnix, rfl⟩
  all_goals exact ⟨trivial, Option.bind_eq_some_iff.mpr ⟨_, hcall, hstep⟩⟩

/-- A request that is answered with an application of its own. -/
theorem exists_run_created {ls : List Label}
    (hrun : Lts.Run (StepOf cfg repr bodies) State.init ls s)
    (hcall : s.calls 0 = none) (hr : Asked repr bodies r)
    (hfree : findAppByName s.apps (appName cfg r) = none) {clientId : Text} (hne : clientId ≠ [])
    (hid : clientId ∉ s.apps.map App.clientId) :
    ∃ ls' s', Lts.Run (StepOf cfg repr bodies) State.init ls' s' ∧ s'.calls 0 = none ∧
      s'.apps = s.apps ++ [⟨clientId, buildZitadelOidcPayload (appName cfg r) r⟩] ∧
      s'.log = toRfc7591Response r clientId 0 :: s.log := by
  obtain ⟨body, hbody, hparse, hencodable⟩ := hr
  have h₁ := hrun.snoc (StepOf.receive hcall hbody hparse hencodable)
  obtain ⟨s₂, hs₂⟩ : ∃ s₂, s₂ = (s.move 0 r .searching).move 0 r .creating := ⟨_, rfl⟩
  have hcreate : stepCall cfg s₂ 0 r .creating (.create 0 clientId .answers) =
      some ((s₂.store ⟨clientId, buildZitadelOidcPayload (appName cfg r) r⟩).move 0 r
        (.answering clientId)) := by
    have hguard : clientId ≠ [] ∧ clientId ∉ s₂.apps.map App.clientId := ⟨hne, hs₂ ▸ hid⟩
    have hfree₂ : findAppByName s₂.apps (appName cfg r) = none := hs₂ ▸ hfree
    simp only [Dcr.stepCall, if_pos hguard, afterCreate, hfree₂]
  have hsearch : stepCall cfg (s.move 0 r .searching) 0 r .searching (.search 0 .misses) =
      some s₂ := by
    rw [hs₂]
    rfl
  have h₂ := h₁.snoc (StepOf.call (State.move_calls_self ..) (by simp) hsearch)
  have h₃ := h₂.snoc (StepOf.call (by rw [hs₂]; exact State.move_calls_self ..) (by simp) hcreate)
  have h₄ := h₃.snoc (StepOf.call (l := .answer 0 0) (State.move_calls_self ..) (by simp) rfl)
  subst hs₂
  exact ⟨_, _, h₄, by simp [State.drop], rfl, rfl⟩

/-- A request that is answered with the application there is. -/
theorem exists_run_found {ls : List Label}
    (hrun : Lts.Run (StepOf cfg repr bodies) State.init ls s)
    (hcall : s.calls 0 = none) (hr : Asked repr bodies r) {app : App}
    (hfound : findAppByName s.apps (appName cfg r) = some app) :
    ∃ ls' s', Lts.Run (StepOf cfg repr bodies) State.init ls' s' ∧
      s'.log = toRfc7591Response r app.clientId 0 :: s.log := by
  obtain ⟨body, hbody, hparse, hencodable⟩ := hr
  have h₁ := hrun.snoc (StepOf.receive hcall hbody hparse hencodable)
  have hsearch : stepCall cfg (s.move 0 r .searching) 0 r .searching (.search 0 .answers) =
      some ((s.move 0 r .searching).move 0 r (.answering app.clientId)) := by
    have hfound' : findAppByName (s.move 0 r .searching).apps (appName cfg r) = some app := hfound
    simp only [Dcr.stepCall, afterSearch, hfound']
  have h₂ := h₁.snoc (StepOf.call (State.move_calls_self ..) (by simp) hsearch)
  have h₃ := h₂.snoc (StepOf.call (l := .answer 0 0) (State.move_calls_self ..) (by simp) rfl)
  exact ⟨_, _, h₃, rfl⟩

/-- **When registration is sound.** Whatever requests of this kind come, in whatever order, and
whatever calls of the IdP fail: every run is sound if and only if the texts that are hashed
tell apart what the requests ask for. -/
theorem sound_iff (cfg : Config) (repr : Value → Text) (bodies : Value → Prop) :
    (∀ ls s, Lts.Run (Lts.Under (Bodies bodies) (Lts.ofStep (step cfg repr))) State.init ls s →
      Sound s) ↔ TellsApart repr bodies := by
  constructor
  · intro hsound r r' hr hr' htext
    have hnil : Lts.Run (StepOf cfg repr bodies) State.init [] State.init := .nil
    obtain ⟨ls, s, hrun, hcall, happs, hlog⟩ := exists_run_created hnil rfl hr rfl
      (show ([1] : Text) ≠ [] by simp) (by simp [State.init])
    have hfound : findAppByName s.apps (appName cfg r') =
        some ⟨[1], buildZitadelOidcPayload (appName cfg r) r⟩ := by
      have hname : appName cfg r = appName cfg r' := by rw [appName, appName, htext]
      rw [happs, ← hname]
      simp [findAppByName, State.init, buildZitadelOidcPayload]
    obtain ⟨ls', s', hrun', hlog'⟩ := exists_run_found hrun hcall hr' hfound
    refine (hsound ls' s' hrun').apart (toRfc7591Response r [1] 0) ?_
      (toRfc7591Response r' [1] 0) ?_ rfl
    · rw [hlog', hlog]
      simp
    · rw [hlog']
      exact List.mem_cons_self
  · intro htells ls s hrun
    exact (hrun.inv_state (I := Known cfg repr bodies) known_init
      fun a l b ha hl => ha.step hl.1 hl.2).sound htells

/-! ### Two requests with one fingerprint -/

/-- A shim whose hash is the text itself. -/
def plainConfig : Config := ⟨Function.Embedding.refl _, lit "d:"⟩

/-- A body with these redirect URIs and grant types. -/
def client (uris grantTypes : List String) : Value :=
  .dict [(.str (lit "redirect_uris"), .list (uris.map fun u => .str (lit u))),
    (.str (lit "grant_types"), .list (grantTypes.map fun g => .str (lit g)))]

/-- A request that is answered with a new application, and one that finds it. -/
def answeredAlike (body body' : Value) : List Label :=
  [.receive 0 body, .search 0 .answers, .create 0 [1] .answers, .answer 0 0,
    .receive 0 body', .search 0 .answers, .answer 0 0]

/-- The second request asks for a refresh token too, and is told that it will have one, by an
application that has none. -/
theorem not_sound : ∃ s : State,
    Lts.Run (Lts.ofStep (step plainConfig fun _ => [])) State.init
      (answeredAlike (client ["http://localhost"] ["authorization_code"])
        (client ["http://localhost"] ["authorization_code", "refresh_token"])) s ∧ ¬Sound s := by
  obtain ⟨s, hrun, hs⟩ := Lts.exists_run_of_exec (step plainConfig fun _ => []) State.init
    (answeredAlike (client ["http://localhost"] ["authorization_code"])
      (client ["http://localhost"] ["authorization_code", "refresh_token"]))
    (fun s => (∃ x ∈ s.log, x.clientId = [1] ∧ lit "refresh_token" ∈ x.grantTypes) ∧
      ∃ y ∈ s.log, y.clientId = [1] ∧ lit "refresh_token" ∉ y.grantTypes)
    (by decide +kernel)
  obtain ⟨⟨x, hx, hxid, hxmem⟩, y, hy, hyid, hymem⟩ := of_decide_eq_true hs
  exact ⟨s, hrun, fun h => hymem (((h.apart x hx y hy (hxid.trans hyid.symm)).2 _).mp hxmem)⟩

/-- Two redirect URIs, and one with a newline in it, are one text. -/
example : ([10] : Text).intercalate ([] :: [lit "http://localhost/a", lit "http://localhost/b"]) =
    [10].intercalate ([] :: [lit "http://localhost/a\nhttp://localhost/b"]) := by decide

end Dcr

end OtamanBridge
