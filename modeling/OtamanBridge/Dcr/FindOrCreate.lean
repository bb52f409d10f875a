import OtamanBridge.Dcr.Registration

/-!
# One application for one client

`find_or_create_client` of `dcr_shim.py`, called by any number of threads for the same
client, with the errors that its calls of the IdP raise. The IdP takes each name once, and
says 409 to the second; its search finds what there is. Then every call that returns has the
id of the one application of that name, and none raises the 409
(`OtamanBridge.Dcr.FindOrCreate.idempotent`), also where calls fail on the way, or are
carried out and their answer is lost.

The same client is one with the same software id and the same redirect URIs in any order.
A URI that is named twice counts twice: the fingerprint is taken of the sorted list
(`OtamanBridge.Dcr.FindOrCreate.not_idempotent`).
-/

namespace OtamanBridge

namespace Dcr

namespace FindOrCreate

open Py

open Inbox (Encodable)

/-! ### The calls -/

/-- `ZitadelMgmtError`, without its message. -/
structure MgmtError where
  status : Option ℕ
  body : Option Text
  deriving DecidableEq

/-- What `find_or_create_client` takes for a conflict: the status, or a body that says so. -/
def MgmtError.conflicts (e : MgmtError) : Bool :=
  e.status = some 409 || lit "already exists" <:+: lower (e.body.getD [])

/-- `_extract_client_id_from_create` and `_extract_client_id_from_search`. -/
def extractClientId (clientId : Text) : Except MgmtError Text :=
  if clientId = [] then .error ⟨none, none⟩ else .ok clientId

/-- Why a call raises: the fingerprint cannot be encoded, or the IdP does not do its part. -/
inductive Failure
  | encode
  | mgmt (e : MgmtError)
  deriving DecidableEq

/-- Where a call stands. -/
inductive Phase
  | begun
  /-- `create_oidc_app` comes next. -/
  | creating
  /-- `find_app_by_name` comes once more, after this error. -/
  | lookingAgain (e : MgmtError)
  | returned (clientId : Text)
  | raised (failure : Failure)
  deriving DecidableEq

/-- The applications of the project, and the calls. -/
structure State where
  apps : List App
  phase : ℕ → Phase

/-- The calls are about to begin. -/
def start (apps : List App) : State := ⟨apps, fun _ => .begun⟩

/-- What comes of a call of the IdP. -/
inductive Reply
  | answers
  /-- It raises, and nothing was done. -/
  | fails (e : MgmtError)
  /-- It raises, after it was carried out. -/
  | lost (e : MgmtError)
  deriving DecidableEq

/-- A call makes its next call of the IdP, which gives an application that it makes this id;
or somebody else makes an application. -/
inductive Label
  | move (c : ℕ) (clientId : Text) (reply : Reply)
  | other (app : App)

namespace State

variable (s : State)

/-- A call moves. -/
def go (c : ℕ) (phase : Phase) : State := { s with phase := Function.update s.phase c phase }

/-- The IdP takes an application, unless it has one of that name. -/
def take (app : App) : State :=
  match findAppByName s.apps app.payload.name with
  | some _ => s
  | none => { s with apps := s.apps ++ [app] }

end State

/-- The end of a call: the id, or that there is none. -/
def result : Except MgmtError Text → Phase
  | .ok clientId => .returned clientId
  | .error e => .raised (.mgmt e)

/-- The `except` clause around `create_oidc_app`. -/
def excepted (e : MgmtError) : Phase :=
  if e.conflicts then .lookingAgain e else .raised (.mgmt e)

section

variable (cfg : Config) (conflictBody : Text) (requests : ℕ → RegisterRequest)

/-- After a search, which may find nothing. -/
def searched (apps : List App) (r : RegisterRequest) (otherwise : Phase) : Reply → Phase
  | .answers =>
    match findAppByName apps (appName cfg r) with
    | some app => result (extractClientId app.clientId)
    | none => otherwise
  | .fails e => .raised (.mgmt e)
  | .lost e => .raised (.mgmt e)

/-- After `create_oidc_app`. -/
def created (apps : List App) (r : RegisterRequest) (clientId : Text) : Reply → Phase
  | .answers =>
    match findAppByName apps (appName cfg r) with
    | some _ => excepted ⟨some 409, some conflictBody⟩
    | none => result (extractClientId clientId)
  | .fails e => excepted e
  | .lost e => excepted e

/-- The request was carried out. -/
def Reply.done : Reply → Bool
  | .fails _ => false
  | _ => true

/-- One step. -/
def step (s : State) : Label → Option State
  | .other app => some (s.take app)
  | .move c clientId reply =>
    let r := requests c
    match s.phase c with
    | .begun =>
      if Encodable (fingerprintText r) then
        some (s.go c (searched cfg s.apps r .creating reply))
      else some (s.go c (.raised .encode))
    | .creating =>
      let app := ⟨clientId, buildZitadelOidcPayload (appName cfg r) r⟩
      some ((if reply.done then s.take app else s).go c
        (created cfg conflictBody s.apps r clientId reply))
    | .lookingAgain e => some (s.go c (searched cfg s.apps r (.raised (.mgmt e)) reply))
    | _ => none

end

/-- The error of a call that raises. -/
def Reply.error : Reply → Option MgmtError
  | .answers => none
  | .fails e => some e
  | .lost e => some e

def Label.error : Label → Option MgmtError
  | .move _ _ reply => reply.error
  | .other _ => none

/-- The IdP says 409 to a name that it has, and to nothing else. -/
def Lawful (_s : State) (l : Label) : Prop := ∀ e ∈ l.error, e.status ≠ some 409

instance (s : State) (l : Label) : Decidable (Lawful s l) :=
  inferInstanceAs (Decidable (∀ e ∈ l.error, _))

/-- The two requests are of the same client: the software id and the redirect URIs. -/
structure SameClient (r r' : RegisterRequest) : Prop where
  softwareId : r.softwareId = r'.softwareId
  redirectUris : r.redirectUris.Perm r'.redirectUris

variable {cfg : Config} {conflictBody : Text} {requests : ℕ → RegisterRequest} {s s' : State}
  {l : Label} {r r' : RegisterRequest} {app : App} {name : Text}

/-- **Sorting forgets the order**: the same client, the same name. -/
theorem SameClient.appName_eq (h : SameClient r r') : appName cfg r = appName cfg r' := by
  have hsort : r.redirectUris.insertionSort (· ≤ ·) = r'.redirectUris.insertionSort (· ≤ ·) := by
    refine List.Perm.eq_of_pairwise' (r := (· ≤ ·)) (List.pairwise_insertionSort _ _)
      (List.pairwise_insertionSort _ _) ?_
    exact ((List.perm_insertionSort _ _).trans h.redirectUris).trans
      (List.perm_insertionSort _ _).symm
  rw [appName, appName, fingerprintText, fingerprintText, h.softwareId, hsort]

/-! ### The applications -/

/-- No two applications have one name. -/
def Distinct (apps : List App) : Prop := (apps.map fun app => app.payload.name).Nodup

/-- There is an application of that name. -/
def Named (apps : List App) (name : Text) : Prop := ∃ app ∈ apps, app.payload.name = name

theorem findAppByName_eq_none {apps : List App} (h : findAppByName apps name = none) :
    ¬Named apps name := by
  rintro ⟨app, happ, hname⟩
  have := List.find?_eq_none.mp h app happ
  exact this (by simpa using hname)

theorem Distinct.take (h : Distinct s.apps) : Distinct (s.take app).apps := by
  unfold State.take
  split
  · exact h
  next hnone =>
    rw [Distinct, List.map_append, List.nodup_append]
    refine ⟨h, List.nodup_singleton _, fun name hold name' hnew heq => ?_⟩
    rw [List.map_cons, List.map_nil, List.mem_singleton] at hnew
    obtain ⟨app', happ', hname⟩ := List.mem_map.mp hold
    exact findAppByName_eq_none hnone ⟨app', happ', hname.trans (heq.trans hnew)⟩

theorem mem_take {app' : App} (h : app' ∈ s.apps) : app' ∈ (s.take app).apps := by
  unfold State.take
  split
  · exact h
  · exact List.mem_append_left _ h

/-- An application that is taken is there, unless its name was. -/
theorem mem_take_self (h : findAppByName s.apps app.payload.name = none) :
    app ∈ (s.take app).apps := by
  unfold State.take
  rw [h]
  exact List.mem_append_right _ (List.mem_singleton_self _)

/-! ### The invariant -/

/-- What a phase of a call for this name rests on. -/
def Grounded (apps : List App) (name : Text) : Phase → Prop
  | .returned clientId => ∃ app ∈ apps, app.payload.name = name ∧ app.clientId = clientId
  | .lookingAgain e => e.status = some 409 → Named apps name
  | .raised (.mgmt e) => e.status ≠ some 409
  | _ => True

theorem Grounded.mono {apps apps' : List App} {phase : Phase} (h : Grounded apps name phase)
    (hsub : ∀ app ∈ apps, app ∈ apps') : Grounded apps' name phase := by
  cases phase with
  | returned clientId =>
    obtain ⟨app, happ, hname, hid⟩ := h
    exact ⟨app, hsub app happ, hname, hid⟩
  | lookingAgain e =>
    intro he
    obtain ⟨app, happ, hname⟩ := h he
    exact ⟨app, hsub app happ, hname⟩
  | raised failure => cases failure <;> exact h
  | begun => trivial
  | creating => trivial

theorem grounded_excepted {apps : List App} {e : MgmtError}
    (h : e.status = some 409 → Named apps name) : Grounded apps name (excepted e) := by
  unfold excepted
  split_ifs with hconflict
  · exact h
  · intro he
    exact hconflict (by simp [MgmtError.conflicts, he])

theorem grounded_result {apps : List App} (happ : app ∈ apps) (hname : app.payload.name = name) :
    Grounded apps name (result (extractClientId app.clientId)) := by
  unfold extractClientId
  split_ifs
  · exact fun he => absurd he (by simp)
  · exact ⟨app, happ, hname, rfl⟩

theorem grounded_searched {apps : List App} {otherwise : Phase} {reply : Reply} {c : ℕ}
    {clientId : Text} (hlawful : Lawful s (.move c clientId reply))
    (hotherwise : ¬Named apps (appName cfg r) → Grounded apps (appName cfg r) otherwise) :
    Grounded apps (appName cfg r) (searched cfg apps r otherwise reply) := by
  cases reply with
  | answers =>
    dsimp only [searched]
    split
    next app hfound =>
      obtain ⟨happ, hname⟩ := findAppByName_eq_some hfound
      exact grounded_result happ hname
    next hnone => exact hotherwise (findAppByName_eq_none hnone)
  | fails e => exact hlawful e rfl
  | lost e => exact hlawful e rfl

/-- What is known of the applications and the calls. -/
structure Known (cfg : Config) (requests : ℕ → RegisterRequest) (s : State) : Prop where
  distinct : Distinct s.apps
  phase : ∀ c, Grounded s.apps (appName cfg (requests c)) (s.phase c)

theorem known_start {apps : List App} (h : Distinct apps) : Known cfg requests (start apps) :=
  ⟨h, fun _ => trivial⟩

theorem Known.go (h : Known cfg requests s) {c : ℕ} {phase : Phase}
    (hphase : Grounded s.apps (appName cfg (requests c)) phase) :
    Known cfg requests (s.go c phase) := by
  refine ⟨h.distinct, fun c' => ?_⟩
  show Grounded s.apps _ (Function.update s.phase c phase c')
  rcases eq_or_ne c' c with rfl | hne
  · rwa [Function.update_self]
  · rw [Function.update_of_ne hne]
    exact h.phase c'

theorem Known.take (h : Known cfg requests s) : Known cfg requests (s.take app) := by
  have hphase : (s.take app).phase = s.phase := by
    unfold State.take
    split <;> rfl
  refine ⟨h.distinct.take, fun c => ?_⟩
  rw [hphase]
  exact (h.phase c).mono fun _ => mem_take

/-- **What a step keeps.** -/
theorem Known.step (h : Known cfg requests s) (hlawful : Lawful s l)
    (hl : step cfg conflictBody requests s l = some s') : Known cfg requests s' := by
  cases l with
  | other app =>
    obtain rfl := Option.some.inj hl
    exact h.take
  | move c clientId reply =>
    simp only [FindOrCreate.step] at hl
    split at hl
    · split_ifs at hl
      · obtain rfl := Option.some.inj hl
        exact h.go (grounded_searched hlawful fun _ => trivial)
      · obtain rfl := Option.some.inj hl
        exact h.go trivial
    · obtain rfl := Option.some.inj hl
      cases reply with
      | fails e => exact h.go (grounded_excepted fun he => absurd he (hlawful e rfl))
      | lost e => exact h.take.go (grounded_excepted fun he => absurd he (hlawful e rfl))
      | answers =>
        refine h.take.go ?_
        dsimp only [created]
        split
        next app hfound =>
          obtain ⟨happ, hname⟩ := findAppByName_eq_some hfound
          exact grounded_excepted fun _ => ⟨app, mem_take happ, hname⟩
        next hnone => exact grounded_result (mem_take_self hnone) rfl
    next e hphase =>
      obtain rfl := Option.some.inj hl
      have hground := h.phase c
      rw [hphase] at hground
      exact h.go (grounded_searched hlawful fun hnot he => hnot (hground he))
    · exact absurd hl (by simp)

/-- With distinct names, a name says which application it is. -/
theorem Distinct.eq {apps : List App} (h : Distinct apps) {app' : App} (happ : app ∈ apps)
    (happ' : app' ∈ apps) (hname : app.payload.name = app'.payload.name) : app = app' :=
  List.inj_on_of_nodup_map h happ happ' hname

/-- **Find-or-create is idempotent.** However the calls for one client are interleaved, with
each other and with whoever else makes applications: those that return have one id, no name
is given to a second application, and no call raises the 409. -/
theorem idempotent {apps : List App} (happs : Distinct apps)
    (hsame : ∀ c c', SameClient (requests c) (requests c')) {ls : List Label}
    (h : Lts.Run (Lts.Under Lawful (Lts.ofStep (step cfg conflictBody requests))) (start apps)
      ls s) :
    (∀ c c' clientId clientId', s.phase c = .returned clientId →
      s.phase c' = .returned clientId' → clientId = clientId') ∧
    Distinct s.apps ∧
    ∀ c e, s.phase c = .raised (.mgmt e) → e.status ≠ some 409 := by
  have hK : Known cfg requests s := by
    refine h.inv_state (I := fun s => Known cfg requests s) (known_start happs) ?_
    exact fun a l b hK hl => hK.step hl.1 hl.2
  have hground : ∀ c phase, s.phase c = phase →
      Grounded s.apps (appName cfg (requests c)) phase := by
    rintro c phase rfl
    exact hK.phase c
  refine ⟨fun c c' clientId clientId' hc hc' => ?_, hK.distinct, fun c e hc => hground c _ hc⟩
  obtain ⟨app, happ, hname, rfl⟩ := hground c _ hc
  obtain ⟨app', happ', hname', rfl⟩ := hground c' _ hc'
  rw [hK.distinct.eq happ happ' (by rw [hname, hname', (hsame c c').appName_eq])]

/-! ### Two runs -/

/-- A client that names redirect URIs and nothing else. -/
def registering (uris : List String) : Value :=
  .dict [(.str (lit "redirect_uris"), .list (uris.map fun u => .str (lit u)))]

/-- Its request. -/
def native (uris : List String) : RegisterRequest where
  redirectUris := uris.map lit
  clientName := none
  grantTypes := [lit "authorization_code"]
  responseTypes := [lit "code"]
  tokenEndpointAuthMethod := lit "none"
  scope := none
  softwareId := none
  softwareVersion := none

/-- A shim whose fingerprints are the texts themselves. -/
def plainConfig : Config := ⟨Function.Embedding.refl _, lit "dcr-shim:"⟩

/-- The call with number 0, and the others. -/
def requesting (uris others : List String) (c : ℕ) : RegisterRequest :=
  native (if c = 0 then uris else others)

/-- Both calls find nothing, both create, and the second looks again. -/
def racing : List Label :=
  [.move 0 [] .answers, .move 1 [] .answers, .move 0 (lit "one") .answers,
    .move 1 (lit "two") .answers, .move 1 [] .answers]

theorem requesting_cases (uris others : List String) (c : ℕ) :
    requesting uris others c = native uris ∨ requesting uris others c = native others := by
  rcases eq_or_ne c 0 with rfl | hne
  · exact .inl (by rw [requesting, if_pos rfl])
  · exact .inr (by rw [requesting, if_neg hne])

theorem sameClient_native {uris others : List String} (h : uris.Perm others) (c c' : ℕ) :
    SameClient (requesting uris others c) (requesting uris others c') := by
  have hone : ∀ c, (requesting uris others c).softwareId = none ∧
      (requesting uris others c).redirectUris.Perm (uris.map lit) := by
    intro c
    rcases requesting_cases uris others c with heq | heq <;> rw [heq]
    · exact ⟨rfl, .refl _⟩
    · exact ⟨rfl, (h.map lit).symm⟩
  exact ⟨(hone c).1.trans (hone c').1.symm, (hone c).2.trans (hone c').2.symm⟩

/-- Two clients that name the same two URIs, the other way round. -/
theorem idempotent_racing : ∃ s : State,
    s.phase 0 = .returned (lit "one") ∧ s.phase 1 = .returned (lit "one") ∧
      s.apps.length = 1 ∧ Distinct s.apps := by
  obtain ⟨s, hrun, hs⟩ := Lts.exists_under_run_of_exec (step plainConfig [] (requesting
      ["http://localhost:1/a", "http://localhost:1/b"]
      ["http://localhost:1/b", "http://localhost:1/a"])) (C := Lawful)
    (fun s l => decide (Lawful s l)) (fun _ _ => of_decide_eq_true) (start []) racing
    (fun s => s.phase 0 = .returned (lit "one") ∧ s.apps.length = 1 ∧
      s.phase 1 = .returned (lit "one")) (by decide +kernel)
  obtain ⟨h0, hone, h1⟩ := of_decide_eq_true hs
  have hstart : Distinct [] := List.nodup_nil
  obtain ⟨-, hdistinct, -⟩ := idempotent hstart (sameClient_native (.swap ..)) hrun
  exact ⟨s, h0, h1, hone, hdistinct⟩

/-- **A URI that is named twice** makes another client of it: two bodies that name the same
set of redirect URIs get two applications, one after the other. -/
theorem not_idempotent : ¬∀ (cfg : Config) (conflictBody : Text) (repr : Value → Text)
    (requests : ℕ → RegisterRequest) (apps : List App) (ls : List Label) (s : State),
    Distinct apps →
    (∀ c, ∃ body, parseRegisterRequest repr body = .ok (requests c)) →
    (∀ c c', (requests c).softwareId = (requests c').softwareId ∧
      ∀ u, u ∈ (requests c).redirectUris ↔ u ∈ (requests c').redirectUris) →
    Lts.Run (Lts.Under Lawful (Lts.ofStep (step cfg conflictBody requests))) (start apps) ls s →
    ∀ c c' clientId clientId', s.phase c = .returned clientId →
      s.phase c' = .returned clientId' → clientId = clientId' := by
  intro h
  obtain ⟨s, hrun, hs⟩ := Lts.exists_under_run_of_exec (step plainConfig [] (requesting
      ["http://localhost:1/a"] ["http://localhost:1/a", "http://localhost:1/a"])) (C := Lawful)
    (fun s l => decide (Lawful s l)) (fun _ _ => of_decide_eq_true) (start [])
    [.move 0 [] .answers, .move 0 (lit "one") .answers, .move 1 [] .answers,
      .move 1 (lit "two") .answers]
    (fun s => s.phase 0 = .returned (lit "one") ∧ s.phase 1 = .returned (lit "two"))
    (by decide +kernel)
  obtain ⟨h0, h1⟩ := of_decide_eq_true hs
  refine absurd (h plainConfig [] (fun _ => []) _ [] _ s List.nodup_nil (fun c => ?_)
    (fun c c' => ?_) hrun 0 1 _ _ h0 h1) (by decide)
  · rcases requesting_cases ["http://localhost:1/a"]
      ["http://localhost:1/a", "http://localhost:1/a"] c with heq | heq <;> rw [heq]
    · exact ⟨registering ["http://localhost:1/a"], rfl⟩
    · exact ⟨registering ["http://localhost:1/a", "http://localhost:1/a"], rfl⟩
  · have hone : ∀ c, (requesting ["http://localhost:1/a"]
        ["http://localhost:1/a", "http://localhost:1/a"] c).softwareId = none ∧
        ∀ u, u ∈ (requesting ["http://localhost:1/a"]
          ["http://localhost:1/a", "http://localhost:1/a"] c).redirectUris ↔
            u = lit "http://localhost:1/a" := by
      intro c
      rcases requesting_cases ["http://localhost:1/a"]
        ["http://localhost:1/a", "http://localhost:1/a"] c with heq | heq <;> rw [heq] <;>
        exact ⟨rfl, fun u => by simp [native]⟩
    exact ⟨(hone c).1.trans (hone c').1.symm, fun u => ((hone c).2 u).trans ((hone c').2 u).symm⟩

end FindOrCreate

end Dcr

end OtamanBridge
