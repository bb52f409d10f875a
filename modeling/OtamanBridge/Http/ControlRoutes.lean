import OtamanBridge.Approval.Step
import OtamanBridge.Http.Auth

/-!
# The internal routes

`POST` to `/approval`, `/notify`, `/reply` and `/shutdown`: the gate, the body, and then
one of the four handlers of the daemon. What the handlers do is a parameter; the approval
path has its own model, and `OtamanBridge.Http.postReply_refused` is the gate seen from
there.
-/

namespace OtamanBridge

namespace Http

open Py

/-- The internal routes. -/
inductive Route
  | approval
  | notify
  | reply
  | shutdown
  deriving DecidableEq

/-- What `_read_body` finds. -/
inductive Body
  /-- The JSON of the body; an empty body is `{}`. -/
  | json (v : Value)
  /-- `None`: no JSON. -/
  | invalid
  /-- An exception, about `Content-Length` or the encoding. -/
  | raises

/-- A request to one of the routes. -/
structure Request where
  route : Route
  headers : Headers
  body : Body

/-- What becomes of a request: a reply with this status, or an exception that ends the
connection. -/
inductive Answer
  | status (code : ℕ)
  | raised
  deriving DecidableEq

/-- A daemon: who may call it, and everything its handlers work on. -/
structure Daemon (σ : Type*) where
  auth : AuthStack
  control : σ

variable {σ : Type*}

/-- The control routes of `do_POST`, over the handlers of the daemon. -/
def post (handle : Route → Value → σ → σ × Answer) (now : Seconds) (d : Daemon σ) (r : Request) :
    Daemon σ × Answer :=
  match d.auth.identify now r.headers with
  | (auth, .error _) => ({ d with auth }, .raised)
  | (auth, .ok none) => ({ d with auth }, .status 401)
  | (auth, .ok (some _)) =>
    match r.body with
    | .raises => ({ d with auth }, .raised)
    | .invalid => ({ d with auth }, .status 400)
    | .json body =>
      let (control, answer) := handle r.route body d.control
      (⟨auth, control⟩, answer)

/-! ### What the gate lets through -/

variable {handle : Route → Value → σ → σ × Answer} {now : Seconds} {d : Daemon σ} {r : Request}

/-- Without a credential the handlers are not reached. -/
theorem post_of_not_authorised (h : ¬d.auth.Authorised now r.headers) :
    (post handle now d r).1.control = d.control ∧
      ((post handle now d r).2 = .status 401 ∨ (post handle now d r).2 = .raised) := by
  rw [← AuthStack.identify_isSome_iff] at h
  unfold post
  rcases hid : d.auth.identify now r.headers with ⟨auth, _ | _ | ctx⟩
  · exact ⟨rfl, .inr rfl⟩
  · exact ⟨rfl, .inl rfl⟩
  · exact absurd ⟨ctx, by rw [hid]⟩ h

/-- With a credential and a body they are. -/
theorem post_of_authorised (h : d.auth.Authorised now r.headers) {body : Value}
    (hbody : r.body = .json body) :
    (post handle now d r).1.control = (handle r.route body d.control).1 ∧
      (post handle now d r).2 = (handle r.route body d.control).2 := by
  obtain ⟨ctx, hctx⟩ := AuthStack.identify_isSome_iff.mpr h
  unfold post
  rcases hid : d.auth.identify now r.headers with ⟨auth, res⟩
  rw [hid] at hctx
  obtain rfl : res = .ok (some ctx) := hctx
  simp only [hbody]
  exact ⟨trivial, trivial⟩

/-- **Who controls the daemon.** For every configuration of the auth stack, every request
to an internal route and whatever the handlers do: without one of the credentials the
daemon knows nothing happens, and the answer is a 401 or none; with one, the handler of
the route runs on the body. A daemon that serves the loopback bearer only knows one
credential, its own token. -/
theorem control_authority (handle : Route → Value → σ → σ × Answer) (now : Seconds)
    (d : Daemon σ) (r : Request) :
    (¬d.auth.Authorised now r.headers → (post handle now d r).1.control = d.control ∧
      ((post handle now d r).2 = .status 401 ∨ (post handle now d r).2 = .raised)) ∧
    (d.auth.Authorised now r.headers → ∀ body, r.body = .json body →
      (post handle now d r).1.control = (handle r.route body d.control).1) ∧
    (d.auth.LoopbackOnly → (d.auth.Authorised now r.headers ↔
      d.auth.PresentsToken r.headers)) :=
  ⟨post_of_not_authorised, fun h _ hbody => (post_of_authorised h hbody).1,
    AuthStack.LoopbackOnly.authorised_iff⟩

/-- What the gate answers a request, as the approval path sees it. -/
def gate (now : Seconds) (d : Daemon σ) (r : Request) : Option CallContext :=
  (d.auth.identify now r.headers).2.toOption.join

/-- On the approval path, a refused reply changes nothing. -/
theorem postReply_refused {cfg : Approval.Config} {s s' : Approval.State} {i : ℕ}
    {response : ApprovalResponse} (h : ¬d.auth.Authorised now r.headers)
    (hstep : Approval.step cfg s (.postReply i (gate now d r) response) = some s') : s' = s := by
  have hgate : gate now d r = none := by
    rw [← AuthStack.identify_isSome_iff] at h
    unfold gate
    rcases hid : (d.auth.identify now r.headers).2 with _ | _ | ctx
    · rfl
    · rfl
    · exact absurd ⟨ctx, hid⟩ h
  simp only [Approval.step, hgate] at hstep
  split_ifs at hstep
  exact (Option.some.inj hstep).symm

/-! ### A session that stops the daemon -/

/-- A daemon with the web login, and one user who is logged in. -/
def someDaemon : Daemon Bool where
  auth :=
    { token := lit "5f0c"
      token_ascii := by decide
      ee := true
      validator := none
      cookie := some (lit "otaman_bridge_sid")
      sessions := (∅ : Sessions).insert (lit "s1") ⟨lit "user-B", none, [], 28800⟩ }
  control := false

/-- A handler of `/shutdown`: the daemon is stopping. -/
def handleShutdown : Route → Value → Bool → Bool × Answer
  | .shutdown, _, _ => (true, .status 200)
  | _, _, stopping => (stopping, .status 202)

/-- The cookie of a session stops the daemon, without its token. -/
theorem not_control_token_only : ∃ r : Request,
    r.route = .shutdown ∧ ¬someDaemon.auth.PresentsToken r.headers ∧
      (post handleShutdown 0 someDaemon r).1.control ≠ someDaemon.control := by
  refine ⟨⟨.shutdown, [(lit "Cookie", lit "otaman_bridge_sid=s1")], .json (.dict [])⟩, rfl, ?_, ?_⟩
  · have hbearer : bearer [(lit "Cookie", lit "otaman_bridge_sid=s1")] = none := by
      decide
    simp [AuthStack.PresentsToken, hbearer]
  · rw [(post_of_authorised ?_ rfl).1]
    · decide
    · refine ⟨fun hraises => absurd hraises.2 (by simp [AuthStack.oidcBearer, someDaemon]), ?_⟩
      right
      right
      refine ⟨rfl, _, rfl, lit "s1", _, by decide, AList.lookup_insert _, ?_⟩
      decide

end Http

end OtamanBridge
