import OtamanBridge.Inbox.Message
import OtamanBridge.Lib.PyTime

/-!
# The client of the runner

`RunnerClient.spawn` of `runner_client.py`: the endpoint file is read line by line, a request
is sent to the runner it names, and the answer is taken apart. Each of these may fail in
several ways, and an exception is a `RunnerUnreachableError`, a `RunnerAuthError` or a
`SpawnError` of the client's own, or another one that it lets through: the `ValueError` of a
port that is no number or of an answer that is no JSON, or what `http.client` raises when it
reads the answer. What the network and the runner answer is a parameter, and so is what Python
makes of a number and of JSON.
-/

namespace OtamanBridge

namespace Runner

open Py

/-- The exceptions of the client. -/
inductive Failure
  /-- `RunnerUnreachableError`. -/
  | unreachable (message : Text)
  /-- `RunnerAuthError`. -/
  | auth (message : Text)
  /-- `SpawnError`. -/
  | spawn (message : Text)
  /-- Any other exception. -/
  | other
  deriving DecidableEq

/-- What is asked of the runner, in the mode `headless`. -/
structure SpawnRequest where
  agent : Text
  human : Text
  /-- `context`. -/
  changeId : Text
  messagePath : Text
  triggerSource : Text
  repo : Text
  projectRoot : Text
  deriving DecidableEq

/-- What there is at the path of the endpoint file. -/
inductive EndpointFile
  /-- `is_file()` is `False`. -/
  | missing
  /-- `is_file()` raises: it may not look. -/
  | hidden
  /-- `read_text` raises an `OSError` with this text. -/
  | unreadable (error : Text)
  | content (c : Inbox.Content)
  deriving DecidableEq

/-- The request that is sent. -/
structure HttpRequest where
  url : Text
  token : Text
  spawn : SpawnRequest
  deriving DecidableEq

/-- What comes of sending it. -/
inductive Answer
  /-- An `HTTPError`; its body may not be readable as text. -/
  | httpError (code : ℕ) (body : Option Text)
  /-- Another `URLError` or a `TimeoutError`, with its text. -/
  | unreachable (error : Text)
  /-- Any other exception, in making the request, sending it or reading the answer. -/
  | raised
  /-- The body of the answer. -/
  | body (bytes : List ℕ)
  deriving DecidableEq

/-- A client: where the endpoint file is and what is there, what the runner answers, and what
Python makes of a number, of JSON and of a value in a message. -/
structure Client where
  path : Text
  file : EndpointFile
  answer : HttpRequest → Answer
  int : Text → Option ℤ
  loads : List ℕ → Option Value
  str : Value → Text

/-! ### The endpoint file -/

/-- `str(n)`. -/
def intText (n : ℤ) : Text := if n < 0 then lit "-" ++ decimal n.natAbs else decimal n.natAbs

/-- The fields that were read so far. -/
structure Fields where
  host : Text := lit "127.0.0.1"
  port : Option ℤ := none
  token : Option Text := none
  deriving DecidableEq

/-- One line of the endpoint file, unless `int` raises. -/
def Fields.read (int : Text → Option ℤ) (f : Fields) (line : Text) : Option Fields :=
  let line := strip line
  if line = [] ∨ (lit "#").isPrefixOf line then some f
  else
    match cut (lit "=") line with
    | none => some f
    | some (k, v) =>
      if strip k = lit "host" then some { f with host := strip v }
      else if strip k = lit "port" then (int (strip v)).map fun port => { f with port := some port }
      else if strip k = lit "token" then some { f with token := some (strip v) }
      else some f

/-- The lines of the endpoint file. -/
def readFields (int : Text → Option ℤ) (t : Text) : Option Fields :=
  (splitlines t).foldlM (Fields.read int) {}

/-- `not port or not token`: the host, the port and the token, if both are there. -/
def Fields.complete (f : Fields) : Option (Text × ℤ × Text) :=
  match f.port, f.token with
  | some port, some token => if port = 0 ∨ token = [] then none else some (f.host, port, token)
  | _, _ => none

namespace Client

variable (c : Client)

/-- `_read_endpoint`. -/
def readEndpoint : Except Failure (Text × ℤ × Text) :=
  match c.file with
  | .missing => .error (.unreachable (lit "runner endpoint file not found: " ++ c.path))
  | .hidden => .error .other
  | .unreadable error =>
    .error (.unreachable (lit "failed reading runner endpoint file: " ++ error))
  | .content (.undecodable _) => .error .other
  | .content (.text t) =>
    match readFields c.int (universalNewlines t) with
    | none => .error .other
    | some f =>
      match f.complete with
      | none => .error
        (.unreachable (lit "runner endpoint file missing required fields: " ++ c.path))
      | some endpoint => .ok endpoint

/-- The address of the request. -/
def url (host : Text) (port : ℤ) : Text :=
  lit "http://" ++ host ++ lit ":" ++ intText port ++ lit "/spawn"

/-- What `spawn` makes of an answer that is a value of JSON. -/
def sessionOf (data : Value) : Except Failure Text :=
  match data with
  | .dict items =>
    match (Value.dict items).get "session_id" with
    | some (.str sessionId) =>
      if sessionId = [] then .error (missing data) else .ok sessionId
    | _ => .error (missing data)
  | _ => .error .other
where
  /-- The answer has no session. -/
  missing (data : Value) : Failure :=
    .spawn (lit "runner /spawn response missing session_id: " ++ c.str data)

/-- What `spawn` makes of an answer to a request that was sent to this address. -/
def readAnswer (url : Text) : Answer → Except Failure Text
  | .httpError code body =>
    if code = 401 then
      .error (.auth (lit "runner rejected loopback bearer (HTTP 401) -- token may be stale"))
    else
      .error (.spawn (lit "runner returned HTTP " ++ decimal code ++ lit " on POST /spawn: " ++
        body.getD []))
  | .unreachable error =>
    .error (.unreachable (lit "runner unreachable at " ++ url ++ lit ": " ++ error))
  | .raised => .error .other
  | .body bytes =>
    match c.loads bytes with
    | none => .error .other
    | some data => c.sessionOf data

/-- `spawn`. -/
def spawn (r : SpawnRequest) : Except Failure Text := do
  let (host, port, token) ← c.readEndpoint
  c.readAnswer (url host port) (c.answer ⟨url host port, token, r⟩)

end Client

/-! ### How it fails -/

/-- A failure that `handle_bus_event` catches. -/
def Failure.caught : Failure → Bool
  | unreachable _ | spawn _ => true
  | auth _ | other => false

/-- An endpoint file that raises no exception but the client's own: it may be looked at, it is
UTF-8 if it can be read, and what it says of a port is a number. -/
def EndpointFile.Orderly (int : Text → Option ℤ) : EndpointFile → Prop
  | .missing | .unreadable _ => True
  | .hidden | .content (.undecodable _) => False
  | .content (.text t) => (readFields int (universalNewlines t)).isSome

/-- An answer that raises no exception but the client's own, and is no refusal of the token:
an error of HTTP but 401, no connection, or an object of JSON. -/
def Answer.Orderly (loads : List ℕ → Option Value) : Answer → Prop
  | .httpError code _ => code ≠ 401
  | .unreachable _ => True
  | .raised => False
  | .body bytes => ∃ items, loads bytes = some (.dict items)

/-- Where the endpoint file and the answer to the request it leads to, if it does, are
orderly. -/
def Client.Orderly (c : Client) (r : SpawnRequest) : Prop :=
  c.file.Orderly c.int ∧ ∀ host port token, c.readEndpoint = .ok (host, port, token) →
    (c.answer ⟨Client.url host port, token, r⟩).Orderly c.loads

variable {c : Client} {r : SpawnRequest} {f : Failure}

/-- What the endpoint file raises is caught exactly if it is orderly. -/
theorem readEndpoint_caught (h : c.readEndpoint = .error f) :
    f.caught ↔ c.file.Orderly c.int := by
  unfold Client.readEndpoint at h
  rcases hfile : c.file with _ | _ | error | (t | error)
  · rw [hfile] at h
    obtain rfl := Except.error.inj h
    exact ⟨fun _ => trivial, fun _ => rfl⟩
  · rw [hfile] at h
    obtain rfl := Except.error.inj h
    simp [Failure.caught, EndpointFile.Orderly]
  · rw [hfile] at h
    obtain rfl := Except.error.inj h
    exact ⟨fun _ => trivial, fun _ => rfl⟩
  · simp only [hfile] at h
    rcases hfields : readFields c.int (universalNewlines t) with _ | fields
    · simp only [hfields] at h
      obtain rfl := Except.error.inj h
      simp [Failure.caught, EndpointFile.Orderly, hfields]
    · simp only [hfields] at h
      rcases hcomplete : fields.complete with _ | endpoint
      · simp only [hcomplete] at h
        obtain rfl := Except.error.inj h
        simp [Failure.caught, EndpointFile.Orderly, hfields]
      · simp only [hcomplete] at h
        exact absurd h (by simp)
  · rw [hfile] at h
    obtain rfl := Except.error.inj h
    simp [Failure.caught, EndpointFile.Orderly]

/-- An endpoint file that is read was orderly. -/
theorem orderly_of_readEndpoint {endpoint : Text × ℤ × Text} (h : c.readEndpoint = .ok endpoint) :
    c.file.Orderly c.int := by
  unfold Client.readEndpoint at h
  rcases hfile : c.file with _ | _ | error | (t | error)
  · rw [hfile] at h
    exact absurd h (by simp)
  · rw [hfile] at h
    exact absurd h (by simp)
  · rw [hfile] at h
    exact absurd h (by simp)
  · simp only [hfile] at h
    rcases hfields : readFields c.int (universalNewlines t) with _ | fields
    · simp only [hfields] at h
      exact absurd h (by simp)
    · simp [EndpointFile.Orderly, hfields]
  · rw [hfile] at h
    exact absurd h (by simp)

/-- What an answer raises is caught exactly if it is orderly. -/
theorem readAnswer_caught {url : Text} {answer : Answer} (h : c.readAnswer url answer = .error f) :
    f.caught ↔ answer.Orderly c.loads := by
  cases answer with
  | httpError code body =>
    simp only [Client.readAnswer] at h
    split_ifs at h with hcode
    · obtain rfl := Except.error.inj h
      simp [Failure.caught, Answer.Orderly, hcode]
    · obtain rfl := Except.error.inj h
      simp [Failure.caught, Answer.Orderly, hcode]
  | unreachable error =>
    obtain rfl := Except.error.inj h
    exact ⟨fun _ => trivial, fun _ => rfl⟩
  | raised =>
    obtain rfl := Except.error.inj h
    simp [Failure.caught, Answer.Orderly]
  | body bytes =>
    rcases hloads : c.loads bytes with _ | data
    · simp only [Client.readAnswer, hloads] at h
      obtain rfl := Except.error.inj h
      simp [Failure.caught, Answer.Orderly, hloads]
    · simp only [Client.readAnswer, hloads] at h
      cases data with
      | dict items =>
        have hcaught : f.caught := by
          simp only [Client.sessionOf] at h
          split at h
          · split_ifs at h with hempty
            obtain rfl := Except.error.inj h
            rfl
          · obtain rfl := Except.error.inj h
            rfl
        exact ⟨fun _ => ⟨items, hloads⟩, fun _ => hcaught⟩
      | _ =>
        obtain rfl := Except.error.inj h
        simp [Failure.caught, Answer.Orderly, hloads]

/-- **What `spawn` raises is caught exactly where all is orderly.** -/
theorem spawn_caught (h : c.spawn r = .error f) : f.caught ↔ c.Orderly r := by
  rcases hread : c.readEndpoint with f' | ⟨host, port, token⟩
  · rw [Client.spawn, hread] at h
    obtain rfl := Except.error.inj h
    rw [readEndpoint_caught hread]
    refine ⟨fun hfile => ⟨hfile, fun _ _ _ hok => ?_⟩, fun hall => hall.1⟩
    rw [hread] at hok
    exact absurd hok (by simp)
  · rw [Client.spawn, hread] at h
    rw [readAnswer_caught h]
    refine ⟨fun hanswer => ⟨orderly_of_readEndpoint hread, fun host' port' token' hok => ?_⟩,
      fun hall => hall.2 host port token hread⟩
    rw [hread] at hok
    obtain ⟨rfl, rfl, rfl⟩ := by simpa using Except.ok.inj hok
    exact hanswer

end Runner

end OtamanBridge
