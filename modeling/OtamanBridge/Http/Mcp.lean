import OtamanBridge.Http.ControlRoutes
import OtamanBridge.Lib.PyValue

/-!
# The MCP route

`POST /mcp`: the gate, the body, the test whether the tool asks for an identity, and the
dispatcher of `mcp_server.py`. The dispatcher catches what its methods raise and answers with
an envelope, and a tool that raises is answered for. But the test of the route and the first
lines of the dispatcher read fields of the body before anything is caught, so a body that is
no object gets no answer, nor does a call without an identity whose parameters are no object
or whose tool name cannot be hashed. All else is answered
(`OtamanBridge.Http.Mcp.answered_iff`).
-/

namespace OtamanBridge

namespace Http

namespace Mcp

open Py

open Value (isDict isText field fieldOr hashable isJson ofFields)

/-! ### The tools -/

/-- What becomes of a call of a tool. -/
inductive Outcome
  | result (v : Value)
  /-- A `_MCPDispatchError`. -/
  | dispatchError (code : ℤ) (message : Text) (data : Option Value)
  /-- Any other exception, with its `str`. -/
  | raised (message : Text)

/-- What is made of an outcome has JSON in it only. -/
def Outcome.IsJson : Outcome → Prop
  | .result v => v.isJson
  | .dispatchError _ _ data => ∀ v ∈ data, v.isJson
  | .raised _ => True

/-- `Tool`, over a state that its handler works on. -/
structure Tool (σ : Type*) where
  name : Text
  description : Text
  inputSchema : Value
  handler : Value → CallContext → σ → σ × Outcome
  /-- What goes out is JSON. -/
  schema_json : inputSchema.isJson
  handler_json : ∀ args ctx s, (handler args ctx s).2.IsJson

/-- `MCPServer`, with the `repr` of Python. The tools are in the order of their
registration. -/
structure Server (σ : Type*) where
  serverName : Text
  serverVersion : Text
  tools : List (Tool σ)
  repr : Text → Text

variable {σ : Type*} (server : Server σ)

/-! ### The dispatcher -/

/-- An error code. -/
def parseError : ℤ := -32700

def invalidRequest : ℤ := -32600

def methodNotFound : ℤ := -32601

def invalidParams : ℤ := -32602

def internalError : ℤ := -32603

/-- `_error_response`. -/
def errorResponse (rpcId : Value) (code : ℤ) (message : Text) (data : Option Value) : Value :=
  ofFields [("jsonrpc", .str (lit "2.0")), ("id", rpcId),
    ("error", ofFields ([("code", .int code), ("message", .str message)] ++
      data.toList.map fun v => ("data", v)))]

/-- The response with a result. -/
def resultResponse (rpcId result : Value) : Value :=
  ofFields [("jsonrpc", .str (lit "2.0")), ("id", rpcId), ("result", result)]

/-- The message of the exception about a value that has no `get`. -/
def noGet (v : Value) : Text := lit "'" ++ v.typeName ++ lit "' object has no attribute 'get'"

/-- `_handle_initialize`. -/
def handleInitialize : Value :=
  ofFields [("protocolVersion", .str (lit "2024-11-05")),
    ("capabilities", ofFields [("tools", ofFields [("listChanged", .bool false)])]),
    ("serverInfo", ofFields [("name", .str server.serverName),
      ("version", .str server.serverVersion)])]

/-- `_handle_tools_list`. -/
def handleToolsList : Value :=
  ofFields [("tools", .list (server.tools.map fun t =>
    ofFields [("name", .str t.name), ("description", .str t.description),
      ("inputSchema", t.inputSchema)]))]

/-- What `tools/call` makes of an outcome: an exception of a tool is a result. -/
def settled : Outcome → Outcome
  | .raised message => .result (ofFields [("isError", .bool true), ("content",
      .list [ofFields [("type", .str (lit "text")),
        ("text", .str (lit "tool error: " ++ message))]])])
  | outcome => outcome

/-- `_handle_tools_call`. -/
def handleToolsCall (params : Value) (ctx : CallContext) (s : σ) : σ × Outcome :=
  if isDict params then
    match field params "name" with
    | .str name =>
      if name = [] then
        (s, .dispatchError invalidParams (lit "tools/call: missing 'name'") none)
      else
        match server.tools.find? fun t => t.name = name with
        | none =>
          (s, .dispatchError methodNotFound (lit "tool " ++ server.repr name ++ lit " not found")
            none)
        | some tool =>
          let args := fieldOr params "arguments" (.dict [])
          if isDict args then
            let (s, outcome) := tool.handler args ctx s
            (s, settled outcome)
          else
            (s, .dispatchError invalidParams (lit "tools/call: 'arguments' must be object") none)
    | _ => (s, .dispatchError invalidParams (lit "tools/call: missing 'name'") none)
  else (s, .raised (noGet params))

/-- What the methods do. -/
def dispatch (method : Text) (params : Value) (ctx : CallContext) (s : σ) : σ × Outcome :=
  if method = lit "initialize" then (s, .result (handleInitialize server))
  else if method = lit "tools/list" then (s, .result (handleToolsList server))
  else if method = lit "tools/call" then handleToolsCall server params ctx s
  else if method = lit "ping" then (s, .result (.dict []))
  else
    (s, .dispatchError methodNotFound
      (lit "method " ++ server.repr method ++ lit " not supported by this MCP server") none)

/-- The envelope of an outcome: whatever is raised is caught. -/
def enveloped (rpcId : Value) : Outcome → Value
  | .result v => resultResponse rpcId v
  | .dispatchError code message data => errorResponse rpcId code message data
  | .raised message => errorResponse rpcId internalError message none

/-- `handle_request`. -/
def handleRequest (body : Value) (ctx : CallContext) (s : σ) : σ × Except Unit Value :=
  if isDict body then
    let rpcId := field body "id"
    let params := fieldOr body "params" (.dict [])
    match field body "method" with
    | .str method =>
      if method = [] then (s, .ok (errorResponse rpcId invalidRequest (lit "missing method") none))
      else
        let (s, outcome) := dispatch server method params ctx s
        (s, .ok (enveloped rpcId outcome))
    | _ => (s, .ok (errorResponse rpcId invalidRequest (lit "missing method") none))
  else (s, .error ())

/-! ### The route -/

/-- What becomes of a request: a 401 with this error and description, a reply with a status
and a body, or an exception that ends the connection. -/
inductive Reply
  | unauthenticated (error description : Text)
  | json (status : ℕ) (body : Value)
  | raised

/-- `_reply_json`. -/
def replyJson (status : ℕ) (body : Value) : Reply :=
  if isJson body then .json status body else .raised

/-- `IDENTITY_REQUIRED_TOOLS`. -/
def identityRequiredTools : List Text :=
  ["send_message_to_user", "check_messages", "mark_message_read", "request_review",
    "get_recent_activity", "kill_session_for_user"].map lit

/-- The test before the dispatcher: the tool that asks for an identity, if there is none. -/
def identityGate (body : Value) (ctx : CallContext) : Except Unit (Option Text) :=
  if isDict body && isText (lit "tools/call") (field body "method") && ctx.userId = [] then
    let params := fieldOr body "params" (.dict [])
    if isDict params then
      let toolName := (params.get "name").getD (.str [])
      if hashable toolName then
        .ok (identityRequiredTools.find? fun name => isText name toolName)
      else .error ()
    else .error ()
  else .ok none

/-- What `_read_body` returns for the JSON of a body: `null` is what it returns for no JSON.
Some JSON `json.loads` raises about, other than that it is none: a number that has too many
digits, or brackets that are nested too deeply. The rest it reads. -/
def readBody (reads : Value → Bool) (posted : Value) : Body :=
  if ¬reads posted then .raises else if posted.isNone then .invalid else .json posted

/-- The answer to a caller that is known. -/
def answer (body : Body) (ctx : CallContext) (s : σ) : σ × Reply :=
  match body with
  | .raises => (s, .raised)
  | .invalid => (s, replyJson 200 (errorResponse .none parseError (lit "invalid JSON") none))
  | .json v =>
    match identityGate v ctx with
    | .error () => (s, .raised)
    | .ok (some name) =>
      (s, .unauthenticated (lit "insufficient_scope")
        (lit "tool " ++ server.repr name ++ lit " requires authenticated user"))
    | .ok none =>
      match handleRequest server v ctx s with
      | (s, .error ()) => (s, .raised)
      | (s, .ok response) => (s, replyJson 200 response)

/-- `POST /mcp`. -/
def post (now : Seconds) (auth : AuthStack) (headers : Headers) (body : Body) (s : σ) :
    AuthStack × σ × Reply :=
  match auth.identify now headers with
  | (auth, .error _) => (auth, s, .raised)
  | (auth, .ok none) =>
    (auth, s, .unauthenticated (lit "invalid_token") (lit "unauthorized"))
  | (auth, .ok (some ctx)) => (auth, answer server body ctx s)

/-! ### One answer -/

/-- The id of a request, or null. -/
def idOf (posted : Value) : Value := field posted "id"

/-- An envelope: it echoes the id, and has a result or an error but not both. -/
structure IsEnvelope (rpcId response : Value) : Prop where
  version : response.get "jsonrpc" = some (.str (lit "2.0"))
  echoes : response.get "id" = some rpcId
  one : Xor (response.get "result").isSome (response.get "error").isSome

/-- The parameters. -/
def paramsOf (posted : Value) : Value := fieldOr posted "params" (.dict [])

/-- A tool is called without an identity. -/
def Anonymous (ctx : CallContext) (posted : Value) : Prop :=
  isText (lit "tools/call") (field posted "method") ∧ ctx.userId = []

/-- The tool that is called asks for an identity, and there is none. -/
def IdentityRequired (ctx : CallContext) (posted : Value) : Prop :=
  Anonymous ctx posted ∧ ∃ name ∈ identityRequiredTools,
    isText name (field (paramsOf posted) "name")

/-- **The request is answered**: with the 401 of a tool that asks for an identity, or with an
envelope. -/
def Answered (ctx : CallContext) (posted : Value) : Reply → Prop
  | .unauthenticated error _ =>
    error = lit "insufficient_scope" ∧ IdentityRequired ctx posted
  | .json status response => status = 200 ∧ IsEnvelope (idOf posted) response
  | .raised => False

/-- **What can be answered**: an object, or null; and where a tool is called without an
identity, the parameters are an object, if there are any, and the name can be hashed. -/
def Answerable (ctx : CallContext) (posted : Value) : Prop :=
  posted.isNone ∨ isDict posted ∧ (Anonymous ctx posted →
    isDict (paramsOf posted) ∧ hashable (field (paramsOf posted) "name"))

/-! ### Envelopes -/

variable {server : Server σ} {ctx : CallContext} {posted : Value} {s : σ}

theorem isEnvelope_errorResponse (rpcId : Value) (code : ℤ) (message : Text)
    (data : Option Value) : IsEnvelope rpcId (errorResponse rpcId code message data) := by
  refine ⟨?_, ?_, .inr ⟨?_, ?_⟩⟩
  all_goals simp [errorResponse, Value.get_ofFields_cons]

theorem isEnvelope_resultResponse (rpcId result : Value) :
    IsEnvelope rpcId (resultResponse rpcId result) := by
  refine ⟨?_, ?_, .inl ⟨?_, ?_⟩⟩
  all_goals simp [resultResponse, Value.get_ofFields_cons]

/-- **Every outcome has an envelope.** -/
theorem isEnvelope_enveloped (rpcId : Value) (outcome : Outcome) :
    IsEnvelope rpcId (enveloped rpcId outcome) := by
  cases outcome with
  | result v => exact isEnvelope_resultResponse rpcId v
  | dispatchError code message data => exact isEnvelope_errorResponse rpcId code message data
  | raised message => exact isEnvelope_errorResponse rpcId internalError message none

/-! ### JSON -/

theorem isJson_field {v : Value} (h : v.isJson) (key : String) : (field v key).isJson := by
  unfold field
  rcases hx : v.get key with _ | x
  · rfl
  · exact Value.isJson_of_get h hx

theorem isJson_errorResponse {rpcId : Value} (hid : rpcId.isJson) (code : ℤ) (message : Text)
    {data : Option Value} (hdata : ∀ v ∈ data, v.isJson) :
    (errorResponse rpcId code message data).isJson := by
  rw [errorResponse, Value.isJson_ofFields]
  refine List.forall_mem_cons.mpr ⟨rfl, List.forall_mem_cons.mpr ⟨hid, ?_⟩⟩
  rw [List.forall_mem_singleton, Value.isJson_ofFields]
  refine List.forall_mem_cons.mpr ⟨rfl, List.forall_mem_cons.mpr ⟨rfl, ?_⟩⟩
  intro kv hkv
  obtain ⟨v, hv, rfl⟩ := List.mem_map.mp hkv
  exact hdata v (Option.mem_toList.mp hv)

/-- The envelope of JSON is JSON. -/
theorem isJson_enveloped {rpcId : Value} (hid : rpcId.isJson) {outcome : Outcome}
    (h : outcome.IsJson) : (enveloped rpcId outcome).isJson := by
  cases outcome with
  | result v =>
    rw [enveloped, resultResponse, Value.isJson_ofFields]
    exact List.forall_mem_cons.mpr ⟨rfl, List.forall_mem_cons.mpr ⟨hid,
      List.forall_mem_singleton.mpr h⟩⟩
  | dispatchError code message data => exact isJson_errorResponse hid code message h
  | raised message => exact isJson_errorResponse hid internalError message (by simp)

theorem isJson_settled {outcome : Outcome} (h : outcome.IsJson) : (settled outcome).IsJson := by
  cases outcome with
  | result v => exact h
  | dispatchError code message data => exact h
  | raised message => rfl

theorem isJson_handleToolsList : (handleToolsList server).isJson := by
  rw [handleToolsList, Value.isJson_ofFields, List.forall_mem_singleton]
  refine Value.allJson_iff.mpr fun v hv => ?_
  obtain ⟨tool, -, rfl⟩ := List.mem_map.mp hv
  rw [Value.isJson_ofFields]
  exact List.forall_mem_cons.mpr ⟨rfl, List.forall_mem_cons.mpr ⟨rfl,
    List.forall_mem_singleton.mpr tool.schema_json⟩⟩

theorem isJson_handleToolsCall (params : Value) :
    (handleToolsCall server params ctx s).2.IsJson := by
  unfold handleToolsCall
  split_ifs with hdict
  · split
    · split_ifs
      · simp [Outcome.IsJson]
      · split
        · simp [Outcome.IsJson]
        next tool _ =>
          dsimp only
          split_ifs
          · exact isJson_settled (tool.handler_json _ _ _)
          · simp [Outcome.IsJson]
    · simp [Outcome.IsJson]
  · trivial

/-- **What the methods do is answered with JSON**, whatever the parameters. -/
theorem isJson_dispatch (method : Text) (params : Value) :
    (dispatch server method params ctx s).2.IsJson := by
  unfold dispatch
  split_ifs
  · rfl
  · exact isJson_handleToolsList
  · exact isJson_handleToolsCall params
  · rfl
  · simp [Outcome.IsJson]

/-- **The dispatcher answers every object** with an envelope. -/
theorem exists_handleRequest (hdict : isDict posted) (hjson : posted.isJson) :
    ∃ response, (handleRequest server posted ctx s).2 = .ok response ∧
      IsEnvelope (idOf posted) response ∧ response.isJson := by
  have hid := isJson_field hjson "id"
  have hmissing : IsEnvelope (idOf posted) (errorResponse (field posted "id") invalidRequest
      (lit "missing method") none) ∧
      (errorResponse (field posted "id") invalidRequest (lit "missing method") none).isJson :=
    ⟨isEnvelope_errorResponse _ _ _ _, isJson_errorResponse hid _ _ (by simp)⟩
  unfold handleRequest
  rw [if_pos hdict]
  dsimp only
  split
  next method _ =>
    split_ifs
    · exact ⟨_, rfl, hmissing⟩
    · exact ⟨_, rfl, isEnvelope_enveloped _ _, isJson_enveloped hid (isJson_dispatch method _)⟩
  · exact ⟨_, rfl, hmissing⟩

/-! ### The gate -/

/-- With an identity, and where no tool is called, the gate is open. -/
theorem identityGate_of_not_anonymous (h : ¬(isDict posted ∧ Anonymous ctx posted)) :
    identityGate posted ctx = .ok none := by
  unfold identityGate
  rw [if_neg]
  simpa [Anonymous, and_assoc] using h

/-- Without one, it asks which tool is called. -/
theorem identityGate_of_anonymous (hdict : isDict posted) (h : Anonymous ctx posted) :
    identityGate posted ctx =
      if isDict (paramsOf posted) then
        if hashable (field (paramsOf posted) "name") then
          .ok (identityRequiredTools.find? fun name =>
            isText name (((paramsOf posted).get "name").getD (.str [])))
        else .error ()
      else .error () := by
  have hname : hashable (((paramsOf posted).get "name").getD (.str [])) =
      hashable (field (paramsOf posted) "name") := by
    unfold field
    rcases (paramsOf posted).get "name" with _ | v <;> rfl
  unfold identityGate
  rw [if_pos (by simpa [Anonymous, hdict] using h)]
  dsimp only
  rw [← paramsOf, hname]

/-- **The gate passes what can be answered**, or finds the tool that asks for an identity. -/
theorem exists_identityGate_iff (hdict : isDict posted) :
    (∃ tool, identityGate posted ctx = .ok tool) ↔
      (Anonymous ctx posted →
        isDict (paramsOf posted) ∧ hashable (field (paramsOf posted) "name")) := by
  by_cases hanon : Anonymous ctx posted
  · rw [identityGate_of_anonymous hdict hanon]
    split_ifs with hparams hhash
    · exact iff_of_true ⟨_, rfl⟩ fun _ => ⟨hparams, hhash⟩
    · exact iff_of_false (by simp) fun h => hhash (h hanon).2
    · exact iff_of_false (by simp) fun h => hparams (h hanon).1
  · rw [identityGate_of_not_anonymous fun h => hanon h.2]
    exact iff_of_true ⟨_, rfl⟩ fun h => absurd h hanon

/-- A tool that the gate finds asks for an identity. -/
theorem identityRequired_of_identityGate (hdict : isDict posted) {name : Text}
    (h : identityGate posted ctx = .ok (some name)) : IdentityRequired ctx posted := by
  by_cases hanon : Anonymous ctx posted
  · rw [identityGate_of_anonymous hdict hanon] at h
    split_ifs at h
    have hfound := Except.ok.inj h
    refine ⟨hanon, name, List.mem_of_find?_eq_some hfound, ?_⟩
    have htext : isText name (((paramsOf posted).get "name").getD (.str [])) :=
      List.find?_some (p := fun name => isText name _) hfound
    unfold field
    rcases hname : (paramsOf posted).get "name" with _ | v
    · -- no tool has the empty name
      rw [hname] at htext
      obtain rfl : [] = name := of_decide_eq_true htext
      exact absurd (List.mem_of_find?_eq_some hfound) (by decide)
    · rw [hname] at htext
      exact htext
  · rw [identityGate_of_not_anonymous fun h => hanon h.2] at h
    exact absurd h (by simp)

/-! ### What is answered -/

variable {now : Seconds} {auth : AuthStack} {headers : Headers} {reads : Value → Bool}


/-- An object that can be answered is answered. -/
theorem answered_of_answerable (hdict : isDict posted) (hjson : posted.isJson)
    (h : Anonymous ctx posted →
      isDict (paramsOf posted) ∧ hashable (field (paramsOf posted) "name")) :
    Answered ctx posted (answer server (.json posted) ctx s).2 := by
  obtain ⟨tool, htool⟩ := (exists_identityGate_iff hdict).mpr h
  unfold answer
  dsimp only
  rw [htool]
  rcases tool with _ | name
  · obtain ⟨response, hok, hresponse, hout⟩ :
        ∃ response, (handleRequest server posted ctx s).2 = .ok response ∧
          IsEnvelope (idOf posted) response ∧ response.isJson :=
      exists_handleRequest hdict hjson
    rcases hhandle : handleRequest server posted ctx s with ⟨s', result⟩
    rw [hhandle] at hok
    obtain rfl : result = .ok response := hok
    dsimp only
    rw [replyJson, if_pos hout]
    exact ⟨rfl, hresponse⟩
  · exact ⟨rfl, identityRequired_of_identityGate hdict htool⟩

/-- What cannot be answered raises. -/
theorem answer_of_not_answerable (h : ¬Answerable ctx posted) :
    (answer server (.json posted) ctx s).2 = .raised := by
  unfold answer
  dsimp only
  by_cases hdict : isDict posted
  · have hgate : ¬∃ tool, identityGate posted ctx = .ok tool := fun hok =>
      h (.inr ⟨hdict, (exists_identityGate_iff hdict).mp hok⟩)
    rcases hresult : identityGate posted ctx with _ | tool
    · rfl
    · exact absurd ⟨tool, hresult⟩ hgate
  · rw [identityGate_of_not_anonymous fun hboth => hdict hboth.1]
    dsimp only
    rw [handleRequest, if_neg hdict]

/-- A body that is null is answered as one that is no JSON. -/
theorem answered_of_isNone (hnone : posted.isNone) :
    Answered ctx posted (answer server .invalid ctx s).2 := by
  have hid : idOf posted = .none := by
    cases posted with
    | none => rfl
    | _ => exact absurd hnone (by simp [Value.isNone])
  have hjson : (errorResponse .none parseError (lit "invalid JSON") none).isJson :=
    isJson_errorResponse rfl _ _ (by simp)
  have hreply : (answer server .invalid ctx s).2 =
      .json 200 (errorResponse .none parseError (lit "invalid JSON") none) := by
    unfold answer
    dsimp only
    rw [replyJson, if_pos hjson]
  rw [hreply]
  refine ⟨rfl, ?_⟩
  rw [hid]
  exact isEnvelope_errorResponse _ _ _ _

/-- **What `POST /mcp` answers.** For every JSON value that a caller who is known posts, and
whatever tools there are: the request is answered, with the 401 of a tool that asks for an
identity or with one envelope, just when it is read and can be answered. -/
theorem answered_iff (hauth : (auth.identify now headers).2 = .ok (some ctx))
    (hjson : posted.isJson) :
    Answered ctx posted (post server now auth headers (readBody reads posted) s).2.2 ↔
      reads posted ∧ Answerable ctx posted := by
  have hpost : (post server now auth headers (readBody reads posted) s).2.2 =
      (answer server (readBody reads posted) ctx s).2 := by
    unfold post
    rcases hid : auth.identify now headers with ⟨auth', result⟩
    rw [hid] at hauth
    obtain rfl : result = .ok (some ctx) := hauth
    rfl
  rw [hpost]
  by_cases hreads : reads posted
  · by_cases hnone : posted.isNone
    · rw [readBody, if_neg (not_not.mpr hreads), if_pos hnone]
      exact iff_of_true (answered_of_isNone hnone) ⟨hreads, .inl hnone⟩
    · rw [readBody, if_neg (not_not.mpr hreads), if_neg hnone]
      constructor
      · refine fun hanswered => ⟨hreads, ?_⟩
        by_contra hno
        rw [answer_of_not_answerable hno] at hanswered
        exact hanswered
      · rintro ⟨-, hnull | ⟨hdict, hgate⟩⟩
        · exact absurd hnull hnone
        · exact answered_of_answerable hdict hjson hgate
  · rw [readBody, if_pos hreads]
    exact iff_of_false id fun h => hreads h.1

/-! ### Two bodies -/

/-- A server without tools. -/
def bareServer : Server Unit := ⟨lit "otaman-bridge", lit "0.1.0", [], id⟩

theorem ascii_loopbackToken : Ascii (lit "5f0c") := by decide

/-- The daemon that serves its own token only. -/
def loopbackAuth : AuthStack where
  token := lit "5f0c"
  token_ascii := ascii_loopbackToken
  ee := false
  validator := none
  cookie := none
  sessions := ∅

/-- `json.loads` reads everything here. -/
def readsAll : Value → Bool := fun _ => true

/-- The header with the token. -/
def tokenHeader : Headers := [(lit "Authorization", lit "Bearer 5f0c")]

/-- A call of a tool without an identity is answered. -/
theorem answered_iff_call : Answered { userId := [] }
    (ofFields [("method", .str (lit "tools/call")), ("id", .int 7),
      ("params", ofFields [("name", .str (lit "check_messages"))])])
    (post bareServer 0 loopbackAuth tokenHeader (readBody readsAll (ofFields
      [("method", .str (lit "tools/call")), ("id", .int 7),
        ("params", ofFields [("name", .str (lit "check_messages"))])])) ()).2.2 := by
  refine (answered_iff (by decide +kernel) rfl).mpr ⟨rfl, .inr ⟨rfl, fun _ => ⟨?_, ?_⟩⟩⟩
  · decide +kernel
  · decide +kernel

/-- A batch of requests is no object, and gets no answer. -/
theorem not_answered : ¬∀ (server : Server Unit) (ctx : CallContext) (now : Seconds)
    (auth : AuthStack) (headers : Headers) (reads : Value → Bool) (posted : Value),
    (auth.identify now headers).2 = .ok (some ctx) → posted.isJson → reads posted →
      Answered ctx posted (post server now auth headers (readBody reads posted) ()).2.2 := by
  intro h
  have hanswered := h bareServer { userId := [] } 0 loopbackAuth tokenHeader readsAll (.list [])
    (by decide +kernel) rfl rfl
  exact hanswered

end Mcp

end Http

end OtamanBridge
