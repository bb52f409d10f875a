import Mathlib.Data.List.Sort
import OtamanBridge.Lib.PyText

/-!
# The Telegram confirmation of a human decision

`hitl_telegram.py`: the enrollment map, who is enrolled, and what
`confirm_via_telegram` makes of the answer of the daemon. The YAML file is the value
`yaml.safe_load` builds of it, if it parses. An `address_ref` is a reference into a
secret backend; the module checks that there is one and never looks it up.
-/

namespace OtamanBridge

namespace Hitl

open Py

/-! ### Enrollment -/

/-- `_load_enrollment`: the items of the `enrollment` map, none on any failure. -/
def loadEnrollment (data : Option Value) : List (Value × Value) :=
  match data with
  | none => []
  | some data =>
    match data.get "enrollment" with
    | some (.dict items) => items
    | _ => []

/-- `str(adapter).strip().lower() == "telegram"`. The text of a value that is not a
string is never the name of an adapter. -/
def namesTelegram (adapter : Option Value) : Bool :=
  match adapter with
  | some (.str t) => lower (strip t) = lit "telegram"
  | _ => false

/-- `bool(str(address_ref).strip())`. The text of a value that is not a string is
never empty. -/
def hasAddress (addressRef : Option Value) : Bool :=
  match addressRef with
  | none => false
  | some (.str t) => strip t ≠ []
  | some _ => true

/-- `_has_telegram_binding`. -/
def hasTelegramBinding (entry : Value) : Bool :=
  match entry.get "messenger" with
  | some messenger =>
    namesTelegram (messenger.get "adapter") && hasAddress (messenger.get "address_ref")
  | none => false

/-- `telegram_enrolled_emails`. -/
def telegramEnrolledEmails (data : Option Value) : List Text :=
  ((loadEnrollment data).filterMap fun
    | (.str email, entry) => if hasTelegramBinding entry then some email else none
    | _ => none).insertionSort (· ≤ ·)

/-- `_sole_enrolled_email`. -/
def soleEnrolledEmail (data : Option Value) : Option Text :=
  match telegramEnrolledEmails data with
  | [email] => some email
  | _ => none

/-! ### Confirmation -/

/-- What a call of `confirm_via_telegram` finds around it. -/
structure Surroundings where
  /-- `_telegram_extra_available()`. -/
  extra : Bool
  /-- `~/.otaman/hitl.yaml`, if it is there and parses. -/
  hitl : Option Value
  /-- `_resolve_account_and_endpoint()` finds a daemon. -/
  daemon : Bool

/-- `is_enrolled`. -/
def isEnrolled (w : Surroundings) (email : Option Text) : Bool :=
  w.extra && match email with
    | none => telegramEnrolledEmails w.hitl ≠ []
    | some email => email ∈ telegramEnrolledEmails w.hitl

/-- `who = email or _sole_enrolled_email()`. -/
def who (w : Surroundings) (email : Option Text) : Option Text :=
  match email with
  | some email => if email = [] then soleEnrolledEmail w.hitl else some email
  | none => soleEnrolledEmail w.hitl

/-- `TelegramConfirmResult`. -/
structure TelegramConfirmResult where
  approved : Bool
  humanId : Option Text := none
  deriving DecidableEq, Repr

/-- `str(decision).strip().lower()`. -/
def decisionOf (answer : String) : Text := lower (strip (lit answer))

/-- `confirm_via_telegram`, given the `decision` in the body the daemon answers
`POST /approval` with, if it answers. -/
def confirmViaTelegram (w : Surroundings) (email : Option Text) (answer : Option String) :
    TelegramConfirmResult :=
  if !isEnrolled w email then ⟨false, none⟩
  else if !w.daemon then ⟨false, none⟩
  else match answer with
    | none => ⟨false, none⟩
    | some answer =>
      if decisionOf answer = lit "allow" then ⟨true, who w email⟩
      else if decisionOf answer = lit "deny" then ⟨false, who w email⟩
      else ⟨false, none⟩

/-- A confirmation names an approver exactly when somebody is enrolled, the daemon
is there, its answer says allow and there is somebody to name. -/
theorem confirmViaTelegram_eq_approved_iff {w : Surroundings} {email : Option Text}
    {answer : Option String} {h : Text} :
    confirmViaTelegram w email answer = ⟨true, some h⟩ ↔
      isEnrolled w email ∧ w.daemon ∧ who w email = some h ∧
        ∃ text, answer = some text ∧ decisionOf text = lit "allow" := by
  unfold confirmViaTelegram
  by_cases he : isEnrolled w email
  · by_cases hd : w.daemon
    · rcases answer with _ | text
      · simp [he, hd]
      · by_cases ha : decisionOf text = lit "allow"
        · simp [he, hd, ha]
        · by_cases hdeny : decisionOf text = lit "deny"
          · have : lit "deny" ≠ lit "allow" := by decide
            simp [he, hd, hdeny, this]
          · simp [he, hd, ha, hdeny]
    · simp [hd]
  · simp [he]

end Hitl

end OtamanBridge
