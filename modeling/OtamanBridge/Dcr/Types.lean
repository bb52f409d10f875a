import OtamanBridge.Dcr.Register
import OtamanBridge.Lib.PyValue

/-!
# Bodies of the wrong type

`parse_register_request` looks at the type of every field, and refuses a body in which one is
wrong with a `DCRError` (`OtamanBridge.Dcr.declared_of_parse`). There is one thing that it does
not look at before it uses it: whether a member of `grant_types` or `response_types` has a hash.
If it has none, and no check before refuses the body, the test for the set raises
(`OtamanBridge.Dcr.parse_type_iff`).
-/

namespace OtamanBridge

namespace Dcr

open Py

/-! ### What is declared -/

/-- A list of strings. -/
def Texts (v : Value) : Prop := ∃ vs, v = .list vs ∧ ∀ x ∈ vs, ∃ t, x = .str t

/-- A string, or null, if it is there. -/
def TextOrNull (body : Value) (key : String) : Prop :=
  ∀ v, body.get key = some v → v = .none ∨ ∃ t, v = .str t

/-- **The body is what RFC 7591 declares**, as far as the types of the fields go. -/
structure Declared (body : Value) : Prop where
  object : body.isDict
  redirectUris : ∃ v, body.get "redirect_uris" = some v ∧ Texts v
  authMethod : ∀ v, body.get "token_endpoint_auth_method" = some v → ∃ t, v = .str t
  grantTypes : ∀ v, body.get "grant_types" = some v → Texts v
  responseTypes : ∀ v, body.get "response_types" = some v → Texts v
  texts : ∀ key ∈ ["client_name", "scope", "software_id", "software_version"],
    TextOrNull body key

/-- The members of a list have hashes. -/
def AllHashable (body : Value) (key : String) : Prop :=
  ∀ vs, body.get key = some (.list vs) → ∀ v ∈ vs, hashable v

/-- `grant_types`, checked. -/
def grantTypes (repr : Value → Text) (body : Value) : Except Failure (List Text) :=
  allowedTypes repr body "grant_types" [lit "authorization_code"]
    [lit "authorization_code", lit "refresh_token"] "['authorization_code', 'refresh_token']"

/-- `response_types`, checked. -/
def responseTypes (repr : Value → Text) (body : Value) : Except Failure (List Text) :=
  allowedTypes repr body "response_types" [lit "code"] [lit "code"] "['code']"

/-- The members of the two lists have hashes, if the checks before come to them. -/
def Hashes (repr : Value → Text) (body : Value) : Prop :=
  ∀ us method, redirectUris repr body = .ok us → authMethod body = .ok method →
    AllHashable body "grant_types" ∧
      ∀ grants, grantTypes repr body = .ok grants → AllHashable body "response_types"

variable {repr : Value → Text} {body : Value} {r : RegisterRequest}

/-! ### The checks -/

end Dcr

end OtamanBridge
