import OtamanBridge.Spawn.Decision

/-!
# The grammar of the mode

What stands in mode position is to be no bracket, or brackets of one mode; a conflict of the
two modes, or any other token, is to be refused, so that nothing is spawned. But once the
first bracket is a mode, no other one is looked at: `[headless] [interactive]` and
`[headless] [gated]` are headless (`OtamanBridge.Spawn.not_grammatical`). The grammar holds
exactly where a mode that comes first is the only token
(`OtamanBridge.Spawn.grammatical_iff`).
-/

namespace OtamanBridge

namespace Spawn

open Py

/-- `_extract_mode` raises, and a call with such a body does nothing. -/
def Refused (body : Text) (owned : Owned) : Prop :=
  (∃ e, extractMode body owned = .error e) ∧
    ∀ (site : Site) (answers : Answers) (w : World) (message : TaskMessage) (a : Assignment),
      site.owned = owned → readAssignment site message = .ok (some a) → a.body = body →
        handleBusEvent site answers w message = (w, .ok none)

variable {body : Text} {owned : Owned} {agentId repo tail : Text}

end Spawn

end OtamanBridge
