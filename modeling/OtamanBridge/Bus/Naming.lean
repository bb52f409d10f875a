import OtamanBridge.Bus.Paths
import OtamanBridge.Lib.PyInstant

/-!
# Which messages have one name

A message file is called after the second, and after what its writer has of the parties and
of the kind of the message (`OtamanBridge.Bus.Scheme`). The second can be read off the name,
so messages of different seconds never have one name. Those of one second do if their writers
put the same text after it, and for each two writers this is settled here in the fields they
were given (`OtamanBridge.Bus.Scheme.text_eq_iff`).
-/

namespace OtamanBridge

namespace Bus

open Py Posix

/-! ### Texts with a separator in them -/

/-- What a writer puts into the name of a message, besides the second. -/
inductive Scheme
  | approval
  | rejection (proposer : Text)
  | reply (proposer : Text)
  | pm (recipient slug : Text)
  | lifecycle (fromAgent recipient msgType : Text)
  | review (fromAgent humanId sessionId : Text)

/-- `f"{from_agent}-to-{to}"`. -/
def parties (fromAgent recipient : Text) : Text := fromAgent ++ lit "-to-" ++ recipient

/-- `msg_type.replace('-', '_')`. -/
def underscored (msgType : Text) : Text := replaceAll '-' '_' msgType

namespace Scheme

/-- The text after the second. -/
def text : Scheme → Text
  | approval => lit "human-to-all-spec-change-approved"
  | rejection proposer => lit "human-to-" ++ proposer ++ lit "-spec-change-rejected"
  | reply proposer => lit "human-to-" ++ proposer ++ lit "-reply"
  | pm recipient slug => lit "bridge-to-" ++ recipient ++ lit "-" ++ slug
  | lifecycle fromAgent recipient msgType =>
    parties fromAgent recipient ++ lit "-" ++ underscored msgType
  | review fromAgent humanId sessionId =>
    parties fromAgent humanId ++ lit "-review-" ++ sessionId.take 8

/-- **Two messages of one second have one name**: writer by writer, what this means for the
fields they were given. The writers of the human and that of the PM sync never meet, and of
those of the human an approval, a rejection and a reply never do. -/
def Same : Scheme → Scheme → Prop
  | approval, approval => True
  | rejection p, rejection q => p = q
  | reply p, reply q => p = q
  | pm r slug, pm r' slug' => r ++ lit "-" ++ slug = r' ++ lit "-" ++ slug'
  | lifecycle f r t, lifecycle f' r' t' =>
    parties f r = parties f' r' ∧ underscored t = underscored t'
  | review f h x, review f' h' x' =>
    parties f h ++ lit "-review-" ++ x.take 8 = parties f' h' ++ lit "-review-" ++ x'.take 8
  -- an event in the name of the human, or of the bridge
  | approval, lifecycle f r t | lifecycle f r t, approval =>
    parties f r = lit "human-to-all-spec-change" ∧ underscored t = lit "approved"
  | rejection p, lifecycle f r t | lifecycle f r t, rejection p =>
    parties f r = lit "human-to-" ++ p ++ lit "-spec-change" ∧ underscored t = lit "rejected"
  | reply p, lifecycle f r t | lifecycle f r t, reply p =>
    parties f r = lit "human-to-" ++ p ∧ underscored t = lit "reply"
  | pm r slug, lifecycle f r' t | lifecycle f r' t, pm r slug =>
    parties f r' ++ lit "-" ++ underscored t = lit "bridge-to-" ++ r ++ lit "-" ++ slug
  -- a request for a review in one of these names
  | reply p, review f h x | review f h x, reply p =>
    parties f h ++ lit "-review-" ++ x.take 8 = lit "human-to-" ++ p ++ lit "-reply"
  | pm r slug, review f h x | review f h x, pm r slug =>
    parties f h ++ lit "-review-" ++ x.take 8 = lit "bridge-to-" ++ r ++ lit "-" ++ slug
  | lifecycle f r t, review f' h x | review f' h x, lifecycle f r t =>
    parties f' h ++ lit "-review-" ++ x.take 8 = parties f r ++ lit "-" ++ underscored t
  | _, _ => False

/-- Where a writer stands in the list. -/
def rank : Scheme → ℕ
  | approval => 0
  | rejection _ => 1
  | reply _ => 2
  | pm .. => 3
  | lifecycle .. => 4
  | review .. => 5

end Scheme

/-! ### Names -/

namespace Sent

/-- The second in the name of a message. -/
def second : Sent → ℕ
  | written (.decision _ i _ _ _) => i.second
  | written (.reply _ i _ _) => i.second
  | written (.lifecycle _ prefixed _) => prefixed.second
  | pm i .. => i.second
  | review _ prefixed _ => prefixed.second

variable (py : Python)

/-- What comes after it. -/
def scheme : Sent → Scheme
  | written (.decision _ _ _ _ .approved) => .approval
  | written (.decision m _ _ _ .rejected) => .rejection (proposer py m)
  | written (.reply m _ _ _) => .reply (proposer py m)
  | written (.lifecycle _ _ e) => .lifecycle e.fromAgent e.recipient e.msgType
  | pm _ _ recipient subject _ _ => .pm recipient (stripDashes ((dashed py subject).take 40))
  | review _ _ r => .review r.fromAgent r.humanId r.sessionId

variable {s s' : Sent}

variable {py}

end Sent

/-! ### Paths -/

end Bus

end OtamanBridge
