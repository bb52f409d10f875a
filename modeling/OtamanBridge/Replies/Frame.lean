import OtamanBridge.Bus.Envelope
import OtamanBridge.Replies.Dispatch

/-!
# Replies that decide nothing

A reply whose action is none of approve, reject and acknowledge leaves both tables with the
entries they have, and no approval with a response; at most it writes a message that is a reply,
pushes a deadline or gets a card posted again (`OtamanBridge.Replies.idle_step`). States that
differ in no more than this are alike (`OtamanBridge.Replies.Alike`), and decisions cannot
tell them apart, but for the approvals that run past their deadlines
(`OtamanBridge.Replies.unwinds`). So a run with such replies anywhere in it records and returns
what the run without them does (`OtamanBridge.Replies.nonDecisions_decide_nothing`).
-/

namespace OtamanBridge

namespace Replies

open Py

variable {cfg : Config} {P : String → Bool} {s t : State} {l : Label} {ls ds : List Label}
  {r : InboundReply} {env : Env}

/-! ### Decisions -/

/-- The actions that decide. -/
def decidesAction (a : Action) : Bool := a = .approve || a = .reject || a = .acknowledge

/-- The step is a decision, or a hook looks whether there is one. -/
def Label.decides : Label → Bool
  | .reply r _ => decidesAction r.action
  | .repost .. => false
  | .wait .. => true

/-- The file is a `human.ack` or the broadcast of a decision. -/
def Written.decides (w : Written) : Bool :=
  match w.kind with
  | .ack _ => true
  | .broadcast _ => true
  | .reply _ => false

/-- What only decisions bring about. -/
def Event.decides : Event → Bool
  | .wrote w => w.decides
  | .resolved .. => true
  | .cleared _ => true
  | .editedBus .. => true
  | .returned .. => true
  | _ => false

/-- All that concerns one of these approvals or a card of the bus, but for the edit of an
approval's card, which depends on the card it has. -/
def Event.concerns (P : String → Bool) : Event → Bool
  | .resolved requestId _ => P requestId
  | .returned requestId _ => P requestId
  | .edited .. => false
  | _ => true

/-- What the decisions recorded and returned, on these approvals and the cards of the bus. -/
def decisions (P : String → Bool) (log : List (Label × Event)) : List (Label × Event) :=
  Unwinding.seen Label.decides (Event.concerns P) log

/-- The file is a reply to a sender. -/
def IsReplyPath (path : Text) : Prop := lit "-reply.md" <:+ path

/-! ### States that are alike -/

/-- The same approval, but for a later deadline and another card. -/
structure Slot.Alike (p q : Slot) : Prop where
  request : p.request = q.request
  card : p.card = q.card
  event : p.event = q.event
  response : p.response = q.response
  deadline : q.deadline ≤ p.deadline

namespace Slot.Alike

variable {p q u : Slot}

theorem refl (p : Slot) : p.Alike p := ⟨rfl, rfl, rfl, rfl, le_refl _⟩

theorem trans (h : p.Alike q) (h' : q.Alike u) : p.Alike u :=
  ⟨h.request.trans h'.request, h.card.trans h'.card, h.event.trans h'.event,
    h.response.trans h'.response, h'.deadline.trans h.deadline⟩

/-- A snooze pushes the deadline. -/
theorem snooze (p : Slot) (now : Seconds) : (p.snooze now).Alike p := by
  rw [Slot.snooze, Approval.PendingApproval.extendBy]
  split_ifs with h
  · exact ⟨rfl, rfl, rfl, rfl, h.le⟩
  · exact refl p

theorem repost (p : Slot) (card : Approval.CardId) : (p.repost card).Alike p :=
  ⟨rfl, rfl, rfl, rfl, le_refl _⟩

theorem resolve (h : p.Alike q) (response : ApprovalResponse) :
    (p.resolve response).Alike (q.resolve response) :=
  ⟨h.request, h.card, rfl, rfl, h.deadline⟩

/-- Before the deadlines, `wait` goes on with both in the same way. -/
theorem turn {now : Seconds} (h : p.Alike q) (hnow : now < q.deadline) :
    p.turn now = q.turn now := by
  have hp : ¬p.deadline ≤ now := not_le.mpr (hnow.trans_le h.deadline)
  have hq : ¬q.deadline ≤ now := not_le.mpr hnow
  rw [Slot.turn, Slot.turn, if_neg hp, if_neg hq, h.event, h.response]

end Slot.Alike

/-- **The same state, but for later deadlines, other cards and replies to senders**, as far
as these approvals are concerned. -/
structure Alike (P : String → Bool) (s t : State) : Prop where
  pending : Dict.Rel (fun requestId => P requestId) Slot.Alike s.pending t.pending
  pendingBus : s.pendingBus = t.pendingBus
  files : ∀ path, ¬IsReplyPath path → s.files path = t.files path

theorem Alike.refl (s : State) : Alike P s s :=
  ⟨.refl Slot.Alike.refl _, rfl, fun _ _ => rfl⟩

theorem Alike.trans {u : State} (h : Alike P s t) (h' : Alike P t u) : Alike P s u :=
  ⟨h.pending.trans Slot.Alike.trans h'.pending, h.pendingBus.trans h'.pendingBus,
    fun path hpath => (h.files path hpath).trans (h'.files path hpath)⟩

/-- The same state in this sense, with all its approvals. -/
structure Untouched (s t : State) : Prop where
  alike : ∀ P, Alike P s t
  keys : s.pending.keys = t.pending.keys

theorem Untouched.refl (s : State) : Untouched s s := ⟨fun _ => .refl s, rfl⟩

theorem Untouched.trans {u : State} (h : Untouched s t) (h' : Untouched t u) : Untouched s u :=
  ⟨fun P => (h.alike P).trans (h'.alike P), h.keys.trans h'.keys⟩

/-! ### Files -/

theorem isReplyPath_reply (m : Bus.BusMessage) (r : Bus.Reply) (time : Bus.Instant) (text : Text) :
    IsReplyPath (fileOf cfg m r time (.reply text)).1 :=
  List.suffix_append _ _

/-- A path with another end of this length is no reply. -/
theorem not_isReplyPath_of_suffix {path : Text} {w : String} (h : lit w <:+ path)
    (hlen : (lit w).length = (lit "-reply.md").length) (hne : lit w ≠ lit "-reply.md") :
    ¬IsReplyPath path := fun hpath =>
  hne ((List.suffix_of_suffix_length_le h hpath hlen.le).eq_of_length hlen)

/-- A `human.ack` is no reply. -/
theorem not_isReplyPath_ack (stem : Text) : ¬IsReplyPath (ackPath stem) := by
  have hend : lit "human.ack" <:+ lit ".human.ack" := by decide
  exact not_isReplyPath_of_suffix (hend.trans (List.suffix_append _ _)) (by decide) (by decide)

/-- The broadcast of a decision is no reply. -/
theorem not_isReplyPath_broadcast (m : Bus.BusMessage) (r : Bus.Reply) (time : Bus.Instant)
    (v : Bus.Verdict) : ¬IsReplyPath (fileOf cfg m r time (.broadcast v)).1 := by
  cases v with
  | approved =>
    have hend : lit "proved.md" <:+ lit "-human-to-all-spec-change-approved.md" := by decide
    exact not_isReplyPath_of_suffix (hend.trans (List.suffix_append _ _)) (by decide) (by decide)
  | rejected =>
    have hend : lit "jected.md" <:+ lit "-spec-change-rejected.md" := by decide
    exact not_isReplyPath_of_suffix (hend.trans (List.suffix_append _ _)) (by decide) (by decide)

/-- A file that is written is one of those to be written. -/
theorem record_mem {m : Bus.BusMessage} {r : Bus.Reply} {disk : ℕ → Bus.Instant × Access}
    {todo : List Bus.Write} {w : Written} (h : w ∈ (record cfg m r disk todo).1) :
    w.kind ∈ todo ∧ ∃ time, w.path = (fileOf cfg m r time w.kind).1 := by
  induction todo generalizing disk with
  | nil => exact absurd h List.not_mem_nil
  | cons w' todo ih =>
    simp only [record] at h
    split at h
    · exact absurd h List.not_mem_nil
    · obtain rfl := List.mem_singleton.mp h
      exact ⟨List.mem_cons_self, _, rfl⟩
    · rcases List.mem_cons.mp h with rfl | h
      · exact ⟨List.mem_cons_self, _, rfl⟩
      · exact ⟨List.mem_cons_of_mem _ (ih h).1, (ih h).2⟩

theorem putFiles_of_ne {files : Text → Option Text} {ws : List Written} {path : Text}
    (h : ∀ w ∈ ws, w.path ≠ path) : putFiles files ws path = files path := by
  induction ws generalizing files with
  | nil => rfl
  | cons w ws ih =>
    rw [putFiles, List.foldl_cons]
    exact (ih fun w' hw' => h w' (List.mem_cons_of_mem w hw')).trans
      (Function.update_of_ne (h w List.mem_cons_self).symm _ _)

theorem putFiles_congr {files files' : Text → Option Text} (ws : List Written) {path : Text}
    (h : files path = files' path) : putFiles files ws path = putFiles files' ws path := by
  induction ws generalizing files files' with
  | nil => exact h
  | cons w ws ih =>
    rw [putFiles, putFiles, List.foldl_cons, List.foldl_cons]
    refine ih ?_
    rcases eq_or_ne path w.path with rfl | hne
    · rw [Function.update_self, Function.update_self]
    · rw [Function.update_of_ne hne, Function.update_of_ne hne, h]

/-! ### A step that is no decision -/

/-- **The step decides nothing.** -/
structure Idle (s : State) (out : State × List Event) : Prop where
  untouched : Untouched out.1 s
  events : ∀ e ∈ out.2, e.decides = false

theorem idle_self (s : State) : Idle s (s, []) := ⟨.refl s, List.forall_mem_nil _⟩

theorem idle_surfaceDetails (cfg : Config) (s : State) (requestId : String) (env : Env) :
    Idle s (surfaceDetails cfg s requestId env) := by
  rw [surfaceDetails]
  split
  · exact idle_self s
  · refine ⟨.refl s, ?_⟩
    split_ifs
    · exact List.forall_mem_singleton.mpr rfl
    · exact List.forall_mem_nil _

/-- One approval is changed, into one that is alike. -/
theorem untouched_modify {requestId : String} {f : Slot → Slot} (hf : ∀ p, (f p).Alike p)
    (reposts : List String) :
    Untouched { s with pending := Dict.modify requestId f s.pending, reposts := reposts } s :=
  ⟨fun _ => ⟨.modify_left Slot.Alike.refl requestId hf, rfl, fun _ _ => rfl⟩,
    Dict.keys_modify f⟩

theorem idle_handleSnooze (s : State) (requestId : String) (env : Env) :
    Idle s (handleSnooze s requestId env) := by
  rw [handleSnooze]
  split
  · exact idle_self s
  next p _ =>
    refine ⟨untouched_modify (fun p => .snooze p env.now) _, fun e he => ?_⟩
    rcases List.mem_append.mp he with he | he
    · rw [snoozedCard] at he
      split at he
      · exact absurd he List.not_mem_nil
      · split_ifs at he
        · obtain rfl := List.mem_singleton.mp he
          rfl
        · exact absurd he List.not_mem_nil
    · split_ifs at he
      · obtain rfl := List.mem_singleton.mp he
        rfl
      · exact absurd he List.not_mem_nil

theorem idle_repost (s : State) (requestId : String) (posted : Option Approval.CardId) :
    Idle s (repost s requestId posted) := by
  simp only [repost]
  split_ifs
  · split
    · exact ⟨untouched_modify (fun p => .repost p _) _, List.forall_mem_singleton.mpr rfl⟩
    · exact ⟨⟨fun _ => ⟨.refl Slot.Alike.refl _, rfl, fun _ _ => rfl⟩, rfl⟩,
        List.forall_mem_nil _⟩
  · exact idle_self s

/-- An action that is no decision is none for an approval, and no verdict and no
acknowledgement for a card of the bus. -/
theorem actionToDecision_of_nonDecision {a : Action} (ha : decidesAction a = false) :
    actionToDecision a = none ∧ (busAction a = .comment ∨ busAction a = .other) := by
  cases a with
  | approve => exact absurd ha (by decide)
  | reject => exact absurd ha (by decide)
  | acknowledge => exact absurd ha (by decide)
  | comment => exact ⟨rfl, .inl rfl⟩
  | _ => exact ⟨rfl, .inr rfl⟩

/-- A reply that is no decision has a card of the bus write a reply, or nothing. -/
theorem writesOf_nonDecision {p : Bus.Parsed} {todo : List Bus.Write} {clears : Bool}
    (hr : decidesAction r.action = false)
    (h : Bus.writesOf cfg.toConfig p (busReply r) = some (todo, clears)) :
    clears = false ∧ ∃ text, todo = [.reply text] := by
  rcases (actionToDecision_of_nonDecision hr).2 with ha | ha
  · -- a comment, which is written unless it is blank
    simp only [Bus.writesOf, busReply, ha] at h
    split_ifs at h
    obtain ⟨rfl, rfl⟩ := Prod.mk.inj (Option.some.inj h)
    exact ⟨rfl, _, rfl⟩
  · simp [Bus.writesOf, busReply, ha] at h

theorem idle_dispatchBusDecision (cfg : Config) (s : State) {r : InboundReply} (env : Env)
    (card : BusCard) (hr : decidesAction r.action = false) :
    Idle s (dispatchBusDecision cfg s r env card) := by
  simp only [dispatchBusDecision]
  split
  · exact idle_self s
  next todo clears hw =>
    obtain ⟨rfl, text, rfl⟩ := writesOf_nonDecision hr hw
    rw [if_neg (by simp)]
    -- the one file it writes is a reply
    have hreply : ∀ w ∈ (record cfg card.parsed.msg (busReply r) env.disk [.reply text]).1,
        w.kind = .reply text ∧ IsReplyPath w.path := by
      intro w hw
      obtain ⟨hkind, time, hpath⟩ := record_mem hw
      rw [List.mem_singleton] at hkind
      rw [hkind] at hpath
      exact ⟨hkind, hpath ▸ isReplyPath_reply card.parsed.msg (busReply r) time text⟩
    refine ⟨⟨fun _ => ⟨.refl Slot.Alike.refl _, rfl, fun path hpath => ?_⟩, rfl⟩,
      fun e he => ?_⟩
    · exact putFiles_of_ne fun w hw heq => hpath (heq ▸ (hreply w hw).2)
    · obtain ⟨w, hw, rfl⟩ := List.mem_map.mp he
      rw [Event.decides, Written.decides, (hreply w hw).1]

theorem idle_dispatchInboundReply (cfg : Config) (s : State) {r : InboundReply} (env : Env)
    (hr : decidesAction r.action = false) : Idle s (dispatchInboundReply cfg s r env) := by
  rw [dispatchInboundReply]
  split_ifs
  · exact idle_surfaceDetails cfg s r.requestId env
  · exact idle_handleSnooze s r.requestId env
  · split
    next card _ => exact idle_dispatchBusDecision cfg s env card hr
    · split
      · exact idle_self s
      next hd => exact absurd hd (by simp [(actionToDecision_of_nonDecision hr).1])

/-- **What is no decision decides nothing.** -/
theorem idle_step (cfg : Config) (s : State) (hl : l.decides = false) : Idle s (step cfg s l) := by
  cases l with
  | reply r env => exact idle_dispatchInboundReply cfg s env hl
  | repost requestId posted => exact idle_repost s requestId posted
  | wait requestId now updates => exact absurd hl (by simp [Label.decides])

/-! ### A step that is one -/

/-- A hook that looks for one of these approvals does so before its deadline. -/
def InTime (P : String → Bool) (s : State) : Label → Prop
  | .wait requestId now _ =>
    P requestId → ∀ p, s.pending.lookup requestId = some p → now < p.deadline
  | _ => True

/-- **The steps end alike and give the same away.** -/
structure Matches (P : String → Bool) (out out' : State × List Event) : Prop where
  alike : Alike P out.1 out'.1
  events : out.2.filter (Event.concerns P) = out'.2.filter (Event.concerns P)

theorem matches_dispatchBusDecision (h : Alike P s t) (cfg : Config) (r : InboundReply) (env : Env)
    (card : BusCard) :
    Matches P (dispatchBusDecision cfg s r env card) (dispatchBusDecision cfg t r env card) := by
  have hfiles (ws : List Written) (path : Text) (hpath : ¬IsReplyPath path) :
      putFiles s.files ws path = putFiles t.files ws path :=
    putFiles_congr ws (h.files path hpath)
  simp only [dispatchBusDecision]
  split
  · exact ⟨h, rfl⟩
  · split_ifs
    · exact ⟨⟨h.pending, congrArg (AList.erase r.requestId) h.pendingBus, hfiles _⟩, rfl⟩
    · exact ⟨⟨h.pending, h.pendingBus, hfiles _⟩, rfl⟩

/-- The step touches one approval and nothing else. -/
structure Only (requestId : String) (s : State) (out : State × List Event) : Prop where
  pending : ∀ k, k ≠ requestId → out.1.pending.lookup k = s.pending.lookup k
  pendingBus : out.1.pendingBus = s.pendingBus
  files : out.1.files = s.files
  events : ∀ P : String → Bool, P requestId = false → out.2.filter (Event.concerns P) = []

/-- Steps that touch an approval that is not looked at. -/
theorem Only.matches {requestId : String} {out out' : State × List Event}
    (hs : Only requestId s out) (ht : Only requestId t out') (h : Alike P s t)
    (hP : P requestId = false) : Matches P out out' := by
  have hne (k : String) (hk : P k) : k ≠ requestId := fun heq => absurd hk (by simp [heq, hP])
  refine ⟨⟨?_, ?_, fun path hpath => ?_⟩, (hs.events P hP).trans (ht.events P hP).symm⟩
  · exact h.pending.of_lookup (fun k hk => hs.pending k (hne k hk))
      fun k hk => ht.pending k (hne k hk)
  · rw [hs.pendingBus, ht.pendingBus, h.pendingBus]
  · rw [hs.files, ht.files, h.files path hpath]

theorem only_self (requestId : String) (s : State) : Only requestId s (s, []) :=
  ⟨fun _ _ => rfl, rfl, rfl, fun _ _ => rfl⟩

theorem only_resolve (s : State) (requestId : String) (response : ApprovalResponse) :
    Only requestId s (resolve s requestId response) := by
  rw [resolve]
  split
  · exact only_self requestId s
  · refine ⟨fun k hk => Dict.lookup_modify_ne _ hk, rfl, rfl, fun P hP => ?_⟩
    exact List.filter_cons_of_neg (by simp [Event.concerns, hP])

/-- Which card is edited in the end is not looked at. -/
theorem filter_finalEdit (P : String → Bool) (p : Slot) (response : ApprovalResponse)
    (updates : Bool) : (finalEdit p response updates).filter (Event.concerns P) = [] := by
  rw [finalEdit]
  split
  · rfl
  · split_ifs <;> rfl

theorem only_waitTurn (s : State) (requestId : String) (now : Seconds) (updates : Bool) :
    Only requestId s (waitTurn s requestId now updates) := by
  rw [waitTurn]
  split
  · exact only_self requestId s
  · split
    · exact only_self requestId s
    · exact ⟨fun k hk => AList.lookup_erase_ne hk, rfl, rfl, fun _ _ => rfl⟩
    · refine ⟨fun k hk => AList.lookup_erase_ne hk, rfl, rfl, fun P hP => ?_⟩
      rw [List.filter_cons_of_neg (by simp [Event.concerns, hP]), filter_finalEdit]

theorem matches_resolve (h : Alike P s t) (requestId : String) (response : ApprovalResponse) :
    Matches P (resolve s requestId response) (resolve t requestId response) := by
  rcases hP : P requestId with _ | _
  · -- an approval that is not looked at may be gone in one of the two
    exact (only_resolve s requestId response).matches (only_resolve t requestId response) h hP
  rw [resolve, resolve]
  rcases hq : t.pending.lookup requestId with _ | q
  · rw [h.pending.lookup_eq_none hP hq]
    exact ⟨h, rfl⟩
  · obtain ⟨p, hp, -⟩ := h.pending.lookup_eq_some hP hq
    rw [hp]
    exact ⟨⟨h.pending.modify requestId fun hpq => hpq.resolve response, h.pendingBus, h.files⟩,
      rfl⟩

theorem matches_dispatchInboundReply (h : Alike P s t) (cfg : Config) {r : InboundReply}
    (env : Env) (hr : decidesAction r.action = true) :
    Matches P (dispatchInboundReply cfg s r env) (dispatchInboundReply cfg t r env) := by
  have hdetails : r.action ≠ .details := fun ha => absurd hr (by rw [ha]; decide)
  have hsnooze : r.action ≠ .snooze := fun ha => absurd hr (by rw [ha]; decide)
  -- the cards of the bus are the same, so both replies go to the same table
  simp only [dispatchInboundReply, if_neg hdetails, if_neg hsnooze, h.pendingBus]
  split
  next card _ => exact matches_dispatchBusDecision h cfg r env card
  · split
    · exact ⟨h, rfl⟩
    next decision _ => exact matches_resolve h r.requestId (responseOf r decision)

theorem matches_waitTurn (h : Alike P s t) {requestId : String} {now : Seconds} (updates : Bool)
    (hin : InTime P t (.wait requestId now updates)) :
    Matches P (waitTurn s requestId now updates) (waitTurn t requestId now updates) := by
  rcases hP : P requestId with _ | _
  · -- one that is not looked at may run past its deadline in one of the two
    exact (only_waitTurn s requestId now updates).matches
      (only_waitTurn t requestId now updates) h hP
  rw [waitTurn, waitTurn]
  rcases hq : t.pending.lookup requestId with _ | q
  · rw [h.pending.lookup_eq_none hP hq]
    exact ⟨h, rfl⟩
  · obtain ⟨p, hp, hpq⟩ := h.pending.lookup_eq_some hP hq
    have herase : Alike P { s with pending := s.pending.erase requestId }
        { t with pending := t.pending.erase requestId } :=
      ⟨h.pending.erase requestId, h.pendingBus, h.files⟩
    simp only [hp, hpq.turn (hin hP q hq)]
    rcases q.turn now with _ | _ | response
    · exact ⟨h, rfl⟩
    · exact ⟨herase, rfl⟩
    · refine ⟨herase, ?_⟩
      show List.filter (Event.concerns P) (.returned requestId response :: finalEdit p _ _) =
        List.filter (Event.concerns P) (.returned requestId response :: finalEdit q _ _)
      rw [List.filter_cons, List.filter_cons, filter_finalEdit, filter_finalEdit]

theorem matches_step (h : Alike P s t) (cfg : Config) (hl : l.decides = true)
    (hin : InTime P t l) : Matches P (step cfg s l) (step cfg t l) := by
  cases l with
  | reply r env => exact matches_dispatchInboundReply h cfg env hl
  | repost requestId posted => exact absurd hl (by simp [Label.decides])
  | wait requestId now updates => exact matches_waitTurn h updates hin

/-! ### Runs -/

/-- What is no decision can be left out, step by step. -/
theorem unwinds (cfg : Config) (P : String → Bool) :
    Unwinding.Unwinds (step cfg) Label.decides (Event.concerns P) (InTime P) (Alike P) where
  skips hl h := ((idle_step cfg _ hl).untouched.alike P).trans h
  keeps hl h hin := (matches_step h cfg hl hin).alike
  shows hl h hin := (matches_step h cfg hl hin).events

/-- **These steps decide nothing**, in whatever state they find the tables. -/
structure DecideNothing (cfg : Config) (s : State) (ls : List Label) : Prop where
  /-- The approvals are those that were there. -/
  keys : (run cfg s ls).1.pending.keys = s.pending.keys
  /-- Each has the response and the event it had, and no earlier deadline. -/
  slots : ∀ requestId p, s.pending.lookup requestId = some p →
    ∃ p', (run cfg s ls).1.pending.lookup requestId = some p' ∧ p'.Alike p
  /-- The cards of the bus are those that were there. -/
  pendingBus : (run cfg s ls).1.pendingBus = s.pendingBus
  /-- No `human.ack` is written. -/
  acks : ∀ stem, (run cfg s ls).1.files (ackPath stem) = s.files (ackPath stem)
  /-- No decision is broadcast. -/
  broadcasts : ∀ m r time v, (run cfg s ls).1.files (fileOf cfg m r time (.broadcast v)).1 =
    s.files (fileOf cfg m r time (.broadcast v)).1
  /-- Nothing comes of them that decides. -/
  events : ∀ e ∈ (run cfg s ls).2, e.2.decides = false
  /-- Later decisions record and return what they do without these steps, and without those
  among the later ones that are none: on the cards of the bus, and on the approvals that
  without them do not run past their deadlines. -/
  later : ∀ P ds, Unwinding.Along (step cfg) (InTime P) s (ds.filter Label.decides) →
    decisions P (run cfg (run cfg s ls).1 ds).2 =
        decisions P (run cfg s (ds.filter Label.decides)).2 ∧
      Alike P (run cfg (run cfg s ls).1 ds).1 (run cfg s (ds.filter Label.decides)).1

/-- **Replies that are no decisions decide nothing.** -/
theorem nonDecisions_decide_nothing (cfg : Config) (s : State) (ls : List Label)
    (hls : ∀ l ∈ ls, l.decides = false) : DecideNothing cfg s ls := by
  have huntouched : Untouched (run cfg s ls).1 s :=
    Unwinding.run_frame Untouched.refl Untouched.trans
      (fun s _ hl => (idle_step cfg s hl).untouched) hls
  have hall := huntouched.alike fun _ => true
  refine
    { keys := huntouched.keys
      slots := fun requestId p hp => hall.pending.lookup_eq_some rfl hp
      pendingBus := hall.pendingBus
      acks := fun stem => hall.files _ (not_isReplyPath_ack stem)
      broadcasts := fun m r time v => hall.files _ (not_isReplyPath_broadcast m r time v)
      events := ?_
      later := fun P ds hds => ?_ }
  · exact Unwinding.run_outputs (fun s _ hl => (idle_step cfg s hl).events) hls
  · obtain ⟨halike, hseen⟩ := (unwinds cfg P).purge (huntouched.alike P) hds
    exact ⟨hseen, halike⟩

/-! ### Two cards -/

/-- A daemon that knows of tools without an input. -/
def emptyInputs : Config where
  py := Bus.plainPython
  privileged _ := false
  hash := id
  repr _ := lit "{}"
  dumps _ := some (lit "{}")

/-- The request of a card. -/
def cardOf (requestId : String) : Telegram.ApprovalRequest where
  account := lit "dev"
  project := lit "bridge"
  repo := lit "bridge"
  agent := lit "spec-agent"
  toolName := lit "Bash"
  toolInput := .dict []
  reason := []
  priority := lit "normal"
  timeoutSeconds := 540
  requestId := lit requestId

/-- An approval and a request of the bus, both with a card. -/
def twoCards : State where
  pending := AList.singleton "tool"
    { request := { requestId := "tool" }, handle := some 1, deadline := 540, card := cardOf "tool" }
  pendingBus := AList.singleton "req"
    { card := cardOf "req"
      parsed := ⟨⟨lit "req", [(.str (lit "type"), .str (lit "spec-change-request")),
        (.str (lit "from"), .str (lit "spec-agent"))], []⟩, []⟩
      handle := some 2 }
  files _ := none
  reposts := []

/-- All goes well, in the epoch's first second. -/
def calm : Env where
  now := 60
  clock := lit "00:16"
  updates := true
  schedules := true
  disk _ := (⟨0, 0⟩, .writes)

/-- A reply of one user. -/
def replyOf (requestId : String) (action : Action) : Label :=
  .reply { requestId, action, responder := "ada", comment := "later" } calm

/-- Replies that are no decisions, and the card of a snooze. -/
def chatter : List Label :=
  [replyOf "tool" .details, replyOf "tool" .snooze, replyOf "req" .comment, replyOf "req" .viewDiff,
    replyOf "tool" (.other "wat"), .repost "tool" (some 3), replyOf "gone" .snooze]

/-- Two decisions, and the hook of the first. -/
def verdicts : List Label :=
  [replyOf "tool" .reject, .wait "tool" 90 true, replyOf "req" .approve]

/-- The request is approved and the tool refused as if there had been no talk about it. -/
theorem nonDecisions_decide_nothing_chatter : DecideNothing emptyInputs twoCards chatter ∧
    decisions (fun _ => true) (run emptyInputs (run emptyInputs twoCards chatter).1 verdicts).2 =
      decisions (fun _ => true) (run emptyInputs twoCards verdicts).2 ∧
    (decisions (fun _ => true) (run emptyInputs twoCards verdicts).2).length = 6 := by
  have hnothing : DecideNothing emptyInputs twoCards chatter :=
    nonDecisions_decide_nothing emptyInputs twoCards chatter (by decide)
  have hin : Unwinding.Along (step emptyInputs) (InTime fun _ => true) twoCards verdicts := by
    refine ⟨trivial, fun _ p hp => ?_, trivial, trivial⟩
    have hdeadline : ((step emptyInputs twoCards (replyOf "tool" .reject)).1.pending.lookup
        "tool").map (fun p => p.deadline) = some 540 := by decide +kernel
    rw [hp] at hdeadline
    have hlate : p.deadline = 540 := Option.some.inj hdeadline
    rw [hlate]
    decide +kernel
  exact ⟨hnothing, (hnothing.later (fun _ => true) verdicts hin).1, by decide +kernel⟩

end Replies

end OtamanBridge
