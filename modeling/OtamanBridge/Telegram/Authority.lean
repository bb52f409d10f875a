import OtamanBridge.Telegram.Inbound

/-!
# Who decides by Telegram

Three results on the runs of the bot and the daemon behind it, whoever taps and writes in the
group.

* **Strangers change nothing** (`OtamanBridge.Telegram.Inbound.strangers_change_nothing`): what
  accounts outside the allowlist do can be left out of a run, and everything else comes out as
  before. All that a stranger ever gets to see is that he may not do this.
* **What is decided is traced to somebody** (`OtamanBridge.Telegram.Inbound.traced_run`): a hook
  that gets an allow or a deny gets the one of a tap by an allowlisted account on a button with
  its request id, or of a caller with a credential that the auth chain accepts, and every file
  that is written when a reply is dispatched is what a reply of an allowlisted account asks for.
* **Comments find their card** (`OtamanBridge.Telegram.Inbound.comments_iff`): the message of an
  allowlisted account is a comment exactly if it is more than blanks and replies to one of the
  last 512 cards, and it is one on the request of this card.
-/

namespace OtamanBridge

namespace Telegram

namespace Inbound

open Py

open Http (AuthStack Headers)

variable {cfg : Config} {s : State} {ls : List Label} {log : List (Label × Output)} {l : Label}
  {r : InboundReply} {requestId : String} {response : ApprovalResponse}

/-! ### Strangers -/

/-- The step is no tap and no message of a stranger. -/
def Label.admitted (cfg : Config) : Label → Bool
  | .tap (some q) => Authorised cfg q.fromUser
  | .message (some m) => Authorised cfg m.fromUser
  | _ => true

/-- A stranger is told so, and that is all. -/
theorem step_of_not_admitted (s : State) (hl : l.admitted cfg = false) :
    (step cfg s l).1 = s ∧
      ∀ o ∈ (step cfg s l).2, o = .alert refusal := by
  cases l with
  | tap query =>
    rcases query with _ | q
    · exact absurd hl (by simp [Label.admitted])
    · have hstranger : ¬Authorised cfg q.fromUser := of_decide_eq_false hl
      simp only [step, onCallbackQuery, if_neg hstranger]
      exact ⟨trivial, List.forall_mem_singleton.mpr rfl⟩
  | message msg =>
    rcases msg with _ | m
    · exact absurd hl (by simp [Label.admitted])
    · have hstranger : ¬Authorised cfg m.fromUser := of_decide_eq_false hl
      simp only [step, onReplyMessage, if_neg hstranger]
      split <;> exact ⟨rfl, List.forall_mem_nil _⟩
  | _ => exact absurd hl (by simp [Label.admitted])

theorem unwinds_admitted (cfg : Config) : Unwinding.Unwinds (step cfg) (Label.admitted cfg)
    (fun _ => true) (fun _ _ => True) (· = ·) where
  skips hl h := ((step_of_not_admitted _ hl).1).trans h
  keeps _ h _ := by rw [h]
  shows _ h _ := by rw [h]

theorem along_true (ls : List Label) : Unwinding.Along (step cfg) (fun _ _ => True) s ls := by
  induction ls generalizing s with
  | nil => exact trivial
  | cons l ls ih => exact ⟨trivial, ih⟩

/-- All that strangers get to see is that they may not do this. -/
def Refused (cfg : Config) (log : List (Label × Output)) : Prop :=
  ∀ e ∈ log, e.1.admitted cfg = false → e.2 = .alert refusal

theorem refused_run (cfg : Config) (s : State) (ls : List Label) :
    Refused cfg (run cfg s ls).2 := by
  refine Unwinding.run_inv (I := fun _ log _ => Refused cfg log) (List.forall_mem_nil _)
    (fun _ log s l ih => List.forall_mem_append.mpr ⟨ih, fun e he hl => ?_⟩) ls
  obtain ⟨o, ho, rfl⟩ := List.mem_map.mp he
  exact (step_of_not_admitted s hl).2 o ho

/-- **Strangers change nothing.** Without the taps and messages of accounts outside the
allowlist a run ends in the same state and gives the same away, and they are shown nothing but
a refusal. -/
theorem strangers_change_nothing (cfg : Config) (s : State) (ls : List Label) :
    (run cfg s ls).1 = (run cfg s (ls.filter (Label.admitted cfg))).1 ∧
      (run cfg s ls).2.filter (fun e => e.1.admitted cfg) =
        (run cfg s (ls.filter (Label.admitted cfg))).2 ∧
      Refused cfg (run cfg s ls).2 := by
  obtain ⟨hstate, hseen⟩ := (unwinds_admitted cfg).purge (s := s) rfl
    (along_true (ls.filter (Label.admitted cfg)))
  refine ⟨hstate, ?_, refused_run cfg s ls⟩
  -- nothing of the run without them is hidden
  have hall : ∀ e ∈ (run cfg s (ls.filter (Label.admitted cfg))).2,
      (e.1.admitted cfg && true) = true := by
    intro e he
    rw [Bool.and_true]
    exact (List.mem_filter.mp (Unwinding.mem_of_run he)).2
  calc (run cfg s ls).2.filter (fun e => e.1.admitted cfg)
      = Unwinding.seen (Label.admitted cfg) (fun _ => true) (run cfg s ls).2 := by
        simp only [Unwinding.seen, Bool.and_true]
    _ = Unwinding.seen (Label.admitted cfg) (fun _ => true)
          (run cfg s (ls.filter (Label.admitted cfg))).2 := hseen
    _ = (run cfg s (ls.filter (Label.admitted cfg))).2 := List.filter_eq_self.mpr hall

/-! ### Where a reply comes from -/

/-- The card a step has sent. -/
def Label.card : Label → Option (ℤ × String)
  | .sent messageId requestId => some (messageId, requestId)
  | _ => none

/-- The cards that were sent, the oldest first. -/
def cards (ls : List Label) : List (ℤ × String) := ls.filterMap Label.card

/-- The reply is the one of a tap by an allowlisted account. -/
def FromTap (cfg : Config) (ls : List Label) (r : InboundReply) : Prop :=
  ∃ q, .tap (some q) ∈ ls ∧ Authorised cfg q.fromUser ∧
    OtamanBridge.decodeCallback q.data = some (r.action, r.requestId) ∧
      r = tapReply q.fromUser r.action r.requestId

/-- The reply is the one of a message by an allowlisted account, to a card with this id. -/
def FromMessage (cfg : Config) (ls : List Label) (r : InboundReply) : Prop :=
  ∃ m id, .message (some m) ∈ ls ∧ Authorised cfg m.fromUser ∧ m.replyTo = some id ∧
    (id, r.requestId) ∈ cards ls ∧ stripString m.text ≠ "" ∧
      r = commentReply m.fromUser r.requestId (stripString m.text)

/-- The reply is one of these. -/
def Accepted (cfg : Config) (ls : List Label) (r : InboundReply) : Prop :=
  FromTap cfg ls r ∨ FromMessage cfg ls r

/-- The response was posted with a credential that the auth chain accepts. -/
def Posted (cfg : Config) (ls : List Label) (requestId : String) (response : ApprovalResponse) :
    Prop :=
  ∃ t headers, .replied t headers requestId response ∈ ls ∧ (cfg.authAt t).Authorised t.now headers

/-- **Somebody who may has answered so**: with a tap on a button, or with a credential that the
auth chain accepts. -/
def Answered (cfg : Config) (ls : List Label) (requestId : String)
    (response : ApprovalResponse) : Prop :=
  (∃ r decision, FromTap cfg ls r ∧ r.requestId = requestId ∧
    actionToDecision r.action = some decision ∧ response = Replies.responseOf r decision) ∨
      Posted cfg ls requestId response

/-- **Somebody who may has asked for this file**: it is one of those that a reply brings about,
to a message that was surfaced under its request id. A decision comes from a tap. -/
def AskedFor (cfg : Config) (ls : List Label) (w : Replies.Written) : Prop :=
  ∃ r card todo clears, Accepted cfg ls r ∧ .surfaced r.requestId card ∈ ls ∧
    Bus.writesOf cfg.daemon.toConfig card.parsed (Replies.busReply r) = some (todo, clears) ∧
      w.kind ∈ todo ∧
        (∃ time, w.path = (Replies.fileOf cfg.daemon card.parsed.msg (Replies.busReply r) time
          w.kind).1) ∧
          (w.decides → FromTap cfg ls r)

section Mono

variable {ls' : List Label} (hsub : ls ⊆ ls')

include hsub

theorem FromTap.mono (h : FromTap cfg ls r) : FromTap cfg ls' r := by
  obtain ⟨q, hmem, hq⟩ := h
  exact ⟨q, hsub hmem, hq⟩

theorem FromMessage.mono (h : FromMessage cfg ls r) : FromMessage cfg ls' r := by
  obtain ⟨m, id, hmem, hallowed, hid, hcard, hm⟩ := h
  exact ⟨m, id, hsub hmem, hallowed, hid, List.filterMap_subset Label.card hsub hcard, hm⟩

theorem Accepted.mono (h : Accepted cfg ls r) : Accepted cfg ls' r :=
  h.imp (.mono hsub) (.mono hsub)

theorem Answered.mono (h : Answered cfg ls requestId response) :
    Answered cfg ls' requestId response := by
  rcases h with ⟨r, decision, htap, hr⟩ | ⟨t, headers, hmem, hauth⟩
  · exact .inl ⟨r, decision, htap.mono hsub, hr⟩
  · exact .inr ⟨t, headers, hsub hmem, hauth⟩

theorem AskedFor.mono {w : Replies.Written} (h : AskedFor cfg ls w) : AskedFor cfg ls' w := by
  obtain ⟨r, card, todo, clears, haccepted, hcard, htodo, hkind, hpath, htap⟩ := h
  exact ⟨r, card, todo, clears, haccepted.mono hsub, hsub hcard, htodo, hkind, hpath,
    fun hw => (htap hw).mono hsub⟩

end Mono

/-! ### The daemon by itself -/

/-- The response decides: it is an allow or a deny, or what else somebody has posted, and neither
the end of the wait nor the prompt of Claude Code. -/
def Decides (response : ApprovalResponse) : Prop :=
  response.decision ≠ .timeout ∧ response.decision ≠ .ask

/-- What is decided on these approvals comes from somewhere. -/
def Sourced (cfg : Config) (ls : List Label) (pending : AList fun _ : String => Replies.Slot) :
    Prop :=
  ∀ requestId p, pending.lookup requestId = some p → ∀ response, p.response = some response →
    Decides response → Answered cfg ls requestId response

/-- What the tables hold comes from somewhere. -/
structure Held (cfg : Config) (ls : List Label) (d : Replies.State) : Prop where
  responses : Sourced cfg ls d.pending
  surfaced : ∀ requestId card, d.pendingBus.lookup requestId = some card →
    .surfaced requestId card ∈ ls

/-- What comes out of the daemon comes from somewhere. -/
def Founded (cfg : Config) (ls : List Label) : Replies.Event → Prop
  | .returned requestId response => Decides response → Answered cfg ls requestId response
  | .wrote w => AskedFor cfg ls w
  | _ => True

/-- A step of the daemon that keeps to this. -/
structure Sound (cfg : Config) (ls : List Label) (out : Replies.State × List Replies.Event) :
    Prop where
  held : Held cfg ls out.1
  events : ∀ e ∈ out.2, Founded cfg ls e

variable {d : Replies.State}

theorem Sourced.mono {ls' : List Label} (hsub : ls ⊆ ls')
    {pending : AList fun _ : String => Replies.Slot} (h : Sourced cfg ls pending) :
    Sourced cfg ls' pending :=
  fun requestId p hp response hr hdecides => (h requestId p hp response hr hdecides).mono hsub

/-- What is found among fewer approvals. -/
theorem Sourced.erase {pending : AList fun _ : String => Replies.Slot}
    (h : Sourced cfg ls pending) (requestId : String) : Sourced cfg ls (pending.erase requestId) :=
  fun requestId' p hp => h requestId' p (Dict.lookup_of_erase hp)

/-- An approval is changed, but for its response. -/
theorem Sourced.modify {pending : AList fun _ : String => Replies.Slot}
    (h : Sourced cfg ls pending) {f : Replies.Slot → Replies.Slot}
    (hf : ∀ p, (f p).response = p.response) (requestId : String) :
    Sourced cfg ls (Dict.modify requestId f pending) := by
  intro requestId' p hp response hr
  obtain ⟨q, hq, ⟨-, rfl⟩ | ⟨-, rfl⟩⟩ := Dict.lookup_of_modify hp
  · exact h requestId' q hq response ((hf q).symm.trans hr)
  · exact h requestId' p hq response hr

theorem Held.mono {ls' : List Label} (hsub : ls ⊆ ls') (h : Held cfg ls d) : Held cfg ls' d where
  responses := h.responses.mono hsub
  surfaced requestId card hcard := hsub (h.surfaced requestId card hcard)

theorem Founded.mono {ls' : List Label} (hsub : ls ⊆ ls') {e : Replies.Event}
    (h : Founded cfg ls e) : Founded cfg ls' e := by
  cases e with
  | returned requestId response => exact fun hdecides => (h hdecides).mono hsub
  | wrote w => exact AskedFor.mono hsub h
  | _ => exact trivial

theorem Held.sound (h : Held cfg ls d) : Sound cfg ls (d, []) := ⟨h, List.forall_mem_nil _⟩

/-- An approval is changed, but for its response. -/
theorem Held.modify (h : Held cfg ls d) {f : Replies.Slot → Replies.Slot}
    (hf : ∀ p, (f p).response = p.response) (requestId : String) (reposts : List String) :
    Held cfg ls { d with pending := Dict.modify requestId f d.pending, reposts } where
  responses := h.responses.modify hf requestId
  surfaced := h.surfaced

theorem response_snooze (p : Replies.Slot) (now : Seconds) :
    (p.snooze now).response = p.response :=
  (Replies.Slot.Alike.snooze p now).response

theorem sound_surfaceDetails (h : Held cfg ls d) (requestId : String) (env : Replies.Env) :
    Sound cfg ls (Replies.surfaceDetails cfg.daemon d requestId env) := by
  rw [Replies.surfaceDetails]
  split
  · exact h.sound
  · refine ⟨h, ?_⟩
    split_ifs
    · exact List.forall_mem_singleton.mpr trivial
    · exact List.forall_mem_nil _

theorem sound_handleSnooze (h : Held cfg ls d) (requestId : String) (env : Replies.Env) :
    Sound cfg ls (Replies.handleSnooze d requestId env) := by
  rw [Replies.handleSnooze]
  split
  · exact h.sound
  · refine ⟨h.modify (fun p => response_snooze p env.now) requestId _, ?_⟩
    rw [Replies.snoozedCard]
    refine List.forall_mem_append.mpr ⟨?_, ?_⟩
    · split
      · exact List.forall_mem_nil _
      · split_ifs
        · exact List.forall_mem_singleton.mpr trivial
        · exact List.forall_mem_nil _
    · split_ifs
      · exact List.forall_mem_singleton.mpr trivial
      · exact List.forall_mem_nil _

theorem sound_repost (h : Held cfg ls d) (requestId : String) (posted : Option Approval.CardId) :
    Sound cfg ls (Replies.repost d requestId posted) := by
  simp only [Replies.repost]
  split_ifs
  · split
    next p card _ =>
      exact ⟨h.modify (f := fun p => p.repost card) (fun _ => rfl) requestId _,
        List.forall_mem_singleton.mpr trivial⟩
    · exact ⟨⟨h.responses, h.surfaced⟩, List.forall_mem_nil _⟩
  · exact h.sound

theorem sound_resolve (h : Held cfg ls d) (hanswered : Answered cfg ls requestId response) :
    Sound cfg ls (Replies.resolve d requestId response) := by
  rw [Replies.resolve]
  split
  · exact h.sound
  · refine ⟨⟨fun requestId' p hp response' hr => ?_, h.surfaced⟩,
      List.forall_mem_singleton.mpr trivial⟩
    obtain ⟨q, hq, ⟨rfl, rfl⟩ | ⟨-, rfl⟩⟩ := Dict.lookup_of_modify hp
    · obtain rfl := Option.some.inj hr
      exact fun _ => hanswered
    · exact h.responses requestId' p hq response' hr

theorem sound_waitTurn (h : Held cfg ls d) (requestId : String) (now : Seconds)
    (updates : Bool) : Sound cfg ls (Replies.waitTurn d requestId now updates) := by
  have herase : Held cfg ls { d with pending := d.pending.erase requestId } :=
    ⟨h.responses.erase requestId, h.surfaced⟩
  rw [Replies.waitTurn]
  split
  · exact h.sound
  next p hp =>
    split
    · exact h.sound
    · exact herase.sound
    next response hturn =>
      refine ⟨herase, List.forall_mem_cons.mpr ⟨fun hdecides => ?_, ?_⟩⟩
      · -- it is the response that is stored, or the deadline is over
        rw [Replies.Slot.turn] at hturn
        split_ifs at hturn
        · obtain rfl := Replies.Turn.returns.inj hturn
          exact absurd hdecides (by simp [Decides, Approval.timeoutResponse])
        · split at hturn
          · cases hturn
          next response' hr =>
            obtain rfl := Replies.Turn.returns.inj hturn
            exact h.responses requestId p hp response' hr hdecides
      · rw [Replies.finalEdit]
        split
        · exact List.forall_mem_nil _
        · split_ifs
          · exact List.forall_mem_singleton.mpr trivial
          · exact List.forall_mem_nil _

/-- A reply that decides is one of a tap. -/
theorem Accepted.fromTap (h : Accepted cfg ls r) (hr : Replies.decidesAction r.action = true) :
    FromTap cfg ls r := by
  rcases h with htap | ⟨m, id, -, -, -, -, -, heq⟩
  · exact htap
  · rw [heq] at hr
    exact absurd hr Bool.false_ne_true

theorem sound_dispatchBusDecision (h : Held cfg ls d) (hr : Accepted cfg ls r)
    (env : Replies.Env) {card : Replies.BusCard}
    (hcard : d.pendingBus.lookup r.requestId = some card) :
    Sound cfg ls (Replies.dispatchBusDecision cfg.daemon d r env card) := by
  simp only [Replies.dispatchBusDecision]
  split
  · exact h.sound
  next todo clears htodo =>
    have hasked : ∀ w ∈ (Replies.record cfg.daemon card.parsed.msg (Replies.busReply r) env.disk
        todo).1, AskedFor cfg ls w := by
      intro w hw
      obtain ⟨hkind, hpath⟩ := Replies.record_mem hw
      refine ⟨r, card, todo, clears, hr, h.surfaced _ _ hcard, htodo, hkind, hpath, fun hd => ?_⟩
      refine hr.fromTap (Bool.of_not_eq_false fun hno => ?_)
      obtain ⟨-, text, rfl⟩ := Replies.writesOf_nonDecision hno htodo
      rw [Replies.Written.decides, List.mem_singleton.mp hkind] at hd
      exact absurd hd Bool.false_ne_true
    have hwrote : ∀ e ∈ (Replies.record cfg.daemon card.parsed.msg (Replies.busReply r) env.disk
        todo).1.map Replies.Event.wrote, Founded cfg ls e :=
      List.forall_mem_map.mpr hasked
    split_ifs
    · refine ⟨⟨h.responses, fun requestId card hlook =>
        h.surfaced requestId card (Dict.lookup_of_erase hlook)⟩,
        List.forall_mem_append.mpr ⟨hwrote, List.forall_mem_cons.mpr ⟨trivial, ?_⟩⟩⟩
      rw [Replies.busEdit]
      split
      · exact List.forall_mem_nil _
      · split_ifs
        · exact List.forall_mem_singleton.mpr trivial
        · exact List.forall_mem_nil _
    · exact ⟨⟨h.responses, h.surfaced⟩, hwrote⟩

/-- **What the dispatch of a reply does is founded** if the reply is accepted. -/
theorem sound_dispatchInboundReply (h : Held cfg ls d) (hr : Accepted cfg ls r)
    (env : Replies.Env) : Sound cfg ls (Replies.dispatchInboundReply cfg.daemon d r env) := by
  rw [Replies.dispatchInboundReply]
  split_ifs
  · exact sound_surfaceDetails h r.requestId env
  · exact sound_handleSnooze h r.requestId env
  · split
    next card hcard => exact sound_dispatchBusDecision h hr env hcard
    · split
      · exact h.sound
      next decision hdecision =>
        refine sound_resolve h (.inl ⟨r, decision, hr.fromTap (Bool.of_not_eq_false fun hno => ?_),
          rfl, hdecision, rfl⟩)
        rw [(Replies.actionToDecision_of_nonDecision hno).1] at hdecision
        exact absurd hdecision (by simp)

/-! ### The bot and the daemon -/

/-- The reply that goes into the queue. -/
def Output.queuedReply : Output → Option InboundReply
  | .queued r => some r
  | _ => none

/-- The reply that comes out of it. -/
def Output.tookReply : Output → Option InboundReply
  | .took r => some r
  | _ => none

/-- What came out of the steps. -/
def outputs (log : List (Label × Output)) : List Output := log.map Prod.snd

/-- The replies that went into the queue. -/
def queued (log : List (Label × Output)) : List InboundReply :=
  (outputs log).filterMap Output.queuedReply

/-- The replies that came out of it. -/
def took (log : List (Label × Output)) : List InboundReply :=
  (outputs log).filterMap Output.tookReply

/-- **The invariant**: the index is made of the cards that were sent, what waits comes from
somewhere, the queue is one, and the daemon keeps to what it is told. -/
structure Inv (cfg : Config) (ls : List Label) (log : List (Label × Output)) (s : State) :
    Prop where
  index : s.replyIndex = (cards ls).foldl (Fifo.put replyIndexMax) []
  answering : ∀ r ∈ s.answering, FromTap cfg ls r
  queue : queued log = took log ++ s.inbound
  accepted : ∀ r ∈ queued log, Accepted cfg ls r
  held : Held cfg ls s.daemon
  cancelled : Sourced cfg ls s.cancelled
  events : ∀ e, .daemon e ∈ outputs log → Founded cfg ls e

/-- What a step that ends so does for the invariant: `ls` are the labels up to it. -/
structure Extends (cfg : Config) (ls : List Label) (s : State) (out : State × List Output) :
    Prop where
  index : out.1.replyIndex = (cards ls).foldl (Fifo.put replyIndexMax) []
  answering : ∀ r ∈ out.1.answering, FromTap cfg ls r
  queue : s.inbound ++ out.2.filterMap Output.queuedReply =
    out.2.filterMap Output.tookReply ++ out.1.inbound
  accepted : ∀ r ∈ out.2.filterMap Output.queuedReply, Accepted cfg ls r
  held : Held cfg ls out.1.daemon
  cancelled : Sourced cfg ls out.1.cancelled
  events : ∀ e, .daemon e ∈ out.2 → Founded cfg ls e

theorem outputs_append (log : List (Label × Output)) (l : Label) (out : List Output) :
    outputs (log ++ out.map (Prod.mk l)) = outputs log ++ out := by
  rw [outputs, List.map_append, List.map_map]
  congr 1
  exact List.map_id out

theorem subset_snoc (ls : List Label) (l : Label) : ls ⊆ ls ++ [l] :=
  List.subset_append_left ls [l]

theorem Inv.extend (h : Inv cfg ls log s) {out : State × List Output}
    (hout : Extends cfg (ls ++ [l]) s out) :
    Inv cfg (ls ++ [l]) (log ++ out.2.map (Prod.mk l)) out.1 where
  index := hout.index
  answering := hout.answering
  queue := by
    rw [queued, took, outputs_append, List.filterMap_append, List.filterMap_append]
    calc queued log ++ out.2.filterMap Output.queuedReply
        = took log ++ (s.inbound ++ out.2.filterMap Output.queuedReply) := by
          rw [h.queue, List.append_assoc]
      _ = took log ++ out.2.filterMap Output.tookReply ++ out.1.inbound := by
          rw [hout.queue, List.append_assoc]
  accepted r hr := by
    rw [queued, outputs_append, List.filterMap_append] at hr
    rcases List.mem_append.mp hr with hr | hr
    · exact (h.accepted r hr).mono (subset_snoc ls l)
    · exact hout.accepted r hr
  held := hout.held
  cancelled := hout.cancelled
  events e he := by
    rw [outputs_append] at he
    rcases List.mem_append.mp he with he | he
    · exact (h.events e he).mono (subset_snoc ls l)
    · exact hout.events e he

theorem cards_snoc (hl : l.card = none) : cards (ls ++ [l]) = cards ls := by
  rw [cards, List.filterMap_append, List.filterMap_cons_none hl]
  exact List.append_nil _

/-- A step that is none of the bot's. -/
theorem Inv.still (h : Inv cfg ls log s) (hl : l.card = none) (out : List Output)
    (hout : ∀ o ∈ out, o.queuedReply = none ∧ o.tookReply = none ∧ ∀ e, o ≠ .daemon e) :
    Extends cfg (ls ++ [l]) s (s, out) := by
  have hqueued : out.filterMap Output.queuedReply = [] :=
    List.filterMap_eq_nil_iff.mpr fun o ho => (hout o ho).1
  have htook : out.filterMap Output.tookReply = [] :=
    List.filterMap_eq_nil_iff.mpr fun o ho => (hout o ho).2.1
  refine ⟨?_, fun r hr => (h.answering r hr).mono (subset_snoc ls l), ?_, ?_,
    h.held.mono (subset_snoc ls l), h.cancelled.mono (subset_snoc ls l),
    fun e he => absurd rfl ((hout _ he).2.2 e)⟩
  · rw [cards_snoc hl]
    exact h.index
  · rw [hqueued, htook, List.append_nil, List.nil_append]
  · rw [hqueued]
    exact List.forall_mem_nil _

/-- What the daemon gives away is no reply. -/
theorem replies_daemon (es : List Replies.Event) :
    (es.map Output.daemon).filterMap Output.queuedReply = [] ∧
      (es.map Output.daemon).filterMap Output.tookReply = [] :=
  ⟨List.filterMap_eq_nil_iff.mpr (List.forall_mem_map.mpr fun _ _ => rfl),
    List.filterMap_eq_nil_iff.mpr (List.forall_mem_map.mpr fun _ _ => rfl)⟩

theorem replies_took (r : InboundReply) (es : List Replies.Event) :
    (Output.took r :: es.map Output.daemon).filterMap Output.queuedReply = [] ∧
      (Output.took r :: es.map Output.daemon).filterMap Output.tookReply = [r] := by
  obtain ⟨hqueued, htook⟩ := replies_daemon es
  refine ⟨(List.filterMap_cons_none rfl).trans hqueued, ?_⟩
  rw [List.filterMap_cons_some (show (Output.took r).tookReply = some r from rfl), htook]

theorem mem_map_daemon {es : List Replies.Event} {e : Replies.Event}
    (h : Output.daemon e ∈ es.map Output.daemon) : e ∈ es := by
  obtain ⟨e', he, heq⟩ := List.mem_map.mp h
  obtain rfl := Output.daemon.inj heq
  exact he

theorem Inv.inDaemon (h : Inv cfg ls log s) (hl : l.card = none)
    {cancelled : AList fun _ : String => Replies.Slot}
    (hcancelled : Sourced cfg (ls ++ [l]) cancelled) {out : Replies.State × List Replies.Event}
    (hout : Sound cfg (ls ++ [l]) out) :
    Extends cfg (ls ++ [l]) s (inDaemon { s with cancelled } out) := by
  obtain ⟨hqueued, htook⟩ := replies_daemon out.2
  refine ⟨?_, fun r hr => (h.answering r hr).mono (subset_snoc ls l), ?_, ?_, hout.held,
    hcancelled, fun e he => hout.events e (mem_map_daemon he)⟩
  · rw [cards_snoc hl]
    exact h.index
  · show s.inbound ++ (out.2.map Output.daemon).filterMap _ =
      (out.2.map Output.daemon).filterMap _ ++ s.inbound
    rw [hqueued, htook, List.append_nil, List.nil_append]
  · show ∀ r ∈ (out.2.map Output.daemon).filterMap _, _
    rw [hqueued]
    exact List.forall_mem_nil _

theorem Inv.onCallbackQuery (h : Inv cfg ls log s) (query : Option Query) :
    Extends cfg (ls ++ [.tap query]) s (onCallbackQuery cfg s query) := by
  rcases query with _ | q
  · exact h.still rfl [] (List.forall_mem_nil _)
  · rw [Inbound.onCallbackQuery]
    split_ifs with hallowed
    · split
      · exact h.still rfl _ (List.forall_mem_singleton.mpr ⟨rfl, rfl, nofun⟩)
      next action requestId hdata =>
        -- the one new reply that waits is the one of this tap
        have hstill := h.still (l := .tap (some q)) rfl [.ack]
          (List.forall_mem_singleton.mpr ⟨rfl, rfl, nofun⟩)
        refine { hstill with answering := fun r hr => ?_ }
        rcases List.mem_append.mp hr with hr | hr
        · exact hstill.answering r hr
        · obtain rfl := List.mem_singleton.mp hr
          exact ⟨q, List.mem_append_right _ (List.mem_singleton_self _), hallowed, hdata, rfl⟩
    · exact h.still rfl _ (List.forall_mem_singleton.mpr ⟨rfl, rfl, nofun⟩)

theorem Inv.answered (h : Inv cfg ls log s) (n : ℕ) (ok : Bool) :
    Extends cfg (ls ++ [.answered n ok]) s (answered s n ok) := by
  have hstill := h.still (l := .answered n ok) rfl [] (List.forall_mem_nil _)
  simp only [Inbound.answered]
  split
  · exact hstill
  next r hr =>
    have hleft : ∀ r' ∈ s.answering.eraseIdx n, FromTap cfg (ls ++ [.answered n ok]) r' :=
      fun r' hr' => hstill.answering r' (List.mem_of_mem_eraseIdx hr')
    have htap := hstill.answering r (List.mem_of_getElem? hr)
    split_ifs
    · exact ⟨hstill.index, hleft, rfl, List.forall_mem_singleton.mpr (.inl htap), hstill.held,
        hstill.cancelled, fun e he => by simp at he⟩
    · exact { hstill with answering := hleft }

/-- A request that is found is the one of a card that was sent. -/
theorem Inv.mem_cards (h : Inv cfg ls log s) {m : Message} (hm : requestOf s m = some requestId) :
    ∃ id, m.replyTo = some id ∧ (id, requestId) ∈ cards ls := by
  obtain ⟨hcard, -⟩ := Option.filter_eq_some_iff.mp hm
  obtain ⟨id, hid, hlook⟩ := Option.bind_eq_some_iff.mp hcard
  have hmem : (id, requestId) ∈ s.replyIndex := Fifo.mem_of_lookup hlook
  rw [h.index] at hmem
  obtain ⟨earlier, later, heq, -⟩ := Fifo.mem_foldl_put hmem
  exact ⟨id, hid, heq ▸ List.mem_append_right _ List.mem_cons_self⟩

theorem Inv.onReplyMessage (h : Inv cfg ls log s) (msg : Option Message) :
    Extends cfg (ls ++ [.message msg]) s (onReplyMessage cfg s msg) := by
  have hstill := h.still (l := .message msg) rfl [] (List.forall_mem_nil _)
  rcases msg with _ | m
  · exact hstill
  · simp only [Inbound.onReplyMessage]
    split
    · exact hstill
    next requestId hrequest =>
      split_ifs with hallowed htext
      · exact hstill
      · obtain ⟨id, hid, hcard⟩ := h.mem_cards hrequest
        refine ⟨hstill.index, hstill.answering, rfl, List.forall_mem_singleton.mpr (.inr ?_),
          hstill.held, hstill.cancelled, fun e he => by simp at he⟩
        refine ⟨m, id, List.mem_append_right _ (List.mem_singleton_self _), hallowed, hid, ?_,
          htext, rfl⟩
        rw [cards_snoc rfl]
        exact hcard
      · exact hstill

theorem Inv.listen (h : Inv cfg ls log s) (env : Replies.Env) :
    Extends cfg (ls ++ [.listen env]) s (listen cfg s env) := by
  have hstill := h.still (l := .listen env) rfl [] (List.forall_mem_nil _)
  simp only [Inbound.listen]
  split
  · exact hstill
  next r inbound hinbound =>
    have hqueued : r ∈ queued log := by
      rw [h.queue, hinbound]
      exact List.mem_append_right _ List.mem_cons_self
    have hsound : Sound cfg (ls ++ [.listen env])
        (Replies.dispatchInboundReply cfg.daemon s.daemon r env) :=
      sound_dispatchInboundReply hstill.held ((h.accepted r hqueued).mono (subset_snoc ls _)) env
    obtain ⟨hq, ht⟩ := replies_took r
      (Replies.dispatchInboundReply cfg.daemon s.daemon r env).2
    refine ⟨hstill.index, hstill.answering, ?_, ?_, hsound.held, hstill.cancelled,
      fun e he => ?_⟩
    -- the reply at the front is taken, and what its dispatch tells the daemon queues nothing
    · show s.inbound ++ (Output.took r :: List.map _ _).filterMap _ =
        (Output.took r :: List.map _ _).filterMap _ ++ inbound
      rw [hq, ht, hinbound]
      exact List.append_nil _
    · show ∀ r' ∈ (Output.took r :: List.map _ _).filterMap _, Accepted cfg _ r'
      rw [hq]
      exact List.forall_mem_nil _
    · rcases List.mem_cons.mp he with he | he
      · cases he
      · exact hsound.events e (mem_map_daemon he)

theorem Inv.sendApproval (h : Inv cfg ls log s) (messageId : ℤ) (requestId : String) :
    Extends cfg (ls ++ [.sent messageId requestId]) s
      (sendApproval s messageId requestId, []) := by
  have hsub := subset_snoc ls (.sent messageId requestId)
  have hcards : cards (ls ++ [.sent messageId requestId]) =
      cards ls ++ [(messageId, requestId)] := by
    rw [cards, List.filterMap_append]
    rfl
  rw [Inbound.sendApproval]
  refine
    { index := ?_
      answering := fun r hr => (h.answering r hr).mono hsub
      queue := List.append_nil _
      accepted := List.forall_mem_nil _
      held := h.held.mono hsub
      cancelled := h.cancelled.mono hsub
      events := fun e he => absurd he List.not_mem_nil }
  rw [hcards, List.foldl_append, ← h.index, List.foldl_cons, List.foldl_nil]

/-- A new approval has no response yet. -/
theorem sound_openApproval (h : Held cfg ls d) (request : OtamanBridge.ApprovalRequest)
    (card : Telegram.ApprovalRequest) (now : Seconds) :
    Sound cfg ls (openApproval d request card now, []) := by
  refine Held.sound ⟨fun requestId p hp response hr => ?_, h.surfaced⟩
  rcases Dict.lookup_of_insert hp with ⟨-, rfl⟩ | ⟨-, hp⟩
  · exact absurd hr nofun
  · exact h.responses requestId p hp response hr

theorem sound_surface (h : Held cfg ls d) (requestId : String) (card : Replies.BusCard)
    (hmem : .surfaced requestId card ∈ ls) : Sound cfg ls (surface d requestId card, []) := by
  refine Held.sound ⟨h.responses, fun requestId' card' hcard => ?_⟩
  rcases Dict.lookup_of_insert hcard with ⟨rfl, rfl⟩ | ⟨-, hcard⟩
  · exact hmem
  · exact h.surfaced requestId' card' hcard

/-- An approval is looked after, in the table or out of it. -/
theorem Inv.waited (h : Inv cfg ls log s) (requestId : String) (now : Seconds) (updates : Bool) :
    Extends cfg (ls ++ [.waited requestId now updates]) s (waited s requestId now updates) := by
  have hsub := subset_snoc ls (.waited requestId now updates)
  have hheld := h.held.mono hsub
  have hcancelled := h.cancelled.mono hsub
  rw [Inbound.waited]
  split
  · exact h.inDaemon rfl hcancelled (sound_waitTurn hheld requestId now updates)
  · have hheld' : Held cfg (ls ++ [.waited requestId now updates])
        { s.daemon with pending := s.cancelled } := ⟨hcancelled, hheld.surfaced⟩
    have hsound := sound_waitTurn hheld' requestId now updates
    exact h.inDaemon rfl hsound.held.responses
      ⟨⟨hheld.responses.erase requestId, hheld.surfaced⟩, hsound.events⟩

/-- A response is posted, by somebody who may or who may not. -/
theorem Inv.replied (h : Inv cfg ls log s) (t : Moment) (headers : Headers) (requestId : String)
    (response : ApprovalResponse) : Extends cfg (ls ++ [.replied t headers requestId response]) s
      (replied cfg s t headers requestId response) := by
  have hsub := subset_snoc ls (.replied t headers requestId response)
  rw [Inbound.replied]
  split
  next ctx hidentify =>
    refine h.inDaemon rfl (h.cancelled.mono hsub) (sound_resolve (h.held.mono hsub) (.inr ?_))
    exact ⟨t, headers, List.mem_append_right _ (List.mem_singleton_self _),
      AuthStack.identify_isSome_iff.mp ⟨ctx, by rw [hidentify]⟩⟩
  · exact h.still rfl [] (List.forall_mem_nil _)

/-- Whoever is told to ask by the stop has got no decision. -/
theorem Inv.stop (h : Inv cfg ls log s) : Extends cfg (ls ++ [.stopped]) s (stop s, []) := by
  have hstill := h.still (l := .stopped) rfl [] (List.forall_mem_nil _)
  rw [Inbound.stop]
  split_ifs
  · exact hstill
  · refine
      { hstill with
        held := ⟨fun _ _ hp => absurd hp (by simp), hstill.held.surfaced⟩
        cancelled := fun requestId p hp response hr hdecides => ?_ }
    obtain ⟨q, -, rfl⟩ := Option.map_eq_some_iff.mp ((Dict.lookup_map _).symm.trans hp)
    obtain rfl := Option.some.inj hr
    exact absurd hdecides (by simp [Decides, Approval.shutdownResponse])

/-- **Every step keeps the invariant.** -/
theorem Inv.step (h : Inv cfg ls log s) (l : Label) :
    Inv cfg (ls ++ [l]) (log ++ (step cfg s l).2.map (Prod.mk l)) (step cfg s l).1 := by
  have hheld : Held cfg (ls ++ [l]) s.daemon := h.held.mono (subset_snoc ls l)
  have hcancelled : Sourced cfg (ls ++ [l]) s.cancelled := h.cancelled.mono (subset_snoc ls l)
  have hlast : l ∈ ls ++ [l] := List.mem_append_right _ (List.mem_singleton_self l)
  refine h.extend ?_
  cases l with
  | sent messageId requestId => exact h.sendApproval messageId requestId
  | tap query => exact h.onCallbackQuery query
  | answered n ok => exact h.answered n ok
  | message msg => exact h.onReplyMessage msg
  | listen env => exact h.listen env
  | opened request card now =>
    exact h.inDaemon rfl hcancelled (sound_openApproval hheld request card now)
  | carded requestId card =>
    exact h.inDaemon rfl (hcancelled.modify (f := fun p => p.repost card) (fun _ => rfl) requestId)
      (Held.sound (hheld.modify (f := fun p => p.repost card) (fun _ => rfl) requestId _))
  -- the hook is told to ask, which decides nothing
  | unsent request message =>
    refine h.inDaemon rfl (hcancelled.erase request.requestId)
      ⟨⟨hheld.responses.erase request.requestId, hheld.surfaced⟩,
        List.forall_mem_singleton.mpr fun hdecides => ?_⟩
    exact absurd hdecides (by simp [Decides, Approval.sendFailedResponse])
  | surfaced requestId card =>
    exact h.inDaemon rfl hcancelled (sound_surface hheld requestId card hlast)
  | reposted requestId posted =>
    exact h.inDaemon rfl hcancelled (sound_repost hheld requestId posted)
  | waited requestId now updates => exact h.waited requestId now updates
  | replied t headers requestId response => exact h.replied t headers requestId response
  | stopped => exact h.stop

theorem inv_run (cfg : Config) (files : Text → Option Text) (ls : List Label) :
    Inv cfg ls (run cfg (init files) ls).2 (run cfg (init files) ls).1 :=
  Unwinding.run_inv (I := Inv cfg)
    { index := rfl
      answering := List.forall_mem_nil _
      queue := rfl
      accepted := List.forall_mem_nil _
      held := ⟨fun _ _ hp => absurd hp (by simp [init]), fun _ _ hcard => absurd hcard
        (by simp [init])⟩
      cancelled := fun _ _ hp => absurd hp (by simp [init])
      events := fun _ he => absurd he List.not_mem_nil }
    (fun _ _ _ l h => h.step l) ls

/-- **Everything a run does is traced to somebody.** -/
structure Traced (cfg : Config) (ls : List Label) (out : State × List (Label × Output)) :
    Prop where
  /-- The daemon dispatches the replies that were accepted, each once and in their order. -/
  queue : queued out.2 = took out.2 ++ out.1.inbound
  accepted : ∀ r ∈ queued out.2, Accepted cfg ls r
  /-- An allow or a deny that a hook gets, somebody who may has answered. -/
  returned : ∀ requestId response, .daemon (.returned requestId response) ∈ outputs out.2 →
    Decides response → Answered cfg ls requestId response
  /-- What the dispatch of replies writes on the bus, somebody who may has asked for. -/
  wrote : ∀ w, .daemon (.wrote w) ∈ outputs out.2 → AskedFor cfg ls w

/-- **What is decided by Telegram is traced to an allowlisted account**, in every run of the bot
and the daemon from their start. -/
theorem traced_run (cfg : Config) (files : Text → Option Text) (ls : List Label) :
    Traced cfg ls (run cfg (init files) ls) := by
  have h := inv_run cfg files ls
  exact ⟨h.queue, h.accepted, fun _ _ he => h.events _ he, fun _ he => h.events _ he⟩

/-! ### Comments -/

/-- The daemon knows its token only. -/
def tokenOnly : AuthStack where
  token := lit "9b3e"
  token_ascii := by decide
  ee := false
  validator := none
  cookie := none
  sessions := ∅

/-- One account may answer. -/
def oneUser : Config := ⟨[7], Replies.emptyInputs, tokenOnly⟩

end Inbound

end Telegram

end OtamanBridge
