import OtamanBridge.Approval.Invariants

/-!
# No allow without a human

`handle_approval` can return in four ways: its deadline passes, its card cannot be
sent, the shutdown answers it, or a `resolve` call delivers a decision to it
(`OtamanBridge.Approval.WayOut`). The first three never say `allow`. The last one is
traced back through the run: the object a `resolve` call holds was found in the
table at the step of its lookup, where the call was registered and had not
answered; the response it carries is a decision of the listener or the body of a
`POST /reply`; and a decision of the listener was put into the queue by a tap of
an allowed user.
-/

namespace OtamanBridge

namespace Approval

variable {cfg : Config} {ls : List Label} {s s' : State} {l : Label}

/-! ### Where a decision comes from -/

/-- The tap or the request that `resolve` call `i`, with this origin, for this id and
with this response, comes from. -/
inductive Heard (cfg : Config) (ls : List Label) (i : ℕ) (origin : Origin) (rid : String)
    (response : ApprovalResponse) : Prop
  /-- An allowed user tapped a button of the card for this id. -/
  | tap {uid data action reply} (ho : origin = .listener reply) (hu : uid ∈ cfg.allowedUserIds)
      (hm : Label.callback uid data ∈ ls) (hd : decodeCallback data = some (action, rid))
      (ha : actionToDecision action = some response.decision)
      (hr : response.responder = s!"telegram:{uid}")
  /-- The response is the body of a `POST /reply` that passed the auth gate. -/
  | reply {ctx} (ho : origin = .http ctx) (hm : Label.postReply i (some ctx) response ∈ ls)
      (hr : response.requestId = rid)

/-- `resolve` call `i` finds call `c` registered and not answered, at state `a` of
the run. -/
structure Delivery (cfg : Config) (pre : List Label) (a : State) (i : ℕ) (r : Resolve)
    (c : CallId) : Prop where
  reached : Reaches cfg pre a
  looking : a.resolves i = some r ∧ r.phase = .looking
  found : a.table.lookup r.requestId = some c
  inFlight : ∃ k, a.calls c = some k ∧ k.phase.InFlight ∧ k.request.requestId = r.requestId
  heard : Heard cfg pre i r.origin r.requestId r.response

/-- The run delivered this response to call `c`, under this id. -/
def Delivered (cfg : Config) (ls : List Label) (c : CallId) (rid : String)
    (response : ApprovalResponse) : Prop :=
  ∃ pre i post a r, ls = pre ++ Label.look i :: post ∧ Delivery cfg pre a i r c ∧
    r.requestId = rid ∧ r.response = response

/-- The ways a response can reach the hook that waits for `request`. -/
inductive WayOut (cfg : Config) (ls : List Label) (c : CallId) (request : ApprovalRequest)
    (response : ApprovalResponse) : Prop
  | deadline (h : response = timeoutResponse request)
  | sendFailed {message} (h : response = sendFailedResponse request message)
  | shutdown (h : response = shutdownResponse request.requestId)
  | delivered (h : Delivered cfg ls c request.requestId response)

theorem Heard.snoc {i : ℕ} {origin : Origin} {rid : String} {response : ApprovalResponse}
    (h : Heard cfg ls i origin rid response) (l : Label) :
    Heard cfg (ls ++ [l]) i origin rid response := by
  cases h with
  | tap ho hu hm hd ha hr => exact .tap ho hu (List.mem_append_left _ hm) hd ha hr
  | reply ho hm hr => exact .reply ho (List.mem_append_left _ hm) hr

theorem Delivered.snoc {c : CallId} {rid : String} {response : ApprovalResponse}
    (h : Delivered cfg ls c rid response) (l : Label) :
    Delivered cfg (ls ++ [l]) c rid response := by
  obtain ⟨pre, i, post, a, r, rfl, hd, hrid, hresp⟩ := h
  exact ⟨pre, i, post ++ [l], a, r, by simp, hd, hrid, hresp⟩

theorem WayOut.snoc {c : CallId} {request : ApprovalRequest} {response : ApprovalResponse}
    (h : WayOut cfg ls c request response) (l : Label) :
    WayOut cfg (ls ++ [l]) c request response := by
  cases h with
  | deadline h => exact .deadline h
  | sendFailed h => exact .sendFailed h
  | shutdown h => exact .shutdown h
  | delivered h => exact .delivered (h.snoc l)

/-- A way out that says `allow` is a delivery. -/
theorem WayOut.delivered_of_allow {c : CallId} {request : ApprovalRequest}
    {response : ApprovalResponse} (h : WayOut cfg ls c request response)
    (hd : response.decision = .allow) : Delivered cfg ls c request.requestId response := by
  cases h with
  | deadline h => simp [h, timeoutResponse] at hd
  | sendFailed h => simp [h, sendFailedResponse] at hd
  | shutdown h => simp [h, shutdownResponse] at hd
  | delivered h => exact h

theorem actionToDecision_allow {action : Action} (h : actionToDecision action = some .allow) :
    action = .approve := by
  cases action <;> simp_all [actionToDecision]

/-! ### The invariant -/

/-- **Every response in the daemon is accounted for by the run so far.** -/
structure Traced (cfg : Config) (ls : List Label) (s : State) : Prop where
  /-- A decision in the queue was tapped by an allowed user. -/
  inbound : ∀ {reply decision}, reply ∈ s.inbound →
    actionToDecision reply.action = some decision →
    ∃ uid ∈ cfg.allowedUserIds, ∃ data, Label.callback uid data ∈ ls ∧
      decodeCallback data = some (reply.action, reply.requestId) ∧
      reply.responder = s!"telegram:{uid}"
  /-- A `resolve` call carries a decision somebody made. -/
  heard : ∀ {i r}, s.resolves i = some r → Heard cfg ls i r.origin r.requestId r.response
  /-- A `resolve` call that found an object delivers to it. -/
  found : ∀ {i r c}, s.resolves i = some r → r.phase.found = some c →
    Delivered cfg ls c r.requestId r.response
  /-- The response stored in an object. -/
  stored : ∀ {c k response}, s.calls c = some k → k.pending.response = some response →
    WayOut cfg ls c k.request response
  /-- The response a call leaves with. -/
  answer : ∀ {c k response}, s.calls c = some k →
    k.phase = .leaving response ∨ k.phase = .returned response →
    WayOut cfg ls c k.request response

theorem Traced.init : Traced cfg [] State.init where
  inbound hm := by simp [State.init] at hm
  heard hr := by simp [State.init] at hr
  found hr := by simp [State.init] at hr
  stored hk := by simp [State.init] at hk
  answer hk := by simp [State.init] at hk

/-- The queue grows at its end, by taps of allowed users and by comments. -/
theorem Step.inbound (h : Step cfg s l s') {reply : InboundReply} (hm : reply ∈ s'.inbound) :
    reply ∈ s.inbound ∨ reply.action = .comment ∨
      ∃ uid ∈ cfg.allowedUserIds, ∃ data, l = .callback uid data ∧
        decodeCallback data = some (reply.action, reply.requestId) ∧
        reply.responder = s!"telegram:{uid}" := by
  cases h with
  | callback hu hd =>
    rcases List.mem_append.mp hm with hm | hm
    · exact .inl hm
    · obtain rfl := List.mem_singleton.mp hm
      exact .inr (.inr ⟨_, hu, _, rfl, hd, rfl⟩)
  | replyMessage hu =>
    rcases List.mem_append.mp hm with hm | hm
    · exact .inl hm
    · obtain rfl := List.mem_singleton.mp hm
      exact .inr (.inl rfl)
  | ignored hq => exact .inl (hq ▸ List.mem_cons_of_mem _ hm)
  | snoozed hq => exact .inl (hq ▸ List.mem_cons_of_mem _ hm)
  | decided hq => exact .inl (hq ▸ List.mem_cons_of_mem _ hm)
  | _ => exact .inl hm

theorem Traced.inbound_step (ht : Traced cfg ls s) (h : Step cfg s l s') {reply : InboundReply}
    {decision : Decision} (hm : reply ∈ s'.inbound)
    (ha : actionToDecision reply.action = some decision) :
    ∃ uid ∈ cfg.allowedUserIds, ∃ data, Label.callback uid data ∈ ls ++ [l] ∧
      decodeCallback data = some (reply.action, reply.requestId) ∧
      reply.responder = s!"telegram:{uid}" := by
  rcases h.inbound hm with hold | hc | ⟨uid, hu, data, rfl, hd⟩
  · obtain ⟨uid, hu, data, hmem, hd⟩ := ht.inbound hold ha
    exact ⟨uid, hu, data, List.mem_append_left _ hmem, hd⟩
  · simp [hc, actionToDecision] at ha
  · exact ⟨uid, hu, data, List.mem_append_right _ (List.mem_singleton_self _), hd⟩

theorem Traced.heard_step (ht : Traced cfg ls s) (h : Step cfg s l s') {i : ℕ} {r' : Resolve}
    (hr' : s'.resolves i = some r') :
    Heard cfg (ls ++ [l]) i r'.origin r'.requestId r'.response := by
  rcases hr : s.resolves i with _ | r
  · cases h.resolve_new hr hr' with
    | @listener reply rest decision hq ha hb =>
      obtain ⟨uid, hu, data, hm, hd, hresp⟩ := ht.inbound (hq ▸ List.mem_cons_self) ha
      exact .tap rfl hu (List.mem_append_left _ hm) hd ha hresp
    | http hs => exact .reply rfl (List.mem_append_right _ (List.mem_singleton_self _)) rfl
  · obtain ⟨r'', hr'', hch⟩ := h.resolve hr
    obtain rfl := Option.some.inj (hr''.symm.trans hr')
    obtain ⟨hrid, hresp, horig⟩ := hch.carries
    rw [hrid, hresp, horig]
    exact (ht.heard hr).snoc l

theorem Traced.found_step (hrun : Reaches cfg ls s) (ht : Traced cfg ls s) (h : Step cfg s l s')
    {i : ℕ} {r' : Resolve} {c : CallId} (hr' : s'.resolves i = some r')
    (hf : r'.phase.found = some c) : Delivered cfg (ls ++ [l]) c r'.requestId r'.response := by
  rcases hr : s.resolves i with _ | r
  · cases h.resolve_new hr hr' <;> simp [ResolvePhase.found] at hf
  · obtain ⟨r'', hr'', hch⟩ := h.resolve hr
    obtain rfl := Option.some.inj (hr''.symm.trans hr')
    cases hch with
    | same => exact (ht.found hr hf).snoc l
    | hit hp hl =>
      -- the lookup itself: the table leads to a call in flight
      obtain rfl := by simpa [ResolvePhase.found] using hf
      exact ⟨ls, i, [], s, r, rfl, ⟨hrun, ⟨hr, hp⟩, hl, hrun.wf.table hl, ht.heard hr⟩, rfl, rfl⟩
    | miss => simp [ResolvePhase.found] at hf
    | write hp => exact (ht.found hr (by rw [hp]; exact hf)).snoc _
    | set hp => exact (ht.found hr (by rw [hp]; exact hf)).snoc _

theorem Traced.stored_step (hw : Wf s) (ht : Traced cfg ls s) (h : Step cfg s l s') {c : CallId}
    {k' : Call} {response : ApprovalResponse} (hk' : s'.calls c = some k')
    (hp : k'.pending.response = some response) :
    WayOut cfg (ls ++ [l]) c k'.request response := by
  rcases hk : s.calls c with _ | k
  · obtain ⟨-, _, _, _, -, -, rfl⟩ := h.call_new hk hk'
    simp [PendingApproval.make] at hp
  · obtain ⟨k'', hk'', hch⟩ := h.call hk
    obtain rfl := Option.some.inj (hk''.symm.trans hk')
    cases hch with
    | move hm =>
      cases hm with
      | build => simp [PendingApproval.make] at hp
      | _ => exact (ht.stored hk hp).snoc _
    | @write i r hr hp' =>
      obtain rfl := Option.some.inj hp
      have hf : r.phase.found = some c := by rw [hp']; rfl
      obtain ⟨k₀, hk₀, -, hrid⟩ := hw.resolve hr hf
      obtain rfl := Option.some.inj (hk.symm.trans hk₀)
      exact .delivered (hrid ▸ (ht.found hr hf).snoc _)
    | sweepWrite hs =>
      obtain rfl := Option.some.inj hp
      exact .shutdown (by rw [hw.pending hk])
    | snoozeExtend =>
      refine (ht.stored hk ?_).snoc _
      simp only [PendingApproval.extendBy] at hp
      split at hp <;> exact hp
    | _ => exact (ht.stored hk hp).snoc _

theorem Traced.answer_step (ht : Traced cfg ls s) (h : Step cfg s l s') {c : CallId} {k' : Call}
    {response : ApprovalResponse} (hk' : s'.calls c = some k')
    (hp : k'.phase = .leaving response ∨ k'.phase = .returned response) :
    WayOut cfg (ls ++ [l]) c k'.request response := by
  rcases hk : s.calls c with _ | k
  · obtain ⟨-, _, _, _, -, -, rfl⟩ := h.call_new hk hk'
    simp at hp
  · obtain ⟨k'', hk'', hch⟩ := h.call hk
    obtain rfl := Option.some.inj (hk''.symm.trans hk')
    cases hch with
    | move hm =>
      cases hm with
      | expire =>
        obtain rfl := by simpa using hp
        exact .deadline rfl
      | wake hb he hr =>
        obtain rfl := by simpa using hp
        exact (ht.stored hk hr).snoc _
      | _ => simp at hp
    | register => simp at hp
    | leaveFailing hf =>
      obtain rfl := by simpa using hp
      exact .sendFailed rfl
    | leaveAnswered hl =>
      obtain rfl := by simpa using hp
      exact (ht.answer hk (.inl hl)).snoc _
    | _ => exact (ht.answer hk hp).snoc _

/-- **Every run accounts for its responses.** -/
theorem Reaches.traced (h : Reaches cfg ls s) : Traced cfg ls s := by
  refine Lts.Run.inv (I := fun ls s => Traced cfg ls s) Traced.init ?_ h
  intro ls s l s' (hrun : Reaches cfg ls s) ht hl
  have hs := Step.of_step hl
  exact {
    inbound := ht.inbound_step hs
    heard := ht.heard_step hs
    found := ht.found_step hrun hs
    stored := ht.stored_step hrun.wf hs
    answer := ht.answer_step hs }

/-! ### The main result -/

/-- Somebody entitled to approved the request with this id: an allowed user tapped
approve on its card, or a `POST /reply` with decision `allow` passed the auth gate. -/
inductive Approved (cfg : Config) (ls : List Label) (rid : String) : Prop
  | tap {uid data} (hu : uid ∈ cfg.allowedUserIds) (hm : Label.callback uid data ∈ ls)
      (hd : decodeCallback data = some (.approve, rid))
  | reply {i ctx response} (hm : Label.postReply i (some ctx) response ∈ ls)
      (hd : response.decision = .allow) (hr : response.requestId = rid)

theorem Heard.approved {i : ℕ} {origin : Origin} {rid : String} {response : ApprovalResponse}
    (h : Heard cfg ls i origin rid response) (hd : response.decision = .allow) :
    Approved cfg ls rid := by
  cases h with
  | tap _ hu hm hdec ha _ =>
    rw [hd] at ha
    obtain rfl := actionToDecision_allow ha
    exact .tap hu hm hdec
  | reply _ hm hr => exact .reply hm hd hr

/-- **No allow without a human.** In every run of a daemon, whatever a
`handle_approval` call returns comes out of one of the four ways; and it returns
`allow` only if an approve for its request id was delivered to it: at some step of
the run a `resolve` call looked the id up and found this very call, which was
registered and had not returned, and an entitled approve for the id had come in by
then. -/
theorem allow_of_approved {c : CallId} {k : Call} {response : ApprovalResponse}
    (h : Reaches cfg ls s) (hk : s.calls c = some k) (hp : k.phase = .returned response) :
    WayOut cfg ls c k.request response ∧
    (response.decision = .allow → ∃ pre i post a k₀, ls = pre ++ Label.look i :: post ∧
      Reaches cfg pre a ∧ a.calls c = some k₀ ∧ k₀.phase.InFlight ∧
      a.table.lookup k.request.requestId = some c ∧
      Approved cfg pre k.request.requestId) := by
  have hout := h.traced.answer hk (.inr hp)
  refine ⟨hout, fun hd => ?_⟩
  obtain ⟨pre, i, post, a, r, rfl, hdel, hrid, rfl⟩ := hout.delivered_of_allow hd
  obtain ⟨k₀, hk₀, hfl, -⟩ := hdel.inFlight
  rw [← hrid]
  exact ⟨pre, i, post, a, k₀, rfl, hdel.reached, hk₀, hfl, hdel.found, hdel.heard.approved hd⟩

/-- A call whose card is approved by a tap. -/
theorem allow_of_approved_tap :
    let ls : List Label :=
      [.postApproval 0 (some ⟨[], none, []⟩) 0 ⟨"r1", 540⟩, .move 0 .build, .register 0,
        .sendPosts 0 0, .move 0 .sendReturned, .move 0 .block, .callback 7 "A|r1", .listen 0,
        .look 0, .write 0, .set 0, .move 0 .wake, .leave 0]
    ∃ s k, Reaches ⟨[7]⟩ ls s ∧ s.calls 0 = some k ∧
      k.phase = .returned ⟨.allow, "r1", "telegram:7", ""⟩ ∧
      ∃ pre i post a k₀, ls = pre ++ Label.look i :: post ∧ Reaches ⟨[7]⟩ pre a ∧
        a.calls 0 = some k₀ ∧ k₀.phase.InFlight ∧ a.table.lookup "r1" = some 0 ∧
        Approved ⟨[7]⟩ pre "r1" := by
  intro ls
  obtain ⟨s, hrun, hs⟩ := Lts.exists_run_of_exec (step ⟨[7]⟩) State.init ls
    (fun s => (s.calls 0).any fun k => k.request.requestId = "r1" ∧
      k.phase = .returned ⟨.allow, "r1", "telegram:7", ""⟩) (by decide +kernel)
  obtain ⟨k, hk, hrid, hp⟩ : ∃ k, s.calls 0 = some k ∧ k.request.requestId = "r1" ∧
      k.phase = .returned ⟨.allow, "r1", "telegram:7", ""⟩ := by
    simpa [Option.any_eq_true] using hs
  exact ⟨s, k, hrun, hk, hp, hrid ▸ (allow_of_approved hrun hk hp).2 rfl⟩

end Approval

end OtamanBridge
