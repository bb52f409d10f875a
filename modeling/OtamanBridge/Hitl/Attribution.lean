import OtamanBridge.Approval.Anonymous
import OtamanBridge.Approval.NoAllow
import OtamanBridge.Hitl.Telegram

/-!
# Who approved a human decision

`confirm_via_telegram` reports an approver, and takes the name from the enrollment
file: the person it was called for, or the only one enrolled. The answer of the daemon
carries the account that tapped, in `responder`, and the module does not read it. So
the name is right only where nobody else could have tapped. This module says so exactly
(`OtamanBridge.Hitl.SoleApprover`), for the two halves of the property at once: the
reported human is the one whose account tapped, and two runs with different tappers
never report the same human.
-/

namespace OtamanBridge

namespace Hitl

open Py Approval

/-! ### What is reported -/

/-- The decision the daemon answers call `c` with, once it has returned. -/
def answerOf (s : State) (c : CallId) : Option String :=
  (s.calls c).bind fun k =>
    match k.phase with
    | .returned r => some r.decision.toString
    | _ => none

/-- A confirmation that waits for call `c`, over a connection that may be lost. -/
structure Confirmation where
  surroundings : Surroundings
  email : Option Text
  call : CallId
  lost : Bool := false

/-- What reaches the confirmation of the answer. -/
def Confirmation.answer (w : Confirmation) (s : State) : Option String :=
  if w.lost then none else answerOf s w.call

/-- What the confirmation reports. -/
def Confirmation.result (w : Confirmation) (s : State) : TelegramConfirmResult :=
  confirmViaTelegram w.surroundings w.email (w.answer s)

/-! ### What is true -/

/-- The Telegram account enrolled for a human: what the secret backend holds under the
`address_ref` of the binding. -/
def accountOf (backend : Text → Option ℤ) (w : Surroundings) (human : Text) : Option ℤ :=
  (loadEnrollment w.hitl).findSome? fun
    | (.str email, entry) =>
      if email = human ∧ hasTelegramBinding entry then
        match (entry.get "messenger").bind fun m => m.get "address_ref" with
        | some (.str ref) => backend ref
        | _ => none
      else none
    | _ => none

/-- The approve that resolved call `c` is a tap of user `u`. -/
def TappedBy (cfg : Config) (ls : List Label) (s : State) (c : CallId) (u : ℤ) : Prop :=
  ∃ k pre i post a r reply data, s.calls c = some k ∧ k.phase = .returned r.response ∧
    ls = pre ++ Label.look i :: post ∧ Delivery cfg pre a i r c ∧
    r.requestId = k.request.requestId ∧ r.origin = .listener reply ∧
    u ∈ cfg.allowedUserIds ∧ Label.callback u data ∈ pre ∧
    decodeCallback data = some (.approve, r.requestId) ∧
    r.response.responder = s!"telegram:{u}"

variable {cfg : Config} {backend : Text → Option ℤ} {w : Confirmation} {ls : List Label}
  {s t : State}

/-- **The reported approver is the one who approved**: an approval is reported for a
human only if the approve came from the account enrolled for that human, and a run that
differs only in which allowed user tapped approve, so that the one who approved here did
not approve there, does not report the same human. -/
structure Attributed (cfg : Config) (backend : Text → Option ℤ) (w : Confirmation)
    (ls : List Label) (s : State) : Prop where
  own : ∀ h, w.result s = ⟨true, some h⟩ →
    ∃ u, accountOf backend w.surroundings h = some u ∧ TappedBy cfg ls s w.call u
  distinct : ∀ ms t u, List.Forall₂ (SameButApprover cfg) ls ms → Reaches cfg ms t →
    TappedBy cfg ls s w.call u → ¬TappedBy cfg ms t w.call u →
    ∀ h, ¬(w.result s = ⟨true, some h⟩ ∧ w.result t = ⟨true, some h⟩)

/-- If the answer says allow and there is somebody to name, a tap resolved the call, and
only the account enrolled for the human to name may tap. -/
def SoleApprover (cfg : Config) (backend : Text → Option ℤ) (w : Confirmation)
    (ls : List Label) (s : State) : Prop :=
  ∀ h text, isEnrolled w.surroundings w.email → w.surroundings.daemon →
    who w.surroundings w.email = some h → w.answer s = some text → decisionOf text = lit "allow" →
    (∃ x, TappedBy cfg ls s w.call x) ∧
      ∃ u, accountOf backend w.surroundings h = some u ∧ ∀ v ∈ cfg.allowedUserIds, v = u

theorem TappedBy.allowed {cfg : Config} {ls : List Label} {s : State} {c : CallId} {u : ℤ}
    (h : TappedBy cfg ls s c u) : u ∈ cfg.allowedUserIds := by
  obtain ⟨_, _, _, _, _, _, _, _, -, -, -, -, -, -, hu, -⟩ := h
  exact hu

/-- In a run without a `POST /reply`, whoever gets an allow gets it by a tap. -/
theorem exists_tappedBy (h : Reaches cfg ls s) (hn : ∀ i ctx r, Label.postReply i ctx r ∉ ls)
    {c : CallId} {k : Call} {response : ApprovalResponse} (hk : s.calls c = some k)
    (hp : k.phase = .returned response) (hd : response.decision = .allow) :
    ∃ u, TappedBy cfg ls s c u := by
  obtain ⟨pre, i, post, a, r, rfl, hdel, hrid, rfl⟩ :=
    (h.traced.answer hk (.inr hp)).delivered_of_allow hd
  cases hdel.heard with
  | @tap uid data action reply ho hu hm hdec ha hr =>
    rw [hd] at ha
    obtain rfl := actionToDecision_allow ha
    exact ⟨uid, k, pre, i, post, a, r, reply, data, hk, hp, rfl, hdel, hrid, ho, hu, hm, hdec, hr⟩
  | reply _ hm _ => exact absurd (List.mem_append_left _ hm) (hn _ _ _)

/-! ### Another user in the place of the one who tapped -/

/-- User `v` taps approve where user `u` did. -/
def retap (u v : ℤ) : Label → Label
  | .callback x data =>
    if x = u ∧ (decodeCallback data).map Prod.fst = some .approve then .callback v data
    else .callback x data
  | l => l

theorem sameButApprover_retap {u v : ℤ} (hu : u ∈ cfg.allowedUserIds)
    (hv : v ∈ cfg.allowedUserIds) (l : Label) : SameButApprover cfg l (retap u v l) := by
  cases l with
  | callback x data =>
    simp only [retap]
    split_ifs with h
    · obtain ⟨rfl, hd⟩ := h
      obtain ⟨⟨action, requestId⟩, hdec, rfl⟩ := Option.map_eq_some_iff.mp hd
      exact .approve hu hv hdec
    · exact .same _
  | _ => exact .same _

/-- After that, `u` taps approve nowhere. -/
theorem not_tappedBy_retap {u v : ℤ} {c : CallId} (huv : v ≠ u) :
    ¬TappedBy cfg (ls.map (retap u v)) t c u := by
  rintro ⟨k, pre, i, post, a, r, reply, data, -, -, hls, -, -, -, -, hm, hd, -⟩
  have hmem : Label.callback u data ∈ ls.map (retap u v) := by
    rw [hls]
    exact List.mem_append_left _ hm
  obtain ⟨l, -, hl⟩ := List.mem_map.mp hmem
  cases l with
  | callback x data' =>
    simp only [retap] at hl
    split_ifs at hl with h
    · exact huv (Label.callback.inj hl).1
    · obtain ⟨rfl, rfl⟩ := Label.callback.inj hl
      simp [hd] at h
  | _ => simp [retap] at hl

/-- Labels that differ in the approver are the same where there is only one. -/
theorem eq_of_sameButApprover {u : ℤ} (hsole : ∀ v ∈ cfg.allowedUserIds, v = u)
    {l m : Label} (h : SameButApprover cfg l m) : l = m := by
  cases h with
  | same => rfl
  | approve hu hv => rw [hsole _ hu, hsole _ hv]

/-- What is reported does not depend on the names of the responders. -/
theorem Confirmation.result_alike (h : Alike s t) : w.result s = w.result t := by
  have hanswer : answerOf s w.call = answerOf t w.call := by
    have hc := h.calls w.call
    unfold answerOf
    cases hs : s.calls w.call <;> cases ht : t.calls w.call <;> simp [hs, ht] at hc ⊢
    next k k' =>
      have hphase := congrArg Call.phase hc
      simp only [Call.anon] at hphase
      cases hp : k.phase <;> cases hp' : k'.phase <;> simp_all [Phase.anon]
      next r r' =>
        have := congrArg ApprovalResponse.decision hphase
        simpa [ApprovalResponse.anon] using congrArg Decision.toString this
  simp only [result, answer, hanswer]

/-- **When the reported approver is the one who approved.** In every run of a daemon,
whatever the allowed users, the enrollment file and the accounts in the secret backend:
exactly when a confirmation that would name somebody names the holder of the account
that tapped, and no other user is allowed to tap. -/
theorem attributed_iff (hrun : Reaches cfg ls s) :
    Attributed cfg backend w ls s ↔ SoleApprover cfg backend w ls s := by
  constructor
  · rintro ⟨hown, hdistinct⟩ h text hen hdaemon hwho hans hallow
    have hres : w.result s = ⟨true, some h⟩ :=
      confirmViaTelegram_eq_approved_iff.mpr ⟨hen, hdaemon, hwho, text, hans, hallow⟩
    obtain ⟨u, hacc, htap⟩ := hown h hres
    refine ⟨⟨u, htap⟩, u, hacc, fun v hv => ?_⟩
    by_contra hvu
    -- let `v` tap in the place of `u`: the run goes the same way and names the same human
    have hf : List.Forall₂ (SameButApprover cfg) ls (ls.map (retap u v)) := by
      rw [List.forall₂_map_right_iff, List.forall₂_same]
      intro l _
      exact sameButApprover_retap htap.allowed hv l
    obtain ⟨t, ht, halike⟩ := hrun.follow hf
    refine hdistinct _ t u hf ht htap (not_tappedBy_retap hvu) h ⟨hres, ?_⟩
    rw [← Confirmation.result_alike halike, hres]
  · intro hsole
    have names : ∀ h, w.result s = ⟨true, some h⟩ → ∃ u,
        accountOf backend w.surroundings h = some u ∧ TappedBy cfg ls s w.call u ∧
          ∀ v ∈ cfg.allowedUserIds, v = u := by
      intro h hres
      obtain ⟨hen, hdaemon, hwho, text, hans, hallow⟩ :=
        confirmViaTelegram_eq_approved_iff.mp hres
      obtain ⟨⟨x, htap⟩, u, hacc, honly⟩ := hsole h text hen hdaemon hwho hans hallow
      obtain rfl : x = u := honly x htap.allowed
      exact ⟨x, hacc, htap, honly⟩
    constructor
    · intro h hres
      obtain ⟨u, hacc, htap, -⟩ := names h hres
      exact ⟨u, hacc, htap⟩
    · rintro ms t v hf ht htap hntap h ⟨hres, -⟩
      obtain ⟨u, -, -, honly⟩ := names h hres
      -- with one allowed user the two runs are one
      obtain rfl : ls = ms := by
        rw [← List.forall₂_eq_eq_eq]
        exact hf.imp fun l m hlm => eq_of_sameButApprover honly hlm
      obtain rfl := hrun.functional ht
      exact hntap htap

/-! ### One enrolled human, one and two allowed users -/

/-- Alice is the only one enrolled. Her confirmation is called with no e-mail and waits
for call 0. -/
def aliceWaits : Confirmation where
  surroundings :=
    { extra := true
      hitl := some (.dict [(.str (lit "enrollment"), .dict [(.str (lit "alice"),
        .dict [(.str (lit "messenger"), .dict [(.str (lit "adapter"), .str (lit "telegram")),
          (.str (lit "address_ref"), .str (lit "ref"))])])])])
      daemon := true }
  email := none
  call := 0

/-- User `u` approves the card of call 0. -/
def approvedBy (u : ℤ) : List Label :=
  [.postApproval 0 (some ⟨[], none, []⟩) 0 ⟨"r1", 540⟩, .move 0 .build, .register 0,
    .sendPosts 0 0, .move 0 .sendReturned, .move 0 .block, .callback u "A|r1", .listen 0,
    .look 0, .write 0, .set 0, .move 0 .wake, .leave 0]

/-- Where Alice's account is the only allowed user, her name is right. -/
theorem attributed_iff_alice : ∃ s, Reaches ⟨[7]⟩ (approvedBy 7) s ∧
    aliceWaits.result s = ⟨true, some (lit "alice")⟩ ∧
    Attributed ⟨[7]⟩ (fun _ => some 7) aliceWaits (approvedBy 7) s := by
  obtain ⟨s, hrun, hs⟩ := Lts.exists_run_of_exec (step ⟨[7]⟩) State.init (approvedBy 7)
    (fun s => ((s.calls 0).any fun k =>
      k.phase = .returned ⟨.allow, "r1", "telegram:7", ""⟩) ∧
      aliceWaits.result s = ⟨true, some (lit "alice")⟩) (by decide +kernel)
  obtain ⟨⟨k, hk, hp⟩, hres⟩ : (∃ k, s.calls 0 = some k ∧
      k.phase = .returned ⟨.allow, "r1", "telegram:7", ""⟩) ∧
      aliceWaits.result s = ⟨true, some (lit "alice")⟩ := by
    simpa [Option.any_eq_true] using hs
  refine ⟨s, hrun, hres, (attributed_iff hrun).mpr ?_⟩
  intro h text _ _ hwho _ _
  obtain rfl : h = lit "alice" := by
    have : who aliceWaits.surroundings aliceWaits.email = some (lit "alice") := by decide +kernel
    simpa [this] using hwho.symm
  refine ⟨exists_tappedBy hrun (by simp [approvedBy]) hk hp rfl, 7, by decide +kernel, by simp⟩

/-- User 8 is allowed and enrolled for nobody. The approval user 8 taps is reported as
Alice's. -/
theorem not_attributed_otherUser : ∃ s, Reaches ⟨[7, 8]⟩ (approvedBy 8) s ∧
    aliceWaits.result s = ⟨true, some (lit "alice")⟩ ∧
    ¬Attributed ⟨[7, 8]⟩ (fun _ => some 7) aliceWaits (approvedBy 8) s := by
  obtain ⟨s, hrun, hs⟩ := Lts.exists_run_of_exec (step ⟨[7, 8]⟩) State.init (approvedBy 8)
    (fun s => aliceWaits.result s = ⟨true, some (lit "alice")⟩) (by decide +kernel)
  have hres : aliceWaits.result s = ⟨true, some (lit "alice")⟩ := by simpa using hs
  refine ⟨s, hrun, hres, fun hattr => ?_⟩
  obtain ⟨u, hacc, _, pre, i, post, _, _, _, data, -, -, hls, -, -, -, -, hm, hd, -⟩ :=
    hattr.own _ hres
  obtain rfl : (7 : ℤ) = u := by
    have : accountOf (fun _ => some 7) aliceWaits.surroundings (lit "alice") = some 7 := by
      decide +kernel
    simpa [this] using hacc
  -- the only tap of the run is user 8's
  have hmem : Label.callback 7 data ∈ approvedBy 8 := hls ▸ List.mem_append_left _ hm
  simp [approvedBy] at hmem

end Hitl

end OtamanBridge
