import OtamanBridge.Login.Flow

/-!
# A login yields one session, and its own

In every run of the web login, with any calls from any number of browsers and whatever the
identity provider answers, a state yields at most one session; and a session is created only
by a call that took a state which `start` had issued and which had not expired, that sent
the verifier of this state to the token endpoint, and that got back an ID token which the
validator accepted, for the user the session is of (`OtamanBridge.Login.bound_of_run`).

Every event of the log is justified by earlier ones (`OtamanBridge.Login.Event.Grounded`),
and no call does a thing twice. The random values are taken to be fresh; the identity
provider is not trusted for any of this.
-/

namespace OtamanBridge

namespace Login

open Py

open Http (Ascii Session Sessions)

variable {C : Type}

/-! ### What the log says -/

namespace Event

/-- The call the event is of. -/
def call : Event C → C
  | drew c .. | issued c .. | taken c .. | sent c _ | answered c _ | validated c .. |
    created c .. => c

/-- How far in its call the event is. -/
def rank : Event C → ℕ
  | drew .. => 0
  | issued .. => 1
  | taken .. => 2
  | sent .. => 3
  | answered .. => 4
  | validated .. => 5
  | created .. => 6

/-- The call, and what it did. -/
def key (e : Event C) : C × ℕ := (e.call, e.rank)

/-- The state that is drawn. -/
def draws : Event C → Option Text
  | drew _ state _ => some state
  | _ => none

/-- The state that is taken. -/
def takes : Event C → Option Text
  | taken _ state _ _ => some state
  | _ => none

/-- The state that a session is created for. -/
def opens : Event C → Option Text
  | created _ state _ _ => some state
  | _ => none

end Event

/-- The states that were drawn, the last one first. -/
def drawn (log : List (Event C)) : List Text := log.filterMap Event.draws

/-- The states that sessions were created for, the last one first. -/
def opened (log : List (Event C)) : List Text := log.filterMap Event.opens

/-- The states that are drawn are fresh. -/
def Fresh (s : State C) : Label C → Prop
  | .start _ state _ => state ∉ drawn s.log
  | _ => True

instance (s : State C) : (l : Label C) → Decidable (Fresh s l)
  | .start _ state _ => inferInstanceAs (Decidable (state ∉ drawn s.log))
  | .tick _ | .put _ | .complete _ _ _ | .take _ | .send _ | .reply _ _ | .validate _ _
  | .create _ _ | .insert _ | .purge _ _ | .sweep _ | .get _ | .delete _ => .isTrue trivial

/-- What a session rests on: the state was issued by `start` with this verifier, and taken
before it expired; the verifier was sent to the token endpoint; and the validator accepted
the ID token of the answer, for the user of the session. -/
def Earned (site : Site) (log : List (Event C)) (c : C) (state : Text) (session : Session) :
    Prop :=
  ∃ c₀ codeVerifier issuedAt takenAt request response result,
    .issued c₀ state codeVerifier issuedAt ∈ log ∧
    .taken c state codeVerifier takenAt ∈ log ∧ takenAt < issuedAt + site.pendingTtl ∧
    .sent c request ∈ log ∧ request.codeVerifier = codeVerifier ∧
    .answered c response ∈ log ∧ response.idToken.truthy ∧
    .validated c (site.bearerHeader response.idToken) result ∈ log ∧ result.ok ∧
    result.userId = some session.userId ∧ session.userId ≠ []

/-- **A login is single-use, and bound to its state.** -/
structure Bound (site : Site) (s : State C) : Prop where
  /-- A state yields one session. -/
  once : (opened s.log).Nodup
  /-- A call does each thing at most once. -/
  single : (s.log.map Event.key).Nodup
  /-- A state is issued at most once, so it has one verifier. -/
  own : ∀ c c' state verifier verifier' time time', .issued c state verifier time ∈ s.log →
    .issued c' state verifier' time' ∈ s.log → c = c' ∧ verifier = verifier' ∧ time = time'
  /-- A session is created for what came before. -/
  earned : ∀ later c state sid session earlier,
    s.log = later ++ .created c state sid session :: earlier →
      Earned site earlier c state session
  /-- What `complete` returns was created by the call. -/
  returned : ∀ c sid session, s.calls c = some (.returned (.completed sid session)) →
    ∃ state, .created c state sid session ∈ s.log
  /-- What the store holds was created. -/
  stored : ∀ sid session, s.sessions.lookup sid = some session →
    ∃ c state, .created c state sid session ∈ s.log

/-! ### Every event has its grounds -/

/-- **The grounds of an event**, in what was logged before it. -/
def Event.Grounded (site : Site) (earlier : List (Event C)) : Event C → Prop
  | .drew _ state _ => ∀ e ∈ earlier, e.draws ≠ some state
  | .issued c state verifier _ => .drew c state verifier ∈ earlier
  | .taken _ state verifier time =>
    (∃ c₀ issuedAt, .issued c₀ state verifier issuedAt ∈ earlier ∧
      time < issuedAt + site.pendingTtl) ∧ ∀ e ∈ earlier, e.takes ≠ some state
  | .sent c request => ∃ state time, .taken c state request.codeVerifier time ∈ earlier
  | .answered c _ => ∃ request, .sent c request ∈ earlier
  | .validated c header _ => ∃ response, .answered c response ∈ earlier ∧
    response.idToken.truthy ∧ header = site.bearerHeader response.idToken
  | .created c state _ session => (∃ verifier time, .taken c state verifier time ∈ earlier) ∧
    ∃ header result, .validated c header result ∈ earlier ∧ result.ok ∧
      result.userId = some session.userId ∧ session.userId ≠ []

/-- Two events that may both be in a log: they are not the same thing of one call, and they
neither draw nor take the same state. -/
structure Apart (e e' : Event C) : Prop where
  key : e.key ≠ e'.key
  draws : ∀ state, e.draws = some state → e'.draws ≠ some state
  takes : ∀ state, e.takes = some state → e'.takes ≠ some state

instance : Std.Symm (Apart (C := C)) where
  symm _ _ h := ⟨h.key.symm, fun state h' hcon => h.draws state hcon h', fun state h' hcon =>
    h.takes state hcon h'⟩

/-- A log whose events all have their grounds. -/
structure Sound (site : Site) (log : List (Event C)) : Prop where
  grounded : ∀ e earlier, e :: earlier <:+ log → e.Grounded site earlier
  apart : log.Pairwise Apart

namespace Sound

variable {site : Site} {log : List (Event C)} {e e' : Event C}

theorem nil : Sound site ([] : List (Event C)) :=
  ⟨fun _ _ h => absurd (List.suffix_nil.mp h) (by simp), .nil⟩

theorem cons (h : Sound site log) (hgrounded : e.Grounded site log)
    (hapart : ∀ x ∈ log, Apart e x) : Sound site (e :: log) := by
  refine ⟨fun x earlier hx => ?_, List.pairwise_cons.mpr ⟨hapart, h.apart⟩⟩
  rcases List.suffix_cons_iff.mp hx with heq | hx
  · obtain ⟨rfl, rfl⟩ := List.cons.inj heq
    exact hgrounded
  · exact h.grounded x earlier hx

theorem suffix (h : Sound site log) {log' : List (Event C)} (hsuffix : log' <:+ log) :
    Sound site log' :=
  ⟨fun e earlier he => h.grounded e earlier (he.trans hsuffix), h.apart.sublist hsuffix.sublist⟩

/-- Two events of a log that clash are one. -/
theorem eq_of_not_apart (h : Sound site log) (he : e ∈ log) (he' : e' ∈ log)
    (hnot : ¬Apart e e') : e = e' := by
  by_contra hne
  exact hnot (h.apart.forall he he' hne)

theorem eq_of_key (h : Sound site log) (he : e ∈ log) (he' : e' ∈ log) (hkey : e.key = e'.key) :
    e = e' :=
  h.eq_of_not_apart he he' fun hapart => hapart.key hkey

/-- The grounds of an event are in the log. -/
theorem exists_grounded (h : Sound site log) (he : e ∈ log) :
    ∃ earlier, e.Grounded site earlier ∧ ∀ x ∈ earlier, x ∈ log := by
  obtain ⟨later, earlier, rfl⟩ := List.append_of_mem he
  exact ⟨earlier, h.grounded e earlier (List.suffix_append ..), fun x hx =>
    List.mem_append_right _ (List.mem_cons_of_mem _ hx)⟩

theorem drew_of_issued (h : Sound site log) {c : C} {state verifier : Text} {time : Seconds}
    (he : .issued c state verifier time ∈ log) : .drew c state verifier ∈ log := by
  obtain ⟨earlier, hdrew, hsub⟩ := h.exists_grounded he
  exact hsub _ hdrew

theorem issued_of_taken (h : Sound site log) {c : C} {state verifier : Text} {time : Seconds}
    (he : .taken c state verifier time ∈ log) : ∃ c₀ issuedAt,
      .issued c₀ state verifier issuedAt ∈ log ∧ time < issuedAt + site.pendingTtl := by
  obtain ⟨earlier, ⟨⟨c₀, issuedAt, hissued, htime⟩, -⟩, hsub⟩ := h.exists_grounded he
  exact ⟨c₀, issuedAt, hsub _ hissued, htime⟩

/-- A state is drawn by one call. -/
theorem drew_inj (h : Sound site log) {c c' : C} {state verifier verifier' : Text}
    (he : .drew c state verifier ∈ log) (he' : .drew c' state verifier' ∈ log) :
    c = c' ∧ verifier = verifier' := by
  have heq := h.eq_of_not_apart he he' fun hapart => hapart.draws state rfl rfl
  injection heq with hc _ hv
  exact ⟨hc, hv⟩

/-- A state is taken by one call. -/
theorem taken_inj (h : Sound site log) {c c' : C} {state verifier verifier' : Text}
    {time time' : Seconds} (he : .taken c state verifier time ∈ log)
    (he' : .taken c' state verifier' time' ∈ log) : c = c' := by
  have heq := h.eq_of_not_apart he he' fun hapart => hapart.takes state rfl rfl
  injection heq

/-- A call takes one state. -/
theorem taken_of_call (h : Sound site log) {c : C} {state state' verifier verifier' : Text}
    {time time' : Seconds} (he : .taken c state verifier time ∈ log)
    (he' : .taken c state' verifier' time' ∈ log) : state = state' ∧ verifier = verifier' := by
  have heq := h.eq_of_key he he' rfl
  injection heq with _ hs hv
  exact ⟨hs, hv⟩

/-- **A session is earned**: its grounds, followed back to `start`. -/
theorem earned {c : C} {state sid : Text} {session : Session}
    (h : Sound site (.created c state sid session :: log)) :
    Earned site log c state session := by
  have hlog := h.suffix (List.suffix_cons _ log)
  obtain ⟨⟨verifier, time, htaken⟩, header, result, hvalidated, hok, huser, hne⟩ :=
    h.grounded _ _ List.suffix_rfl
  obtain ⟨_, ⟨response, hanswered, htruthy, rfl⟩, hsub⟩ := hlog.exists_grounded hvalidated
  obtain ⟨_, ⟨request, hsent⟩, hsub'⟩ := hlog.exists_grounded (hsub _ hanswered)
  obtain ⟨_, ⟨state', time', htaken'⟩, hsub''⟩ := hlog.exists_grounded (hsub' _ hsent)
  -- the call has taken one state only
  obtain ⟨rfl, hverifier⟩ := hlog.taken_of_call htaken (hsub'' _ htaken')
  obtain ⟨c₀, issuedAt, hissued, hlive⟩ := hlog.issued_of_taken htaken
  exact ⟨c₀, verifier, issuedAt, time, request, response, result, hissued, htaken, hlive,
    hsub' _ hsent, hverifier.symm, hsub _ hanswered, htruthy, hvalidated, hok, huser, hne⟩

/-- **A state yields one session.** -/
theorem nodup_opened (h : Sound site log) : (opened log).Nodup := by
  refine List.pairwise_filterMap.mpr (h.apart.imp_of_mem ?_)
  rintro e e' he he' hapart state hstate _ hstate' rfl
  -- the two calls have taken the state, so they are one call
  have htaken : ∀ x ∈ log, x.opens = some state →
      x.rank = 6 ∧ ∃ verifier time, .taken x.call state verifier time ∈ log := by
    intro x hx hopens
    cases x with
    | created c st sid session =>
      obtain rfl := Option.some.inj hopens
      obtain ⟨_, ⟨⟨verifier, time, ht⟩, -⟩, hsub⟩ := h.exists_grounded hx
      exact ⟨rfl, verifier, time, hsub _ ht⟩
    | _ => exact absurd hopens (by simp [Event.opens])
  obtain ⟨hrank, _, _, ht⟩ := htaken e he hstate
  obtain ⟨hrank', _, _, ht'⟩ := htaken e' he' hstate'
  exact hapart.key (Prod.ext (h.taken_inj ht ht') (hrank.trans hrank'.symm))

theorem nodup_keys (h : Sound site log) : (log.map Event.key).Nodup :=
  List.pairwise_map.mpr (h.apart.imp Apart.key)

end Sound

/-! ### What a call knows -/

namespace Phase

/-- How far the call is: what it has done is below. -/
def rank : Phase → ℕ
  | drawn .. => 1
  | entered .. => 2
  | exchanging .. => 3
  | waiting _ => 4
  | validating .. => 5
  | creating .. | inserting .. => 6
  | purging .. => 0
  | returned _ => 7

/-- The state was taken by the call, and the validator has accepted an ID token of this
user. -/
def Accepted (log : List (Event C)) (c : C) (state userId : Text) : Prop :=
  (∃ verifier time, .taken c state verifier time ∈ log) ∧
    ∃ header result, .validated c header result ∈ log ∧ result.ok ∧
      result.userId = some userId ∧ userId ≠ []

/-- **The grounds of what a call holds.** -/
def Grounded (log : List (Event C)) (c : C) : Phase → Prop
  | drawn state verifier => .drew c state verifier ∈ log
  | exchanging _ state verifier => ∃ time, .taken c state verifier time ∈ log
  | waiting state => (∃ verifier time, .taken c state verifier time ∈ log) ∧
    ∃ request, .sent c request ∈ log
  | validating state idToken => (∃ verifier time, .taken c state verifier time ∈ log) ∧
    ∃ response, .answered c response ∈ log ∧ response.idToken = idToken ∧ idToken.truthy
  | creating state userId _ _ => Accepted log c state userId
  | inserting state _ session => Accepted log c state session.userId
  | returned (.completed sid session) => ∃ state, .created c state sid session ∈ log
  | entered .. | purging .. | returned _ => True

variable {log log' : List (Event C)} {c : C}

theorem Accepted.mono {state userId : Text} (h : Accepted log c state userId)
    (hsub : ∀ e ∈ log, e ∈ log') : Accepted log' c state userId := by
  obtain ⟨⟨verifier, time, ht⟩, header, result, hv, hrest⟩ := h
  exact ⟨⟨verifier, time, hsub _ ht⟩, header, result, hsub _ hv, hrest⟩

theorem Grounded.mono {phase : Phase} (h : phase.Grounded log c)
    (hsub : ∀ e ∈ log, e ∈ log') : phase.Grounded log' c := by
  cases phase with
  | drawn => exact hsub _ h
  | exchanging =>
    obtain ⟨time, ht⟩ := h
    exact ⟨time, hsub _ ht⟩
  | waiting =>
    obtain ⟨⟨verifier, time, ht⟩, request, hsent⟩ := h
    exact ⟨⟨verifier, time, hsub _ ht⟩, request, hsub _ hsent⟩
  | validating =>
    obtain ⟨⟨verifier, time, ht⟩, response, ha, hrest⟩ := h
    exact ⟨⟨verifier, time, hsub _ ht⟩, response, hsub _ ha, hrest⟩
  | creating => exact Accepted.mono h hsub
  | inserting => exact Accepted.mono h hsub
  | returned outcome =>
    cases outcome with
    | completed sid session =>
      obtain ⟨state, hcreated⟩ := h
      exact ⟨state, hsub _ hcreated⟩
    | _ => trivial
  | entered => trivial
  | purging => trivial

end Phase

theorem grounded_afterDraw {log : List (Event C)} {c : C} {state verifier : Text}
    (h : .drew c state verifier ∈ log) : (afterDraw state verifier).Grounded log c := by
  unfold afterDraw
  split_ifs
  · exact h
  · trivial

theorem grounded_afterEntry {log : List (Event C)} {c : C} (code state : Text) :
    (afterEntry code state).Grounded log c := by
  unfold afterEntry
  split_ifs <;> trivial

theorem grounded_afterAnswer {log : List (Event C)} {c : C} {state : Text}
    {response : TokenResponse} (htaken : ∃ verifier time, .taken c state verifier time ∈ log)
    (h : .answered c response ∈ log) : (afterAnswer state response).Grounded log c := by
  unfold afterAnswer
  split_ifs with htruthy
  · exact ⟨htaken, response, h, rfl, htruthy⟩
  · trivial

theorem grounded_afterValidation {log : List (Event C)} {c : C} {state header : Text}
    {result : ValidationResult} (htaken : ∃ verifier time, .taken c state verifier time ∈ log)
    (h : .validated c header result ∈ log) : (afterValidation state result).Grounded log c := by
  unfold afterValidation
  split_ifs with hok
  · trivial
  · split
    · trivial
    · trivial
    next userId hne huser =>
      exact ⟨htaken, header, result, h, by simpa using hok, huser, hne⟩

theorem rank_afterDraw (state verifier : Text) : 0 < (afterDraw state verifier).rank := by
  unfold afterDraw
  split_ifs <;> simp [Phase.rank]

theorem rank_afterAnswer (state : Text) (response : TokenResponse) :
    4 < (afterAnswer state response).rank := by
  unfold afterAnswer
  split_ifs <;> simp [Phase.rank]

theorem rank_afterValidation (state : Text) (result : ValidationResult) :
    5 < (afterValidation state result).rank := by
  unfold afterValidation
  split_ifs
  · simp [Phase.rank]
  · split <;> simp [Phase.rank]

/-! ### The invariant -/

/-- An entry of the store was issued, and nobody has taken it. -/
def Waits (site : Site) (log : List (Event C)) (state : Text) (entry : Pending) : Prop :=
  (∃ c time, .issued c state entry.codeVerifier time ∈ log ∧
    entry.expiresAt = time + site.pendingTtl) ∧ ∀ e ∈ log, e.takes ≠ some state

theorem Waits.cons {site : Site} {log : List (Event C)} {state : Text} {entry : Pending}
    {e : Event C} (h : Waits site log state entry) (he : e.takes ≠ some state) :
    Waits site (e :: log) state entry := by
  obtain ⟨⟨c, time, hissued, hexp⟩, hno⟩ := h
  exact ⟨⟨c, time, List.mem_cons_of_mem _ hissued, hexp⟩, List.forall_mem_cons.mpr ⟨he, hno⟩⟩

/-- What is known in every state of a run. -/
structure Traced (site : Site) (s : State C) : Prop where
  log : Sound site s.log
  ranks : ∀ e ∈ s.log, ∃ phase, s.calls e.call = some phase ∧ e.rank < phase.rank
  calls : ∀ c phase, s.calls c = some phase → phase.Grounded s.log c
  pending : ∀ state entry, s.pending.lookup state = some entry → Waits site s.log state entry
  sessions : ∀ sid session, s.sessions.lookup sid = some session →
    ∃ c state, .created c state sid session ∈ s.log

theorem traced_init (site : Site) (now : Seconds) : Traced site (State.init now : State C) :=
  ⟨.nil, fun _ h => absurd h List.not_mem_nil, fun _ _ h => absurd h (by simp [State.init]),
    fun _ _ h => absurd h (by simp [State.init]), fun _ _ h => absurd h (by simp [State.init])⟩

section Steps

variable [DecidableEq C] {site : Site} {s s' : State C} {c : C} {phase : Phase}

/-- A step that logs nothing. -/
theorem Traced.of_move (h : Traced site s)
    (hcalls : s'.calls = Function.update s.calls c (some phase)) (hlog : s'.log = s.log)
    (hrank : ∀ old, s.calls c = some old → old.rank ≤ phase.rank)
    (hphase : phase.Grounded s.log c)
    (hpending : ∀ k entry, s'.pending.lookup k = some entry → s.pending.lookup k = some entry)
    (hsessions : ∀ k session, s'.sessions.lookup k = some session →
      s.sessions.lookup k = some session) : Traced site s' := by
  refine ⟨hlog ▸ h.log, fun e he => ?_, ?_, fun k entry hk => ?_, fun k session hk => ?_⟩
  · rw [hlog] at he
    obtain ⟨old, hold, hlt⟩ := h.ranks e he
    rw [hcalls]
    rcases eq_or_ne e.call c with heq | hne
    · rw [heq] at hold ⊢
      exact ⟨phase, Function.update_self .., hlt.trans_le (hrank old hold)⟩
    · exact ⟨old, by rwa [Function.update_of_ne hne], hlt⟩
  · rw [hcalls, hlog]
    refine Lts.forall_update (P := fun c phase => phase.Grounded s.log c) ?_
      fun q proc _ hq => h.calls q proc hq
    rintro _ ⟨⟩
    exact hphase
  · rw [hlog]
    exact h.pending k entry (hpending k entry hk)
  · rw [hlog]
    exact h.sessions k session (hsessions k session hk)

omit [DecidableEq C] in
/-- An event with its grounds is apart from what its call and the others have done. -/
theorem Traced.apart (h : Traced site s) {e : Event C} (hgrounded : e.Grounded site s.log)
    (hbefore : ∀ old, s.calls e.call = some old → old.rank ≤ e.rank) :
    ∀ x ∈ s.log, Apart e x := by
  -- the ranks tell the events of a call apart, the grounds the states
  refine fun x hx => ⟨fun hkey => ?_, fun state he hcon => ?_, fun state he hcon => ?_⟩
  · obtain ⟨hcall, hrank⟩ := Prod.mk.inj hkey
    obtain ⟨old, hold, hlt⟩ := h.ranks x hx
    have hle := hbefore old (hcall ▸ hold)
    change e.rank = x.rank at hrank
    omega
  · cases e with
    | drew c state' verifier => exact hgrounded x hx (hcon.trans he.symm)
    | _ => exact absurd he (by simp [Event.draws])
  · cases e with
    | taken c state' verifier time => exact hgrounded.2 x hx (hcon.trans he.symm)
    | _ => exact absurd he (by simp [Event.takes])

/-- A step that logs an event. -/
theorem Traced.of_event (h : Traced site s) {e : Event C} (hcall : e.call = c)
    (hcalls : s'.calls = Function.update s.calls c (some phase)) (hlog : s'.log = e :: s.log)
    (hbefore : ∀ old, s.calls c = some old → old.rank ≤ e.rank) (hafter : e.rank < phase.rank)
    (hgrounded : e.Grounded site s.log) (hphase : phase.Grounded (e :: s.log) c)
    (hpending : ∀ k entry, s'.pending.lookup k = some entry → Waits site (e :: s.log) k entry)
    (hsessions : ∀ k session, s'.sessions.lookup k = some session →
      ∃ c state, .created c state k session ∈ e :: s.log) : Traced site s' := by
  subst hcall
  refine ⟨?_, fun x hx => ?_, ?_, ?_, ?_⟩
  · rw [hlog]
    exact h.log.cons hgrounded (h.apart hgrounded hbefore)
  · -- what the call has done is below where it stands now
    rw [hlog] at hx
    rw [hcalls]
    rcases eq_or_ne x.call e.call with heq | hne
    · refine ⟨phase, by rw [heq, Function.update_self], ?_⟩
      rcases List.mem_cons.mp hx with rfl | hx
      · exact hafter
      · obtain ⟨old, hold, hlt⟩ := h.ranks x hx
        exact hlt.trans_le ((hbefore old (heq ▸ hold)).trans hafter.le)
    · rcases List.mem_cons.mp hx with rfl | hx
      · exact absurd rfl hne
      · obtain ⟨old, hold, hlt⟩ := h.ranks x hx
        exact ⟨old, by rwa [Function.update_of_ne hne], hlt⟩
  · rw [hcalls, hlog]
    refine Lts.forall_update (P := fun c phase => phase.Grounded (e :: s.log) c) ?_
      fun q proc _ hq => (h.calls q proc hq).mono fun _ => List.mem_cons_of_mem _
    rintro _ ⟨⟩
    exact hphase
  · rw [hlog]
    exact hpending
  · rw [hlog]
    exact hsessions

omit [DecidableEq C] in
/-- A state that was just drawn has not been taken. -/
theorem Traced.not_taken (h : Traced site s) {state verifier : Text}
    (hat : s.calls c = some (.drawn state verifier)) : ∀ e ∈ s.log, e.takes ≠ some state := by
  intro e he htakes
  cases e with
  | taken c' state' verifier' time =>
    obtain rfl := Option.some.inj htakes
    obtain ⟨c₀, issuedAt, hissued, -⟩ := h.log.issued_of_taken he
    obtain ⟨rfl, -⟩ := h.log.drew_inj (h.log.drew_of_issued hissued) (h.calls _ _ hat)
    -- the call that drew the state has not issued it yet
    obtain ⟨phase, hphase, hlt⟩ := h.ranks _ hissued
    obtain rfl := Option.some.inj (hphase.symm.trans hat)
    exact absurd hlt (lt_irrefl _)
  | _ => exact absurd htakes (by simp [Event.takes])

theorem Traced.step (h : Traced site s) {l : Label C} (hfresh : Fresh s l)
    (hstep : Step site s l s') : Traced site s' := by
  -- what the stores keep of what they had
  have hp : ∀ {e : Event C}, (∀ state, e.takes ≠ some state) → ∀ k entry,
      s.pending.lookup k = some entry → Waits site (e :: s.log) k entry :=
    fun he k entry hk => (h.pending k entry hk).cons (he k)
  have hs : ∀ {e : Event C} k session, s.sessions.lookup k = some session →
      ∃ c state, .created c state k session ∈ e :: s.log := by
    intro e k session hk
    obtain ⟨c, state, hcreated⟩ := h.sessions k session hk
    exact ⟨c, state, List.mem_cons_of_mem _ hcreated⟩
  have hnone : ∀ {c : C} {n : ℕ}, s.calls c = none →
      ∀ old, s.calls c = some old → old.rank ≤ n :=
    fun hnew old hold => absurd (hnew.symm.trans hold) (by simp)
  have hsome : ∀ {c : C} {phase : Phase} {n : ℕ}, s.calls c = some phase → phase.rank ≤ n →
      ∀ old, s.calls c = some old → old.rank ≤ n := by
    intro c phase n hat hle old hold
    obtain rfl := Option.some.inj (hat.symm.trans hold)
    exact hle
  have hlast : ∀ {c : C} {phase : Phase} {outcome : Outcome}, s.calls c = some phase →
      ∀ old, s.calls c = some old → old.rank ≤ (Phase.returned outcome).rank :=
    fun _ old _ => by cases old <;> simp [Phase.rank]
  cases hstep with
  | tick d => exact ⟨h.log, h.ranks, h.calls, h.pending, h.sessions⟩
  | @start c state verifier hnew =>
    refine h.of_event rfl rfl rfl (hnone hnew) (rank_afterDraw state verifier) ?_
      (grounded_afterDraw List.mem_cons_self) (hp (by simp [Event.takes])) hs
    intro e he hdraws
    exact hfresh (List.mem_filterMap.mpr ⟨e, he, hdraws⟩)
  | @put c state verifier hat =>
    refine h.of_event rfl rfl rfl (hsome hat le_rfl) (by simp [Phase.rank, Event.rank])
      (h.calls _ _ hat) ?_ ?_ hs
    · unfold Site.started
      split <;> trivial
    · intro k entry hk
      rcases Dict.lookup_of_insert hk with ⟨rfl, rfl⟩ | ⟨-, hk⟩
      · exact ⟨⟨c, s.now, List.mem_cons_self, rfl⟩,
          List.forall_mem_cons.mpr ⟨by simp [Event.takes], h.not_taken hat⟩⟩
      · exact hp (by simp [Event.takes]) k entry hk
  | complete hnew =>
    exact h.of_move rfl rfl (hnone hnew) (grounded_afterEntry ..) (fun _ _ => id) fun _ _ => id
  | miss hat =>
    exact h.of_move rfl rfl (hlast hat) trivial (fun _ _ => lookup_of_take) fun _ _ => id
  | @take c code state entry hat hentry hlive =>
    obtain ⟨⟨c₀, issuedAt, hissued, hexp⟩, hno⟩ := h.pending state entry hentry
    refine h.of_event rfl rfl rfl (hsome hat le_rfl) (by simp [Phase.rank, Event.rank])
      ⟨⟨c₀, issuedAt, hissued, hexp ▸ hlive⟩, hno⟩ ⟨s.now, List.mem_cons_self⟩ ?_ hs
    intro k entry' hk
    -- what is left is of another state
    have hne : k ≠ state := by
      rintro rfl
      exact absurd ((AList.lookup_erase ..).symm.trans hk) (by simp)
    refine (h.pending k entry' (Dict.lookup_of_erase hk)).cons fun htakes => ?_
    exact hne (Option.some.inj htakes).symm
  | @send c code state verifier hat =>
    obtain ⟨time, htaken⟩ := h.calls _ _ hat
    refine h.of_event rfl rfl rfl (hsome hat le_rfl) (by simp [Phase.rank, Event.rank])
      ⟨state, time, htaken⟩ ?_ (hp (by simp [Event.takes])) hs
    exact ⟨⟨verifier, time, List.mem_cons_of_mem _ htaken⟩, _, List.mem_cons_self⟩
  | sendFails hat | replyFails hat | validateFails hat =>
    exact h.of_move rfl rfl (hlast hat) trivial (fun _ _ => id) fun _ _ => id
  | answer hat _ =>
    obtain ⟨⟨verifier, time, htaken⟩, hsent⟩ := h.calls _ _ hat
    exact h.of_event rfl rfl rfl (hsome hat le_rfl) (rank_afterAnswer ..) hsent
      (grounded_afterAnswer ⟨verifier, time, List.mem_cons_of_mem _ htaken⟩
        List.mem_cons_self) (hp (by simp [Event.takes])) hs
  | validate result hat =>
    obtain ⟨⟨verifier, time, htaken⟩, response, hanswered, rfl, htruthy⟩ := h.calls _ _ hat
    exact h.of_event rfl rfl rfl (hsome hat le_rfl) (rank_afterValidation ..)
      ⟨response, hanswered, htruthy, rfl⟩
      (grounded_afterValidation ⟨verifier, time, List.mem_cons_of_mem _ htaken⟩
        List.mem_cons_self) (hp (by simp [Event.takes])) hs
  | create sid hat =>
    have haccepted := h.calls _ _ hat
    exact h.of_move rfl rfl (hsome hat le_rfl) haccepted (fun _ _ => id) fun _ _ => id
  | @insert c state sid session hat =>
    refine h.of_event rfl rfl rfl (hsome hat le_rfl) (by simp [Phase.rank, Event.rank])
      (h.calls _ _ hat) ?_ (hp (by simp [Event.takes])) ?_
    · exact ⟨state, List.mem_cons_self⟩
    · intro k session' hk
      rcases Dict.lookup_of_insert hk with ⟨rfl, rfl⟩ | ⟨-, hk⟩
      · exact ⟨c, state, List.mem_cons_self⟩
      · exact hs k session' hk
  | purge store hnew =>
    exact h.of_move rfl rfl (hnone hnew) trivial (fun _ _ => id) fun _ _ => id
  | sweepPending hat =>
    exact h.of_move rfl rfl (hlast hat) trivial
      (fun _ _ hk => (Dict.lookup_keep_eq_some.mp hk).1) fun _ _ => id
  | sweepSessions hat =>
    exact h.of_move rfl rfl (hlast hat) trivial (fun _ _ => id)
      fun _ _ hk => (Dict.lookup_keep_eq_some.mp hk).1
  | get sid =>
    exact ⟨h.log, h.ranks, h.calls, h.pending, fun k session hk =>
      h.sessions k session (lookup_of_get hk)⟩
  | delete sid =>
    exact ⟨h.log, h.ranks, h.calls, h.pending, fun k session hk =>
      h.sessions k session (lookup_of_delete hk)⟩

/-- **A login is single-use, and bound to its state**: in every run with fresh random values,
whatever is called and whatever the identity provider answers. -/
theorem bound_of_run {now : Seconds} {ls : List (Label C)}
    (hrun : Lts.Run (Lts.Under Fresh (Lts.ofStep (step site))) (State.init now) ls s) :
    Bound site s := by
  have h : Traced site s := hrun.inv_state (I := Traced site) (traced_init site now)
    fun _ _ _ hI hl => hI.step hl.1 (.of_step hl.2)
  refine ⟨h.log.nodup_opened, h.log.nodup_keys, ?_, ?_, fun c sid session hc => h.calls c _ hc,
    h.sessions⟩
  · intro c c' state verifier verifier' time time' he he'
    obtain ⟨rfl, rfl⟩ := h.log.drew_inj (h.log.drew_of_issued he) (h.log.drew_of_issued he')
    have heq := h.log.eq_of_key he he' rfl
    injection heq with _ _ _ htime
    exact ⟨rfl, rfl, htime⟩
  · intro later c state sid session earlier hlog
    exact (h.log.suffix ⟨later, hlog.symm⟩).earned

end Steps

/-! ### A login that goes well -/

/-- A bridge whose code challenge is the verifier itself. -/
def plainSite : Site where
  config := { issuer := lit "https://idp", clientId := lit "bridge", redirectUri := lit "cb" }
  s256 := id
  str := fun _ => []
  int := fun _ => .ok 0

/-- The answer of the token endpoint. -/
def tokens : Value :=
  .dict [(.str (lit "access_token"), .str (lit "at")), (.str (lit "id_token"), .str (lit "it"))]

/-- A browser logs in, and comes back to the callback once more. -/
def loggingIn : List (Label ℕ) :=
  [.start 0 (lit "st") (lit "ver"), .put 0, .tick 5, .complete 1 (lit "code") (lit "st"),
    .complete 2 (lit "code") (lit "st"), .take 1, .take 2, .send 1, .reply 1 (some tokens),
    .validate 1 (some { ok := true, userId := some (lit "ada") }), .create 1 (lit "sid"),
    .insert 1]

/-- The first callback gets the session, and the second one nothing. -/
theorem bound_of_run_loggingIn : ∃ s : State ℕ,
    opened s.log = [lit "st"] ∧ Bound plainSite s := by
  obtain ⟨s, hrun, hs⟩ := Lts.exists_under_run_of_exec (step plainSite) (C := Fresh)
    (fun s l => decide (Fresh s l)) (fun _ _ => of_decide_eq_true) (State.init 0) loggingIn
    (fun s => opened s.log = [lit "st"]) (by decide +kernel)
  exact ⟨s, of_decide_eq_true hs, bound_of_run hrun⟩

end Login

end OtamanBridge
