import OtamanBridge.Approval.Invariants

/-!
# Cards with live buttons

A card of a call has buttons until somebody edits it. The call edits the card whose
handle is stored, when it is answered; a snooze edits the stored one when it is
accepted, and posts a new one a quarter of an hour later. So a card whose handle is
never stored keeps its buttons: the first card when it goes out after the call gave
up on it, and a repost that goes out when its call has left. And a repost that goes
out while the stored card has buttons makes two of them, as two snoozes of one card do.

`OtamanBridge.Approval.OneCard` excludes exactly these steps; what then holds of every
run is `OtamanBridge.Approval.CardsTidy`.
-/

namespace OtamanBridge

namespace Approval

variable {cfg : Config} {ls : List Label} {s s' : State} {l : Label}

/-- The call waits for its answer with its card out, or has it and is about to leave. -/
def Phase.Waiting : Phase → Prop
  | .checking => True
  | .blocked _ => True
  | .leaving _ => True
  | _ => False

/-- A card of call `c` with live buttons. -/
def State.Live (s : State) (c : CallId) (m : CardId) : Prop :=
  s.cards m = some ⟨c, true⟩

/-- **The live-card invariant**: a call has at most one card with live buttons, and
none once it has returned and every edit scheduled for its cards has run and
succeeded. -/
structure CardsTidy (ls : List Label) (s : State) : Prop where
  unique : ∀ {c m m'}, s.Live c m → s.Live c m' → m = m'
  stripped : ∀ {c k r}, s.calls c = some k → k.phase = .returned r →
    (∀ m, s.Live c m → m ∉ s.updates ∧ Label.update m false ∉ ls) → ∀ m, ¬s.Live c m

/-! ### The steps that keep it -/

/-- No repost has a card of call `c` out whose handle it has not stored. -/
def NoLooseRepost (s : State) (c : CallId) : Prop :=
  ∀ j q m, s.reposts j = some q → q.phase ≠ .posted c m

/-- The step leaves no card of a call behind:

* the first card goes out while its call waits for it;
* the call does not give up on a first card that is out;
* a repost goes out while its call waits, the stored card has lost its buttons, and no
  other repost of the call is on its way to store a handle;
* a repost that is out finds its call still in the table, and is not cancelled;
* a call does not return while a repost of it is out, and edits the stored card if it
  has buttons. -/
def OneCard (s : State) : Label → Prop
  | .sendPosts c _ => ∀ k, s.calls c = some k → ∃ since, k.phase = .sending since
  | .move c .sendGaveUp => ∀ k m, s.calls c = some k → k.send ≠ .posted m
  | .repostPosts j _ => ∀ q c, s.reposts j = some q → q.phase = .sending c →
      (∃ k m c₀, s.calls c = some k ∧ k.phase.Waiting ∧ k.pending.handle = some m ∧
        s.cards m = some ⟨c₀, false⟩) ∧ NoLooseRepost s c
  | .repostStores j => ∀ q c m, s.reposts j = some q → q.phase = .posted c m →
      s.table.lookup q.requestId = some c
  | .repostCancelled j => ∀ q c m, s.reposts j = some q → q.phase ≠ .posted c m
  | .leave c => NoLooseRepost s c ∧ ∀ k r m, s.calls c = some k → k.phase = .leaving r →
      k.pending.handle = some m → s.Live c m → stripsCard r
  | _ => True

/-- A run of a daemon that leaves no card behind. -/
abbrev ReachesTidy (cfg : Config) (ls : List Label) (s : State) : Prop :=
  Lts.Run (Lts.Under OneCard (Lts.ofStep (step cfg))) State.init ls s

/-! ### Where a live card is -/

/-- Where the handle of a card with live buttons is. -/
inductive Place (ls : List Label) (s : State) (c : CallId) (k : Call) (m : CardId) : Prop
  /-- The first card is out, and its call waits for the handle. -/
  | first {since} (hp : k.phase = .sending since) (hs : k.send = .posted m)
  /-- Its handle is stored. -/
  | stored (hp : k.phase.Waiting) (hh : k.pending.handle = some m)
  /-- A repost is about to store its handle. -/
  | reposted {j q} (hp : k.phase.Waiting) (hq : s.reposts j = some q)
      (hj : q.phase = .posted c m)
  /-- The call has returned, and its edit is scheduled or has failed. -/
  | edited {r} (hp : k.phase = .returned r) (he : m ∈ s.updates ∨ Label.update m false ∈ ls)

/-- **The invariant of the cards.** -/
structure Placed (ls : List Label) (s : State) : Prop where
  place : ∀ {c m}, s.Live c m → ∃ k, s.calls c = some k ∧ Place ls s c k m
  unique : ∀ {c m m'}, s.Live c m → s.Live c m' → m = m'
  /-- While a repost is out the card it replaces has no buttons. -/
  replaced : ∀ {j q c m}, s.reposts j = some q → q.phase = .posted c m →
    ∃ k m₀ c₀, s.calls c = some k ∧ k.phase.Waiting ∧ k.pending.handle = some m₀ ∧
      s.cards m₀ = some ⟨c₀, false⟩
  /-- Only one repost of a call is out. -/
  only : ∀ {i j qi qj c m m'}, s.reposts i = some qi → s.reposts j = some qj →
    qi.phase = .posted c m → qj.phase = .posted c m' → i = j

theorem Placed.init : Placed [] State.init where
  place hm := by simp [State.Live, State.init] at hm
  unique hm := by simp [State.Live, State.init] at hm
  replaced hq := by simp [State.init] at hq
  only hq := by simp [State.init] at hq

/-- A waiting call waits until it leaves. -/
theorem CallChange.waiting {c : CallId} {k k' : Call} (h : CallChange s c k l k')
    (hp : k.phase.Waiting) : k'.phase.Waiting ∨ l = .leave c := by
  cases h with
  | move hm =>
    cases hm with
    | build h | sendReturned h | sendRaised h | sendGaveUp h => simp [h, Phase.Waiting] at hp
    | expire | block | poll | wake => exact .inl trivial
  | register h => simp [h, Phase.Waiting] at hp
  | leaveFailing | leaveAnswered => exact .inr rfl
  | _ => exact .inl hp

/-- The stored handle of a waiting call changes when a repost stores its own. -/
theorem CallChange.handle {c : CallId} {k k' : Call} (h : CallChange s c k l k')
    (hp : k.phase.Waiting) : k'.pending.handle = k.pending.handle ∨
      ∃ j q m, l = .repostStores j ∧ s.reposts j = some q ∧ q.phase = .posted c m := by
  cases h with
  | move hm =>
    cases hm with
    | build h | sendReturned h => simp [h, Phase.Waiting] at hp
    | _ => exact .inl rfl
  | snoozeExtend =>
    simp only [PendingApproval.extendBy]
    split <;> exact .inl rfl
  | repostStores hq hj => exact .inr ⟨_, _, _, rfl, hq, hj⟩
  | _ => exact .inl rfl

/-- An answer is for good. -/
theorem CallChange.returned {c : CallId} {k k' : Call} {r : ApprovalResponse}
    (h : CallChange s c k l k') (hp : k.phase = .returned r) : k'.phase = .returned r := by
  cases h with
  | move hm => cases hm <;> simp_all
  | register h | leaveFailing h | leaveAnswered h => simp [hp] at h
  | _ => exact hp

/-- A repost that is out is there until it stores its handle or is cancelled. -/
theorem Step.repost_keep (h : Step cfg s l s') {j : ℕ} {q : Repost} {c : CallId} {m : CardId}
    (hq : s.reposts j = some q) (hp : q.phase = .posted c m) :
    s'.reposts j = some q ∨ l = .repostStores j ∨ l = .repostCancelled j := by
  -- a step that writes another repost, or ours in another phase
  have set : ∀ {t : State} {j₀ q₀ q₁}, s.reposts j₀ = some q₀ → t.reposts = s.reposts →
      q₀.phase ≠ q.phase → (t.setRepost j₀ q₁).reposts j = some q := by
    intro t j₀ q₀ q₁ hq₀ ht hno
    have hne : j ≠ j₀ := by
      rintro rfl
      obtain rfl := Option.some.inj (hq.symm.trans hq₀)
      exact hno rfl
    exact (State.setRepost_reposts_ne _ _ hne).trans (ht ▸ hq)
  cases h with
  | @snoozeSchedule i j₀ z c₀ k hz hp₀ hk hj =>
    have hne : j ≠ j₀ := by
      rintro rfl
      rw [hq] at hj
      cases hj
    exact .inl ((State.setRepost_reposts_ne _ _ hne).trans hq)
  | repostHit hq₀ hp₀ => exact .inl (set hq₀ rfl (by simp [hp, hp₀]))
  | repostMiss hq₀ hp₀ => exact .inl (set hq₀ rfl (by simp [hp, hp₀]))
  | repostPosts hq₀ hp₀ => exact .inl (set hq₀ rfl (by simp [hp, hp₀]))
  | repostFails hq₀ hp₀ => exact .inl (set hq₀ rfl (by simp [hp, hp₀]))
  | @repostStores j₀ q₀ c₀ m₀ hq₀ hp₀ hl =>
    rcases eq_or_ne j j₀ with rfl | hne
    · exact .inr (.inl rfl)
    · exact .inl ((State.setRepost_reposts_ne _ _ hne).trans hq)
  | @repostDrops j₀ q₀ c₀ m₀ hq₀ hp₀ hl =>
    rcases eq_or_ne j j₀ with rfl | hne
    · exact .inr (.inl rfl)
    · exact .inl ((State.setRepost_reposts_ne _ _ hne).trans hq)
  | @repostCancelled j₀ q₀ hq₀ hs =>
    rcases eq_or_ne j j₀ with rfl | hne
    · exact .inr (.inr rfl)
    · exact .inl ((State.setRepost_reposts_ne _ _ hne).trans hq)
  | _ => exact .inl hq

/-- A repost that stores its handle is through. -/
theorem Step.repost_stored {j : ℕ} (h : Step cfg s (.repostStores j) s') :
    ∃ q, s'.reposts j = some q ∧ q.phase = .done := by
  cases h with
  | silent hl => exact hl.elim
  | repostStores => exact ⟨_, State.setRepost_reposts_self _ _ _, rfl⟩
  | repostDrops => exact ⟨_, State.setRepost_reposts_self _ _ _, rfl⟩

/-- A call that leaves with an answer that is shown schedules the edit of its card. -/
theorem Step.leave_edits {c : CallId} {k : Call} {r : ApprovalResponse} {m : CardId}
    (h : Step cfg s (.leave c) s') (hk : s.calls c = some k) (hp : k.phase = .leaving r)
    (hh : k.pending.handle = some m) (hr : stripsCard r) : m ∈ s'.updates := by
  cases h with
  | silent hl => exact hl.elim
  | leaveFailing hk₀ hp₀ =>
    obtain rfl := Option.some.inj (hk.symm.trans hk₀)
    simp [hp] at hp₀
  | leaveAnswered hk₀ hp₀ =>
    obtain rfl := Option.some.inj (hk.symm.trans hk₀)
    obtain rfl := by simpa [hp] using hp₀
    refine List.mem_append_right _ ?_
    simp [editsOf, hr, hh]

theorem Placed.replaced_step (hpl : Placed ls s) (hcond : OneCard s l) (h : Step cfg s l s')
    {j : ℕ} {q' : Repost} {c : CallId} {m : CardId} (hq' : s'.reposts j = some q')
    (hp' : q'.phase = .posted c m) :
    ∃ k m₀ c₀, s'.calls c = some k ∧ k.phase.Waiting ∧ k.pending.handle = some m₀ ∧
      s'.cards m₀ = some ⟨c₀, false⟩ := by
  obtain ⟨q, hq, ⟨hp, -⟩ | ⟨rfl, hp, -⟩⟩ := h.repost_posted hq' hp'
  · obtain ⟨k, m₀, c₀, hk, hw, hh, hm₀⟩ := hpl.replaced hq hp
    obtain ⟨k', hk', hch⟩ := h.call hk
    rcases hch.waiting hw with hw' | rfl
    · rcases hch.handle hw with hh' | ⟨i, qi, mi, rfl, hi, hpi⟩
      · exact ⟨k', m₀, c₀, hk', hw', hh'.trans hh, h.card_stripped hm₀⟩
      · -- the only repost that is out stores its handle, so none is out any more
        obtain rfl := hpl.only hq hi hp hpi
        obtain ⟨q₁, hq₁, hdone⟩ := h.repost_stored
        obtain rfl := Option.some.inj (hq'.symm.trans hq₁)
        simp [hp'] at hdone
    · exact absurd hp (hcond.1 _ _ _ hq)
  · obtain ⟨⟨k, m₀, c₀, hk, hw, hh, hm₀⟩, -⟩ := hcond _ _ hq hp
    obtain ⟨k', hk', hch⟩ := h.call hk
    cases hch
    exact ⟨k, m₀, c₀, hk', hw, hh, h.card_stripped hm₀⟩

theorem Placed.only_step (hpl : Placed ls s) (hcond : OneCard s l) (h : Step cfg s l s')
    {i j : ℕ} {qi qj : Repost} {c : CallId} {m m' : CardId} (hi : s'.reposts i = some qi)
    (hj : s'.reposts j = some qj) (hpi : qi.phase = .posted c m)
    (hpj : qj.phase = .posted c m') : i = j := by
  obtain ⟨qi₀, hi₀, ⟨hpi₀, -⟩ | ⟨rfl, hsi, -⟩⟩ := h.repost_posted hi hpi
  · obtain ⟨qj₀, hj₀, ⟨hpj₀, -⟩ | ⟨rfl, hsj, -⟩⟩ := h.repost_posted hj hpj
    · exact hpl.only hi₀ hj₀ hpi₀ hpj₀
    · exact absurd hpi₀ ((hcond _ _ hj₀ hsj).2 _ _ _ hi₀)
  · obtain ⟨qj₀, hj₀, ⟨hpj₀, -⟩ | ⟨hl, -, -⟩⟩ := h.repost_posted hj hpj
    · exact absurd hpj₀ ((hcond _ _ hi₀ hsi).2 _ _ _ hj₀)
    · exact (Label.repostPosts.inj hl).1

/-- A live card that was live before the step keeps a place. -/
theorem Placed.place_keep (hpl : Placed ls s) (hcond : OneCard s l) (h : Step cfg s l s')
    {c : CallId} {m : CardId} (hm : s.Live c m) (hm' : s'.Live c m) :
    ∃ k, s'.calls c = some k ∧ Place (ls ++ [l]) s' c k m := by
  obtain ⟨k, hk, hplace⟩ := hpl.place hm
  obtain ⟨k', hk', hch⟩ := h.call hk
  refine ⟨k', hk', ?_⟩
  -- by the place it had, and what the call does
  cases hplace with
  | first hp hs =>
    cases hch with
    | move hmv =>
      cases hmv with
      | sendReturned hp₀ hs₀ =>
        obtain rfl := by simpa [hs] using hs₀
        exact .stored trivial rfl
      | sendGaveUp => exact absurd hs (hcond _ _ hk)
      | sendRaised hp₀ hs₀ => simp [hs] at hs₀
      | build hp₀ | expire hp₀ | block hp₀ | poll hp₀ | wake hp₀ => simp [hp] at hp₀
    | register hp₀ | leaveFailing hp₀ | leaveAnswered hp₀ => simp [hp] at hp₀
    | sendPosts hs₀ | sendFails hs₀ => simp [hs] at hs₀
    | _ => exact .first hp hs
  | stored hp hh =>
    rcases hch.handle hp with hh' | ⟨j, q, m₁, rfl, hq, hj⟩
    · rcases hch.waiting hp with hp' | rfl
      · exact .stored hp' (hh'.trans hh)
      · -- the call returns: its answer is shown, so the edit is scheduled
        cases hch with
        | same => exact .stored hp hh
        | leaveFailing hp₀ => simp [hp₀, Phase.Waiting] at hp
        | leaveAnswered hp₀ =>
          exact .edited rfl (.inl (h.leave_edits hk hp₀ hh (hcond.2 _ _ _ hk hp₀ hh hm)))
    · -- the card a repost replaces is not live
      obtain ⟨k₀, m₀, c₀, hk₀, -, hh₀, hm₀⟩ := hpl.replaced hq hj
      obtain rfl := Option.some.inj (hk.symm.trans hk₀)
      obtain rfl := Option.some.inj (hh.symm.trans hh₀)
      simp [State.Live, hm₀] at hm
  | @reposted j q hp hq hj =>
    rcases h.repost_keep hq hj with hq' | rfl | rfl
    · rcases hch.waiting hp with hp' | rfl
      · exact .reposted hp' hq' hj
      · exact absurd hj (hcond.1 _ _ _ hq)
    · -- the handle is stored, as the call is still in the table
      have hl := hcond _ _ _ hq hj
      cases h with
      | silent hr => exact hr.elim
      | repostStores hq₀ hj₀ hl₀ =>
        obtain rfl := Option.some.inj (hq.symm.trans hq₀)
        obtain ⟨rfl, rfl⟩ := by simpa [hj] using hj₀
        obtain rfl := Option.some.inj (hk'.symm.trans (State.modifyPending_calls_self _ _ hk))
        exact .stored hp rfl
      | repostDrops hq₀ hj₀ hl₀ =>
        obtain rfl := Option.some.inj (hq.symm.trans hq₀)
        obtain ⟨rfl, rfl⟩ := by simpa [hj] using hj₀
        exact absurd hl hl₀
    · exact absurd hj (hcond _ _ _ hq)
  | edited hp he =>
    refine .edited (hch.returned hp) ?_
    rcases he with he | he
    · rcases h.update_mem he with he' | rfl | hdead
      · exact .inl he'
      · exact .inr (List.mem_append_right _ (List.mem_singleton_self _))
      · exact absurd hm' (hdead c)
    · exact .inr (List.mem_append_left _ he)

/-- A card that has just been posted has a place. -/
theorem CardPosted.place {c : CallId} {m : CardId} (hpost : CardPosted s c m l)
    (hcond : OneCard s l) (h : Step cfg s l s') :
    ∃ k, s'.calls c = some k ∧ Place (ls ++ [l]) s' c k m := by
  cases hpost with
  | first hk hs hc =>
    obtain ⟨since, hp⟩ := hcond _ hk
    cases h with
    | silent hl => exact hl.elim
    | sendPosts hk₀ hs₀ hc₀ =>
      obtain rfl := Option.some.inj (hk.symm.trans hk₀)
      exact ⟨_, State.setCall_calls_self _ _ _, .first hp rfl⟩
  | again hq hp hc =>
    obtain ⟨⟨k, m₀, c₀, hk, hw, -⟩, -⟩ := hcond _ _ hq hp
    cases h with
    | silent hl => exact hl.elim
    | repostPosts hq₀ hp₀ hc₀ =>
      obtain rfl := Option.some.inj (hq.symm.trans hq₀)
      obtain rfl := by simpa [hp] using hp₀
      exact ⟨k, hk, .reposted hw (State.setRepost_reposts_self _ _ _) rfl⟩

/-- A card is posted where its call has no live card. -/
theorem CardPosted.not_live {c : CallId} {m m' : CardId} (hpost : CardPosted s c m l)
    (hpl : Placed ls s) (hcond : OneCard s l) : ¬s.Live c m' := by
  intro hm'
  obtain ⟨k, hk, hplace⟩ := hpl.place hm'
  cases hpost with
  | first hk₀ hs hc =>
    obtain rfl := Option.some.inj (hk.symm.trans hk₀)
    obtain ⟨since, hp⟩ := hcond _ hk
    cases hplace with
    | first hp₀ hs₀ => simp [hs] at hs₀
    | stored hw | reposted hw => simp [hp, Phase.Waiting] at hw
    | edited hp₀ => simp [hp] at hp₀
  | again hq hp hc =>
    obtain ⟨⟨k₀, m₀, c₀, hk₀, hw, hh, hm₀⟩, hno⟩ := hcond _ _ hq hp
    obtain rfl := Option.some.inj (hk.symm.trans hk₀)
    cases hplace with
    | first hp₀ hs₀ => simp [hp₀, Phase.Waiting] at hw
    | stored _ hh₀ =>
      obtain rfl := Option.some.inj (hh.symm.trans hh₀)
      simp [State.Live, hm₀] at hm'
    | reposted _ hq₀ hj₀ => exact hno _ _ _ hq₀ hj₀
    | edited hp₀ => simp [hp₀, Phase.Waiting] at hw

theorem Placed.unique_step (hpl : Placed ls s) (hcond : OneCard s l) (h : Step cfg s l s')
    {c : CallId} {m m' : CardId} (hm : s'.Live c m) (hm' : s'.Live c m') : m = m' := by
  rcases h.card_live hm with hold | hpost
  · rcases h.card_live hm' with hold' | hpost'
    · exact hpl.unique hold hold'
    · exact absurd hold (hpost'.not_live hpl hcond)
  · rcases h.card_live hm' with hold' | hpost'
    · exact absurd hold' (hpost.not_live hpl hcond)
    · -- one step posts one card
      cases hpost with
      | first => cases hpost'; rfl
      | again => cases hpost'; rfl

theorem Placed.step (hpl : Placed ls s) (hcond : OneCard s l) (h : Step cfg s l s') :
    Placed (ls ++ [l]) s' where
  place hm := by
    rcases h.card_live hm with hold | hpost
    · exact hpl.place_keep hcond h hold hm
    · exact hpost.place hcond h
  unique hm hm' := hpl.unique_step hcond h hm hm'
  replaced hq hp := hpl.replaced_step hcond h hq hp
  only hi hj hpi hpj := hpl.only_step hcond h hi hj hpi hpj

theorem ReachesTidy.placed (h : ReachesTidy cfg ls s) : Placed ls s :=
  Lts.Run.inv (I := fun ls s => Placed ls s) Placed.init
    (fun _ _ _ _ _ hpl hs => hpl.step hs.1 (Step.of_step hs.2)) h

/-! ### The main result -/

/-- **On the runs that leave no card behind the live-card invariant holds.** -/
theorem cardsTidy_of_oneCard (h : ReachesTidy cfg ls s) : CardsTidy ls s where
  unique := h.placed.unique
  stripped hk hp hdone m hm := by
    obtain ⟨k, hk', hplace⟩ := h.placed.place hm
    obtain rfl := Option.some.inj (hk.symm.trans hk')
    cases hplace with
    | first hp₀ => simp [hp] at hp₀
    | stored hw | reposted hw => simp [hp, Phase.Waiting] at hw
    | edited _ he =>
      rcases he with he | he
      · exact (hdone m hm).1 he
      · exact (hdone m hm).2 he

/-- A call up to its first card. -/
def cardPending : List Label :=
  [.postApproval 0 (some ⟨[], none, []⟩) 0 ⟨"r1", 1200⟩, .move 0 .build, .register 0]

/-- The call is snoozed, and its repost wakes up. -/
def snoozedOnce : List Label :=
  cardPending ++ [.sendPosts 0 0] ++
    [.move 0 .sendReturned, .move 0 .block, .callback 7 "S|r1", .listen 0, .snoozeLook 0,
      .snoozeExtend 0, .snoozeSchedule 0 0, .update 0 true, .tick 900, .move 0 .poll,
      .move 0 .block, .repostWakes 0]

/-- The new card is out, its handle stored, and the card is approved. -/
def approvedOnce : List Label :=
  snoozedOnce ++ [.repostPosts 0 1] ++ [.repostStores 0] ++
    [.callback 7 "A|r1", .listen 1, .look 1, .write 1, .set 1, .move 0 .wake]

theorem reachesTidy_snoozedOnce {s : State}
    (hs : Lts.exec (step ⟨[7]⟩) State.init snoozedOnce = some s) :
    ReachesTidy ⟨[7]⟩ snoozedOnce s := by
  obtain ⟨a, ha, hpa⟩ := Lts.exists_exec (step ⟨[7]⟩) State.init cardPending
    (fun s => (s.calls 0).any fun k => k.phase = .sending 0) (by decide +kernel)
  obtain ⟨k, hk, hp⟩ : ∃ k, a.calls 0 = some k ∧ k.phase = .sending 0 := by
    simpa [Option.any_eq_true] using hpa
  have hrun : ReachesTidy ⟨[7]⟩ cardPending a :=
    Lts.Run.under_append .nil rfl ha (by simp [OneCard])
  obtain ⟨b, hb, -⟩ := Lts.exists_exec (step ⟨[7]⟩) State.init (cardPending ++ [.sendPosts 0 0])
    (fun _ => true) (by decide +kernel)
  -- the first card goes out while the call waits for it
  have hrun := hrun.under_snoc ha hb fun k₀ hk₀ => by
    obtain rfl := Option.some.inj (hk.symm.trans hk₀)
    exact ⟨0, hp⟩
  exact hrun.under_append hb hs (by simp [OneCard])

theorem reachesTidy_approvedOnce {s : State}
    (hs : Lts.exec (step ⟨[7]⟩) State.init approvedOnce = some s) :
    ReachesTidy ⟨[7]⟩ approvedOnce s := by
  obtain ⟨a, ha, hpa⟩ := Lts.exists_exec (step ⟨[7]⟩) State.init snoozedOnce
    (fun s => (s.reposts 0).any (fun q => q.phase = .sending 0) ∧ s.cards 0 = some ⟨0, false⟩ ∧
      (s.calls 0).any fun k => k.phase = .blocked 905 ∧ k.pending.handle = some 0)
    (by decide +kernel)
  obtain ⟨⟨q, hq, hp⟩, hcard, k, hk, hkp, hh⟩ : (∃ q, a.reposts 0 = some q ∧
      q.phase = .sending 0) ∧ a.cards 0 = some ⟨0, false⟩ ∧
      ∃ k, a.calls 0 = some k ∧ k.phase = .blocked 905 ∧ k.pending.handle = some 0 := by
    simpa [Option.any_eq_true] using hpa
  have hrun := reachesTidy_snoozedOnce ha
  obtain ⟨b, hb, hpb⟩ := Lts.exists_exec (step ⟨[7]⟩) State.init
    (snoozedOnce ++ [.repostPosts 0 1])
    (fun s => s.table.lookup "r1" = some 0 ∧ (s.reposts 0).any fun q =>
      q.phase = .posted 0 1 ∧ q.requestId = "r1") (by decide +kernel)
  obtain ⟨htable, q₁, hq₁, hp₁, hrid⟩ : b.table.lookup "r1" = some 0 ∧
      ∃ q, b.reposts 0 = some q ∧ q.phase = .posted 0 1 ∧ q.requestId = "r1" := by
    simpa [Option.any_eq_true] using hpb
  -- the stored card has lost its buttons, and this is the only repost
  have hrun := hrun.under_snoc ha hb (by
    intro q₀ c hq₀ hp₀
    obtain rfl := Option.some.inj (hq.symm.trans hq₀)
    obtain rfl := by simpa [hp] using hp₀
    refine ⟨⟨k, 0, 0, hk, by rw [hkp]; trivial, hh, hcard⟩, fun j q' m hq' => ?_⟩
    obtain rfl : j = 0 := List.mem_singleton.mp (Reaches.scheduled hrun.of_under hq')
    obtain rfl := Option.some.inj (hq.symm.trans hq')
    simp [hp])
  obtain ⟨d, hd, -⟩ := Lts.exists_exec (step ⟨[7]⟩) State.init
    (snoozedOnce ++ [.repostPosts 0 1] ++ [.repostStores 0]) (fun _ => true) (by decide +kernel)
  have hrun := hrun.under_snoc hb hd (by
    intro q₀ c m hq₀ hp₀
    obtain rfl := Option.some.inj (hq₁.symm.trans hq₀)
    obtain ⟨rfl, rfl⟩ := by simpa [hp₁] using hp₀
    rw [hrid, htable])
  exact hrun.under_append hd hs (by simp [OneCard])

/-- A call that is snoozed once, comes back and is approved leaves no card behind. -/
theorem cardsTidy_of_oneCard_snooze :
    ∃ s k, ReachesTidy ⟨[7]⟩ (approvedOnce ++ [.leave 0] ++ [.update 1 true]) s ∧
      s.calls 0 = some k ∧ k.phase = .returned ⟨.allow, "r1", "telegram:7", ""⟩ ∧
      CardsTidy (approvedOnce ++ [.leave 0] ++ [.update 1 true]) s := by
  obtain ⟨a, ha, hpa⟩ := Lts.exists_exec (step ⟨[7]⟩) State.init approvedOnce
    (fun s => (s.reposts 0).any (fun q => q.phase = .done) ∧ (s.calls 0).any fun k =>
      k.phase = .leaving ⟨.allow, "r1", "telegram:7", ""⟩) (by decide +kernel)
  obtain ⟨⟨q, hq, hp⟩, k, hk, hkp⟩ : (∃ q, a.reposts 0 = some q ∧ q.phase = .done) ∧
      ∃ k, a.calls 0 = some k ∧ k.phase = .leaving ⟨.allow, "r1", "telegram:7", ""⟩ := by
    simpa [Option.any_eq_true] using hpa
  have hrun := reachesTidy_approvedOnce ha
  obtain ⟨b, hb, -⟩ := Lts.exists_exec (step ⟨[7]⟩) State.init (approvedOnce ++ [.leave 0])
    (fun _ => true) (by decide +kernel)
  -- the repost is through, and the answer is one that is shown on the card
  have hrun := hrun.under_snoc ha hb (by
    constructor
    · intro j q' m hq'
      obtain rfl : j = 0 := List.mem_singleton.mp (Reaches.scheduled hrun.of_under hq')
      obtain rfl := Option.some.inj (hq.symm.trans hq')
      simp [hp]
    · intro k₀ r m hk₀ hp₀ _ _
      obtain rfl := Option.some.inj (hk.symm.trans hk₀)
      obtain rfl := by simpa [hkp] using hp₀
      rfl)
  obtain ⟨s, hs, hps⟩ := Lts.exists_exec (step ⟨[7]⟩) State.init
    (approvedOnce ++ [.leave 0] ++ [.update 1 true])
    (fun s => (s.calls 0).any fun k => k.phase = .returned ⟨.allow, "r1", "telegram:7", ""⟩)
    (by decide +kernel)
  obtain ⟨k, hk, hp⟩ : ∃ k, s.calls 0 = some k ∧
      k.phase = .returned ⟨.allow, "r1", "telegram:7", ""⟩ := by
    simpa [Option.any_eq_true] using hps
  have hrun := hrun.under_append hb hs (by simp [OneCard])
  exact ⟨s, k, hrun, hk, hp, cardsTidy_of_oneCard hrun⟩

/-- A card that is snoozed twice before its buttons are gone comes back twice. -/
def snoozedTwice : List Label :=
  cardPending ++ [.sendPosts 0 0, .move 0 .sendReturned, .move 0 .block,
    .callback 7 "S|r1", .callback 7 "S|r1", .listen 0, .snoozeLook 0, .snoozeExtend 0,
    .snoozeSchedule 0 0, .listen 1, .snoozeLook 1, .snoozeExtend 1, .snoozeSchedule 1 1,
    .update 0 true, .update 0 true, .tick 900, .move 0 .poll, .move 0 .block,
    .repostWakes 0, .repostPosts 0 1, .repostStores 0, .repostWakes 1, .repostPosts 1 2,
    .repostStores 1]

/-- **Two snoozes break it**: there are two live cards, and when the call is approved
only the second one loses its buttons. -/
theorem not_cardsTidy_snoozedTwice :
    (∃ s, Reaches ⟨[7]⟩ snoozedTwice s ∧ ¬CardsTidy snoozedTwice s) ∧
    ∃ s, Reaches ⟨[7]⟩ (snoozedTwice ++ [.callback 7 "A|r1", .listen 2, .look 2, .write 2,
        .set 2, .move 0 .wake, .leave 0, .update 2 true]) s ∧
      s.updates = [] ∧ s.Live 0 1 ∧
      ∃ k, s.calls 0 = some k ∧ k.phase = .returned ⟨.allow, "r1", "telegram:7", ""⟩ := by
  constructor
  · obtain ⟨s, hrun, hs⟩ := Lts.exists_run_of_exec (step ⟨[7]⟩) State.init snoozedTwice
      (fun s => s.cards 1 = some ⟨0, true⟩ ∧ s.cards 2 = some ⟨0, true⟩) (by decide +kernel)
    obtain ⟨h₁, h₂⟩ : s.cards 1 = some ⟨0, true⟩ ∧ s.cards 2 = some ⟨0, true⟩ := by
      simpa using hs
    refine ⟨s, hrun, fun ht => ?_⟩
    have : 1 = 2 := ht.unique h₁ h₂
    omega
  · obtain ⟨s, hrun, hs⟩ := Lts.exists_run_of_exec (step ⟨[7]⟩) State.init
      (snoozedTwice ++ [.callback 7 "A|r1", .listen 2, .look 2, .write 2, .set 2,
        .move 0 .wake, .leave 0, .update 2 true])
      (fun s => s.updates = [] ∧ s.cards 1 = some ⟨0, true⟩ ∧ (s.calls 0).any fun k =>
        k.phase = .returned ⟨.allow, "r1", "telegram:7", ""⟩) (by decide +kernel)
    refine ⟨s, hrun, ?_⟩
    simpa [Option.any_eq_true, State.Live] using hs

end Approval

end OtamanBridge
