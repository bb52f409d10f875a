import Mathlib.Tactic.Linarith
import OtamanBridge.Approval.State
import OtamanBridge.Lib.Run

/-!
# The loop of `wait`

One `_PendingApproval` at the grain of its attribute accesses: the hook's thread in `wait`,
a thread that extends the deadline, one `extend_by` after the other, and any number of
`resolve` calls. The loop reads the deadline and then the clock, so an extension may come
between the two; `extend_by` reads the clock, compares and then writes, so the deadline it
writes may be one the loop has already looked past. Both are harmless: a timeout is never
earlier than what had taken effect when the deadline was read last
(`OtamanBridge.Approval.Wait.wait_honours`).

`event.wait` returns `True` if the event is set, and `False` only after its time-out, even if
the event has been set in the meantime. Every reading of the clock is one of `now`, which
never goes back.
-/

namespace OtamanBridge

namespace Approval

namespace Wait

/-! ### The state -/

/-- An `extend_by` call: when it read the clock, and its argument. -/
structure Extension where
  time : Seconds
  seconds : Seconds
  deriving DecidableEq

/-- `new_deadline`. -/
def Extension.deadline (e : Extension) : Seconds := e.time + e.seconds

/-- Where the thread that extends stands. -/
inductive Extending
  | idle
  /-- The new deadline is computed; the comparison comes next. -/
  | computed (e : Extension)
  /-- It is later than the deadline; the assignment comes next. -/
  | later (e : Extension)
  deriving DecidableEq

/-- Where `wait` stands. -/
inductive Phase
  /-- At the top of the loop, where the deadline is read. -/
  | top
  /-- The deadline is read; the clock comes next. -/
  | read (deadline : Seconds)
  /-- Something remains: `event.wait` comes next. -/
  | checked (remaining : Seconds)
  /-- In `event.wait`, which gives up at this reading. -/
  | blocked (till : Seconds)
  /-- `event.wait` has returned `True`; the response comes next. -/
  | woken
  /-- `wait` has returned the time-out. -/
  | timedOut
  /-- `wait` has returned this response. -/
  | answered (response : ApprovalResponse)
  deriving DecidableEq

/-- `wait` has returned. -/
def Phase.Returned : Phase → Prop
  | .timedOut => True
  | .answered _ => True
  | _ => False

/-- What `wait` has seen of the deadline: what it read last, what had taken effect by then,
and the clock when it compared. Nothing in the program reads this. -/
structure Seen where
  deadline : Seconds
  effective : List Extension
  clock : Seconds
  deriving DecidableEq

/-- The whole state. What nothing in the program reads is the time of registration, the
extensions that have taken effect, how often the loop was begun, and what was seen. -/
structure State where
  now : Seconds
  pending : PendingApproval
  extending : Extending
  /-- The `resolve` calls that have written their response. -/
  resolving : ℕ → Bool
  phase : Phase
  registeredAt : Seconds
  effective : List Extension
  iterations : ℕ
  seen : Seen

/-- The object is made, and nobody has used it. -/
def State.init (now : Seconds) (request : ApprovalRequest) : State where
  now := now
  pending := .make now request
  extending := .idle
  resolving := fun _ => false
  phase := .top
  registeredAt := now
  effective := []
  iterations := 0
  seen := ⟨now + request.timeoutSeconds, [], now⟩

/-- What a step is told. -/
inductive Label
  /-- Time passes. -/
  | tick (d : Seconds)
  /-- `extend_by` is called and reads the clock. -/
  | extend (seconds : Seconds)
  /-- It compares. -/
  | compare
  /-- It writes. -/
  | push
  /-- A `resolve` call writes its response. -/
  | write (i : ℕ) (response : ApprovalResponse)
  /-- It sets the event. -/
  | set (i : ℕ)
  /-- `wait` reads the deadline. -/
  | readDeadline
  /-- It reads the clock, and compares. -/
  | readClock
  /-- It calls `event.wait`. -/
  | block
  /-- `event.wait` returns `True`. -/
  | wake
  /-- `event.wait` returns `False`. -/
  | lapse
  /-- `wait` returns the response. -/
  | answer
  deriving DecidableEq

/-- The step is one of `wait`. -/
def Label.ofWait : Label → Bool
  | .readDeadline | .readClock | .block | .wake | .lapse | .answer => true
  | _ => false

/-- One step. -/
def step (s : State) : Label → Option State
  | .tick d => if 0 ≤ d then some { s with now := s.now + d } else none
  | .extend seconds =>
    match s.extending with
    | .idle => some { s with extending := .computed ⟨s.now, seconds⟩ }
    | _ => none
  | .compare =>
    match s.extending with
    | .computed e =>
      if s.pending.deadline < e.deadline then some { s with extending := .later e }
      else some { s with extending := .idle, effective := e :: s.effective }
    | _ => none
  | .push =>
    match s.extending with
    | .later e => some { s with
        pending := { s.pending with deadline := e.deadline }
        extending := .idle
        effective := e :: s.effective }
    | _ => none
  | .write i response =>
    if s.resolving i then none
    else some { s with
      pending := { s.pending with response := some response }
      resolving := Function.update s.resolving i true }
  | .set i =>
    if s.resolving i then some { s with
      pending := { s.pending with event := true }
      resolving := Function.update s.resolving i false }
    else none
  | .readDeadline =>
    match s.phase with
    | .top => some { s with
        phase := .read s.pending.deadline
        iterations := s.iterations + 1
        seen := ⟨s.pending.deadline, s.effective, s.now⟩ }
    | _ => none
  | .readClock =>
    match s.phase with
    | .read deadline =>
      let remaining := deadline - s.now
      some { s with
        phase := if remaining ≤ 0 then .timedOut else .checked remaining
        seen := { s.seen with clock := s.now } }
    | _ => none
  | .block =>
    match s.phase with
    | .checked remaining => some { s with phase := .blocked (s.now + min remaining 5) }
    | _ => none
  | .wake =>
    match s.phase with
    | .blocked _ => if s.pending.event then some { s with phase := .woken } else none
    | _ => none
  | .lapse =>
    match s.phase with
    | .blocked till => if till ≤ s.now then some { s with phase := .top } else none
    | _ => none
  | .answer =>
    match s.phase with
    | .woken => s.pending.response.map fun response => { s with phase := .answered response }
    | _ => none

/-! ### What a step can do -/

/-- The steps, by what they do. -/
inductive Step (s : State) : Label → State → Prop
  | tick {d : Seconds} (hd : 0 ≤ d) : Step s (.tick d) { s with now := s.now + d }
  | extend (seconds : Seconds) (hidle : s.extending = .idle) :
      Step s (.extend seconds) { s with extending := .computed ⟨s.now, seconds⟩ }
  | later {e : Extension} (hextending : s.extending = .computed e)
      (hlater : s.pending.deadline < e.deadline) :
      Step s .compare { s with extending := .later e }
  | notLater {e : Extension} (hextending : s.extending = .computed e)
      (hlater : e.deadline ≤ s.pending.deadline) :
      Step s .compare { s with extending := .idle, effective := e :: s.effective }
  | push {e : Extension} (hextending : s.extending = .later e) :
      Step s .push { s with
        pending := { s.pending with deadline := e.deadline }
        extending := .idle
        effective := e :: s.effective }
  | write (i : ℕ) (response : ApprovalResponse) (hfree : s.resolving i = false) :
      Step s (.write i response) { s with
        pending := { s.pending with response := some response }
        resolving := Function.update s.resolving i true }
  | set {i : ℕ} (hwritten : s.resolving i = true) :
      Step s (.set i) { s with
        pending := { s.pending with event := true }
        resolving := Function.update s.resolving i false }
  | readDeadline (hphase : s.phase = .top) :
      Step s .readDeadline { s with
        phase := .read s.pending.deadline
        iterations := s.iterations + 1
        seen := ⟨s.pending.deadline, s.effective, s.now⟩ }
  | expire {deadline : Seconds} (hphase : s.phase = .read deadline) (hover : deadline ≤ s.now) :
      Step s .readClock { s with phase := .timedOut, seen := { s.seen with clock := s.now } }
  | check {deadline : Seconds} (hphase : s.phase = .read deadline) (hleft : s.now < deadline) :
      Step s .readClock { s with
        phase := .checked (deadline - s.now), seen := { s.seen with clock := s.now } }
  | block {remaining : Seconds} (hphase : s.phase = .checked remaining) :
      Step s .block { s with phase := .blocked (s.now + min remaining 5) }
  | wake {till : Seconds} (hphase : s.phase = .blocked till) (hevent : s.pending.event = true) :
      Step s .wake { s with phase := .woken }
  | lapse {till : Seconds} (hphase : s.phase = .blocked till) (htill : till ≤ s.now) :
      Step s .lapse { s with phase := .top }
  | answer {response : ApprovalResponse} (hphase : s.phase = .woken)
      (hresponse : s.pending.response = some response) :
      Step s .answer { s with phase := .answered response }

theorem Step.of_step {s s' : State} {l : Label} (h : step s l = some s') : Step s l s' := by
  cases l with
  | tick d =>
    simp only [step] at h
    split_ifs at h with hd
    exact Option.some.inj h ▸ .tick hd
  | extend seconds =>
    simp only [step] at h
    split at h
    · next hidle => exact Option.some.inj h ▸ .extend seconds hidle
    · exact absurd h (by simp)
  | compare =>
    simp only [step] at h
    split at h
    · next e hextending =>
      split_ifs at h with hlater
      · exact Option.some.inj h ▸ .later hextending hlater
      · exact Option.some.inj h ▸ .notLater hextending (not_lt.mp hlater)
    · exact absurd h (by simp)
  | push =>
    simp only [step] at h
    split at h
    · next e hextending => exact Option.some.inj h ▸ .push hextending
    · exact absurd h (by simp)
  | write i response =>
    simp only [step] at h
    split_ifs at h with hfree
    exact Option.some.inj h ▸ .write i response (Bool.eq_false_iff.mpr hfree)
  | set i =>
    simp only [step] at h
    split_ifs at h with hwritten
    exact Option.some.inj h ▸ .set hwritten
  | readDeadline =>
    simp only [step] at h
    split at h
    · next hphase => exact Option.some.inj h ▸ .readDeadline hphase
    · exact absurd h (by simp)
  | readClock =>
    simp only [step] at h
    split at h
    · next deadline hphase =>
      obtain rfl := Option.some.inj h
      by_cases hover : deadline - s.now ≤ 0
      · rw [if_pos hover]
        exact .expire hphase (sub_nonpos.mp hover)
      · rw [if_neg hover]
        exact .check hphase (sub_pos.mp (not_le.mp hover))
    · exact absurd h (by simp)
  | block =>
    simp only [step] at h
    split at h
    · next remaining hphase => exact Option.some.inj h ▸ .block hphase
    · exact absurd h (by simp)
  | wake =>
    simp only [step] at h
    split at h
    · next till hphase =>
      split_ifs at h with hevent
      exact Option.some.inj h ▸ .wake hphase hevent
    · exact absurd h (by simp)
  | lapse =>
    simp only [step] at h
    split at h
    · next till hphase =>
      split_ifs at h with htill
      exact Option.some.inj h ▸ .lapse hphase htill
    · exact absurd h (by simp)
  | answer =>
    simp only [step] at h
    split at h
    · next hphase =>
      obtain ⟨response, hresponse, rfl⟩ := Option.map_eq_some_iff.mp h
      exact .answer hphase hresponse
    · exact absurd h (by simp)

/-- An `extend_by` that runs to its end does what `extend_by` does in one go. -/
theorem Step.extendBy {s s' : State} {l : Label} (h : Step s l s') {e : Extension}
    (heffective : s'.effective = e :: s.effective)
    (hlater : ∀ e, s.extending = .later e → s.pending.deadline < e.deadline) :
    s'.pending = s.pending.extendBy e.time e.seconds := by
  cases h with
  | @notLater e' hextending hle =>
    obtain rfl := (List.cons.inj heffective).1
    exact (if_neg (not_lt.mpr hle)).symm
  | @push e' hextending =>
    obtain rfl := (List.cons.inj heffective).1
    exact (if_pos (hlater _ hextending)).symm
  | _ => exact absurd heffective.symm (List.cons_ne_self _ _)

/-! ### The deadline -/

/-- A deadline is the latest of the time-out and these extensions. -/
def IsLatest (s : State) (deadline : Seconds) (effective : List Extension) : Prop :=
  ∀ d, deadline ≤ d ↔
    s.registeredAt + s.pending.request.timeoutSeconds ≤ d ∧ ∀ e ∈ effective, e.deadline ≤ d

/-- **The deadline**: it is the latest of what has taken effect, and so was the one that was
read last, for what had taken effect then. -/
structure Timed (s : State) : Prop where
  latest : IsLatest s s.pending.deadline s.effective
  later : ∀ e, s.extending = .later e → s.pending.deadline < e.deadline
  seen : IsLatest s s.seen.deadline s.seen.effective
  suffix : s.seen.effective <:+ s.effective
  registered : s.registeredAt ≤ s.seen.clock
  clock : s.seen.clock ≤ s.now

theorem timed_init (now : Seconds) (request : ApprovalRequest) :
    Timed (State.init now request) where
  latest := fun d => by simp [State.init, PendingApproval.make]
  later := fun _ h => by simp [State.init] at h
  seen := fun d => by simp [State.init, PendingApproval.make]
  suffix := List.suffix_rfl
  registered := le_rfl
  clock := le_rfl

/-- What more takes effect only makes it later. -/
theorem IsLatest.mono {s : State} {d d' : Seconds} {es es' : List Extension}
    (h : IsLatest s d es) (h' : IsLatest s d' es') (hsub : es <:+ es') : d ≤ d' :=
  (h d').mpr ⟨((h' d').mp le_rfl).1, fun e he => ((h' d').mp le_rfl).2 e (hsub.subset he)⟩

/-- One more extension, and the later of the two deadlines. -/
theorem IsLatest.cons {s : State} {d d' : Seconds} {es : List Extension} {e : Extension}
    (h : IsLatest s d es) (hd : ∀ x, d' ≤ x ↔ d ≤ x ∧ e.deadline ≤ x) :
    IsLatest s d' (e :: es) := by
  intro x
  rw [hd x, h x]
  simp only [List.mem_cons, forall_eq_or_imp]
  constructor
  · rintro ⟨⟨htimeout, hall⟩, hlast⟩
    exact ⟨htimeout, hlast, hall⟩
  · rintro ⟨htimeout, hlast, hall⟩
    exact ⟨⟨htimeout, hall⟩, hlast⟩

theorem Timed.step {s s' : State} {l : Label} (h : Timed s) (hstep : Step s l s') :
    Timed s' := by
  cases hstep with
  | tick hd => exact { h with clock := h.clock.trans (le_add_of_nonneg_right hd) }
  | extend seconds hidle => exact { h with later := fun _ he => absurd he (by simp) }
  | @later e hextending hlater =>
    refine { h with later := fun e' he => ?_ }
    obtain rfl := Extending.later.inj he
    exact hlater
  | @notLater e hextending hlater =>
    -- the extension has taken effect: the deadline is later already
    refine { h with
      latest := h.latest.cons fun x => ⟨fun hx => ⟨hx, hlater.trans hx⟩, And.left⟩
      later := fun _ he => absurd he (by simp)
      suffix := h.suffix.trans (List.suffix_cons ..) }
  | @push e hextending =>
    -- one thread extends, so the deadline is still the one that was compared
    have hlater := h.later e hextending
    refine { h with
      latest := h.latest.cons fun x => ⟨fun hx => ⟨hlater.le.trans hx, hx⟩, And.right⟩
      later := fun _ he => absurd he (by simp)
      suffix := h.suffix.trans (List.suffix_cons ..) }
  | readDeadline hphase =>
    exact { h with
      seen := h.latest
      suffix := List.suffix_rfl
      registered := h.registered.trans h.clock
      clock := le_rfl }
  | expire hphase | check hphase =>
    exact { h with registered := h.registered.trans h.clock, clock := le_rfl }
  | _ => exact { h with }

/-- **A step** never shortens the deadline. -/
theorem Timed.deadline_le {s s' : State} {l : Label} (h : Timed s) (hstep : Step s l s') :
    s.pending.deadline ≤ s'.pending.deadline := by
  cases hstep with
  | push hextending => exact (h.later _ hextending).le
  | _ => exact le_rfl

/-! ### The loop -/

/-- What `wait` knows where it stands. -/
def Fits (s : State) : Prop :=
  match s.phase with
  | .top => True
  | .read deadline => deadline = s.seen.deadline
  | .checked remaining => remaining = s.seen.deadline - s.seen.clock ∧ 0 < remaining
  | .blocked till => s.seen.clock < s.seen.deadline ∧
      s.seen.clock + min (s.seen.deadline - s.seen.clock) 5 ≤ till ∧ till ≤ s.now + 5
  | .woken => s.pending.event = true
  | .timedOut => s.seen.deadline ≤ s.seen.clock
  | .answered _ => s.pending.event = true

/-- Whatever another thread does, `wait` knows what it knew. -/
theorem Fits.of_phase {s s' : State} (h : Fits s) (hphase : s'.phase = s.phase)
    (hseen : s'.seen = s.seen) (hnow : s.now ≤ s'.now)
    (hevent : s.pending.event = true → s'.pending.event = true) : Fits s' := by
  unfold Fits at h ⊢
  rw [hphase, hseen]
  cases hp : s.phase with
  | top => trivial
  | read deadline =>
    rw [hp] at h
    exact h
  | checked remaining =>
    rw [hp] at h
    exact h
  | blocked till =>
    rw [hp] at h
    exact ⟨h.1, h.2.1, h.2.2.trans (add_le_add_left hnow 5)⟩
  | woken =>
    rw [hp] at h
    exact hevent h
  | timedOut =>
    rw [hp] at h
    exact h
  | answered response =>
    rw [hp] at h
    exact hevent h

theorem Fits.step {s s' : State} {l : Label} (h : Fits s) (ht : Timed s) (hstep : Step s l s') :
    Fits s' := by
  cases hstep with
  | tick hd => exact h.of_phase rfl rfl (le_add_of_nonneg_right hd) id
  | readDeadline hphase => exact rfl
  | expire hphase hover =>
    rw [Fits, hphase] at h
    subst h
    exact hover
  | check hphase hleft =>
    rw [Fits, hphase] at h
    subst h
    exact ⟨rfl, sub_pos.mpr hleft⟩
  | block hphase =>
    rw [Fits, hphase] at h
    obtain ⟨rfl, hpos⟩ := h
    refine ⟨sub_pos.mp hpos, add_le_add_left ht.clock _, add_le_add_right (min_le_right _ _) _⟩
  | wake hphase hevent => exact hevent
  | lapse hphase htill => trivial
  | answer hphase hresponse =>
    rw [Fits, hphase] at h
    exact h
  | set hwritten => exact h.of_phase rfl rfl le_rfl fun _ => rfl
  | _ => exact h.of_phase rfl rfl le_rfl id

/-! ### How often it goes round -/

/-- The time that had passed at a reading of the clock, and five seconds for each extension that
had taken effect when the deadline was read last. -/
def State.allowance (s : State) (clock : Seconds) : Seconds :=
  clock - s.registeredAt + 5 * s.seen.effective.length

/-- **How often the loop was begun**, against the time and the extensions: `event.wait` gives up
after five seconds, or at the deadline that was read, and then the loop goes on only if an
extension has come since. -/
def Counted (s : State) : Prop :=
  match s.phase with
  | .top => 5 * ((s.iterations : ℚ) - 1) ≤ s.allowance s.now ∧
      (s.now < s.seen.deadline → 5 * (s.iterations : ℚ) ≤ s.allowance s.now)
  | .read _ => 5 * ((s.iterations : ℚ) - 2) ≤ s.allowance s.now ∧
      (s.now < s.seen.deadline → 5 * ((s.iterations : ℚ) - 1) ≤ s.allowance s.now)
  | .checked _ | .blocked _ => 5 * ((s.iterations : ℚ) - 1) ≤ s.allowance s.seen.clock
  | _ => True

/-- More time may pass. -/
theorem State.allowance_le {s s' : State} (hseen : s'.seen = s.seen)
    (hregistered : s'.registeredAt = s.registeredAt) {c c' : Seconds} (h : c ≤ c') :
    s.allowance c ≤ s'.allowance c' := by
  unfold State.allowance
  rw [hseen, hregistered]
  linarith

/-- Whatever another thread does, the count is kept. -/
theorem Counted.of_phase {s s' : State} (h : Counted s) (hphase : s'.phase = s.phase)
    (hseen : s'.seen = s.seen) (hregistered : s'.registeredAt = s.registeredAt)
    (hiterations : s'.iterations = s.iterations) (hnow : s.now ≤ s'.now) : Counted s' := by
  have hmore := State.allowance_le hseen hregistered hnow
  have hsame := State.allowance_le hseen hregistered (le_refl s.seen.clock)
  unfold Counted at h ⊢
  rw [hphase, hiterations, hseen]
  cases hp : s.phase with
  | top =>
    rw [hp] at h
    exact ⟨h.1.trans hmore, fun hleft => (h.2 (hnow.trans_lt hleft)).trans hmore⟩
  | read deadline =>
    rw [hp] at h
    exact ⟨h.1.trans hmore, fun hleft => (h.2 (hnow.trans_lt hleft)).trans hmore⟩
  | checked remaining =>
    rw [hp] at h
    exact h.trans hsame
  | blocked till =>
    rw [hp] at h
    exact h.trans hsame
  | _ => trivial

/-- The deadline that was read last is still the one if nothing has taken effect since. -/
theorem Timed.deadline_eq {s : State} (h : Timed s)
    (hlen : s.effective.length ≤ s.seen.effective.length) :
    s.pending.deadline = s.seen.deadline := by
  have heq : s.seen.effective = s.effective :=
    h.suffix.eq_of_length (le_antisymm h.suffix.length_le hlen)
  have hseen := h.seen
  rw [heq] at hseen
  exact le_antisymm (h.latest.mono hseen List.suffix_rfl) (hseen.mono h.latest List.suffix_rfl)

theorem Counted.step {s s' : State} {l : Label} (h : Counted s) (ht : Timed s) (hfits : Fits s)
    (hstep : Step s l s') : Counted s' := by
  cases hstep with
  | tick hd => exact h.of_phase rfl rfl rfl rfl (le_add_of_nonneg_right hd)
  | readDeadline hphase =>
    rw [Counted, hphase] at h
    have hlen : (s.seen.effective.length : ℚ) ≤ s.effective.length :=
      Nat.cast_le.mpr ht.suffix.length_le
    simp only [State.allowance] at h
    simp only [Counted, State.allowance, Nat.cast_add, Nat.cast_one]
    refine ⟨by linarith [h.1], fun hleft => ?_⟩
    rcases le_or_gt s.effective.length s.seen.effective.length with hsame | hmore
    · -- nothing has come since: the last `event.wait` took its five seconds
      rw [ht.deadline_eq hsame] at hleft
      linarith [h.2 hleft]
    · -- an extension has come, which makes up for the one that gave up early
      have hone : (s.seen.effective.length : ℚ) + 1 ≤ s.effective.length := by
        exact_mod_cast hmore
      linarith [h.1]
  | expire hphase hover => trivial
  | check hphase hleft =>
    rw [Counted, hphase] at h
    rw [Fits, hphase] at hfits
    subst hfits
    exact h.2 hleft
  | block hphase =>
    rw [Counted, hphase] at h
    exact h
  | wake hphase hevent => trivial
  | lapse hphase htill =>
    rw [Counted, hphase] at h
    rw [Fits, hphase] at hfits
    obtain ⟨hpos, hblocked, -⟩ := hfits
    simp only [State.allowance] at h
    simp only [Counted, State.allowance]
    refine ⟨by linarith [ht.clock], fun hleft => ?_⟩
    -- something is left of what was waited for, so it was the five seconds that were over
    have hlong : s.seen.clock + 5 ≤ s.now := by
      rcases min_choice (s.seen.deadline - s.seen.clock) 5 with hmin | hmin
      · rw [hmin] at hblocked
        linarith
      · rw [hmin] at hblocked
        linarith
    linarith
  | answer hphase hresponse => trivial
  | _ => exact h.of_phase rfl rfl rfl rfl le_rfl

/-- What the loop may do before it has looked at the clock again. -/
def Phase.unchecked : Phase → ℕ
  | .read _ => 1
  | .timedOut => 1
  | _ => 0

/-- How often the loop can be begun until a deadline, with so many extensions. -/
def State.limit (s : State) : Seconds :=
  1 + s.effective.length + max 0 ((s.pending.deadline - s.registeredAt) / 5)

/-- Extensions only make it more. -/
theorem State.limit_le {s s' : State} (heffective : s.effective.length ≤ s'.effective.length)
    (hdeadline : s.pending.deadline ≤ s'.pending.deadline)
    (hregistered : s'.registeredAt = s.registeredAt) : s.limit ≤ s'.limit := by
  have hlen : (s.effective.length : ℚ) ≤ s'.effective.length := Nat.cast_le.mpr heffective
  have hmax : max 0 ((s.pending.deadline - s.registeredAt) / 5) ≤
      max 0 ((s'.pending.deadline - s.registeredAt) / 5) :=
    max_le_max le_rfl (by linarith)
  unfold State.limit
  rw [hregistered]
  linarith

/-- The loop has not been begun too often. -/
def Limited (s : State) : Prop := (s.iterations : ℚ) ≤ s.phase.unchecked + s.limit

/-- **The loop is begun no more often** than there are five seconds until the deadline, and
extensions. -/
theorem Limited.step {s s' : State} {l : Label} (h : Limited s) (ht : Timed s)
    (hcounted : Counted s) (hfits : Fits s) (hstep : Step s l s') : Limited s' := by
  have hdeadline := ht.deadline_le hstep
  unfold Limited at h ⊢
  cases hstep with
  | readDeadline hphase =>
    rw [hphase] at h
    simp only [Phase.unchecked, State.limit, Nat.cast_add, Nat.cast_one, Nat.cast_zero] at h ⊢
    linarith
  | expire hphase hover =>
    rw [hphase] at h
    exact h
  | check hphase hleft =>
    rw [Counted, hphase] at hcounted
    rw [Fits, hphase] at hfits
    subst hfits
    have hlen : (s.seen.effective.length : ℚ) ≤ s.effective.length :=
      Nat.cast_le.mpr ht.suffix.length_le
    have hcount := hcounted.2 hleft
    -- what the loop has seen is no later than what there is
    have hlate : s.seen.deadline ≤ s.pending.deadline := ht.seen.mono ht.latest ht.suffix
    have hmax := le_max_right 0 ((s.pending.deadline - s.registeredAt) / 5)
    simp only [State.allowance] at hcount
    simp only [Phase.unchecked, State.limit, Nat.cast_zero]
    linarith
  | block hphase | wake hphase | lapse hphase | answer hphase =>
    rw [hphase] at h
    exact h
  | notLater hextending hlater | push hextending =>
    refine h.trans (add_le_add le_rfl (State.limit_le ?_ hdeadline rfl))
    exact Nat.le_succ _
  | _ => exact h

/-! ### The response -/

/-- A response is there when the event is set, or about to be. -/
def Answered (s : State) : Prop :=
  (s.pending.event = true ∨ ∃ i, s.resolving i = true) → s.pending.response.isSome = true

theorem Answered.step {s s' : State} {l : Label} (h : Answered s) (hstep : Step s l s') :
    Answered s' := by
  cases hstep with
  | write i response hfree => exact fun _ => rfl
  | @set i hwritten => exact fun _ => h (.inr ⟨i, hwritten⟩)
  | _ => exact h

/-- A response comes from a `resolve` call. -/
def Recorded (ls : List Label) (s : State) : Prop :=
  ∀ response, (s.pending.response = some response ∨ s.phase = .answered response) →
    ∃ i, .write i response ∈ ls

theorem Recorded.step {ls : List Label} {s s' : State} {l : Label} (h : Recorded ls s)
    (hstep : Step s l s') : Recorded (ls ++ [l]) s' := by
  have hold : ∀ response, (s.pending.response = some response ∨ s.phase = .answered response) →
      ∃ i, .write i response ∈ ls ++ [l] := by
    intro response hresponse
    obtain ⟨i, hi⟩ := h response hresponse
    exact ⟨i, List.mem_append_left _ hi⟩
  cases hstep with
  | write i response hfree =>
    rintro r (hr | hr)
    · obtain rfl : response = r := Option.some.inj hr
      exact ⟨i, List.mem_append_right _ (List.mem_singleton_self _)⟩
    · exact hold r (.inr hr)
  | answer hphase hresponse =>
    rintro r (hr | hr)
    · exact hold r (.inl hr)
    · obtain rfl := Phase.answered.inj hr
      exact hold _ (.inl hresponse)
  | readDeadline hphase | expire hphase | check hphase | block hphase | wake hphase
  | lapse hphase =>
    rintro r (hr | hr)
    · exact hold r (.inl hr)
    · exact absurd hr (by simp)
  | _ => exact hold

/-! ### Every run -/

/-- **What holds of every state.** -/
structure Reached (ls : List Label) (s : State) : Prop where
  timed : Timed s
  fits : Fits s
  counted : Counted s
  limited : Limited s
  answered : Answered s
  recorded : Recorded ls s

theorem reached_run {now : Seconds} {request : ApprovalRequest} {ls : List Label} {s : State}
    (hrun : Lts.Run (Lts.ofStep step) (State.init now request) ls s) : Reached ls s := by
  refine hrun.inv (I := Reached) ?_ ?_
  · refine ⟨timed_init now request, trivial, ⟨?_, fun _ => ?_⟩, ?_, fun h => ?_, fun r h => ?_⟩
    · simp [State.init, State.allowance]
    · simp [State.init, State.allowance]
    · simp only [Limited, State.init, State.limit, Phase.unchecked, Nat.cast_zero]
      have := le_max_left 0 (((PendingApproval.make now request).deadline - now) / 5)
      simp only [List.length_nil, Nat.cast_zero]
      linarith
    · simp [State.init, PendingApproval.make] at h
    · simp [State.init, PendingApproval.make] at h
  · intro ls s l s' _ h hl
    have hstep := Step.of_step hl
    exact ⟨h.timed.step hstep, h.fits.step h.timed hstep, h.counted.step h.timed h.fits hstep,
      h.limited.step h.timed h.counted h.fits hstep, h.answered.step hstep, h.recorded.step hstep⟩

/-- **The deadline never decreases.** -/
theorem Timed.deadline_mono {s s' : State} {ls : List Label} (h : Timed s)
    (hrun : Lts.Run (Lts.ofStep Wait.step) s ls s') :
    s.pending.deadline ≤ s'.pending.deadline := by
  have hall := hrun.inv_state
    (I := fun a => Timed a ∧ s.pending.deadline ≤ a.pending.deadline) ⟨h, le_rfl⟩
    fun a l b hI hl => ⟨hI.1.step (.of_step hl), hI.2.trans (hI.1.deadline_le (.of_step hl))⟩
  exact hall.2

/-! ### The end -/

/-- How many steps `wait` has left when nothing remains. -/
def Phase.rank : Phase → ℕ
  | .checked _ => 4
  | .blocked _ => 3
  | .top => 2
  | .read _ => 1
  | .woken => 1
  | .timedOut => 0
  | .answered _ => 0

/-- After the deadline, **each step of `wait` brings it nearer to its end**, and no other step
takes it back. -/
theorem rank_step {s s' : State} {l : Label} (hover : s.pending.deadline ≤ s.now) (ht : Timed s)
    (hfits : Fits s) (hstep : Step s l s') :
    s'.phase.rank + (if l.ofWait then 1 else 0) ≤ s.phase.rank := by
  cases hstep with
  | check hphase hleft =>
    rw [Fits, hphase] at hfits
    subst hfits
    have hlate : s.seen.deadline ≤ s.pending.deadline := ht.seen.mono ht.latest ht.suffix
    exact absurd (hlate.trans hover) (not_le.mpr hleft)
  | readDeadline hphase | expire hphase | block hphase | wake hphase | lapse hphase
  | answer hphase =>
    rw [hphase]
    simp [Phase.rank, Label.ofWait]
  | _ => exact le_rfl

theorem returned_of_rank {phase : Phase} (h : phase.rank = 0) : phase.Returned := by
  cases phase with
  | timedOut => trivial
  | answered response => trivial
  | _ => exact absurd h (by simp [Phase.rank])

/-- **Four steps after the deadline `wait` has returned**, if nothing pushes the deadline any
more. -/
theorem returned_of_four {s s' : State} {ls₀ ls : List Label} (h : Reached ls₀ s)
    (hover : s.pending.deadline ≤ s.now)
    (hrun : Lts.Run (Lts.Under (fun _ l => l ≠ .push) (Lts.ofStep step)) s ls s')
    (hfour : 4 ≤ ls.countP Label.ofWait) : s'.phase.Returned := by
  have hall : Timed s' ∧ Fits s' ∧ s'.pending.deadline ≤ s'.now ∧
      s'.phase.rank + ls.countP Label.ofWait ≤ s.phase.rank := by
    refine hrun.inv (I := fun ls a => Timed a ∧ Fits a ∧ a.pending.deadline ≤ a.now ∧
      a.phase.rank + ls.countP Label.ofWait ≤ s.phase.rank) ⟨h.timed, h.fits, hover, le_rfl⟩ ?_
    rintro ls a l b _ ⟨ht, hfits, hnow, hrank⟩ ⟨hpush, hl⟩
    have hstep := Step.of_step hl
    have hless := rank_step hnow ht hfits hstep
    refine ⟨ht.step hstep, hfits.step ht hstep, ?_, ?_⟩
    · cases hstep with
      | tick hd => exact hnow.trans (le_add_of_nonneg_right hd)
      | push hextending => exact absurd rfl hpush
      | _ => exact hnow
    · rw [List.countP_append, List.countP_singleton]
      omega
  have hle : s.phase.rank ≤ 4 := by
    cases s.phase <;> simp [Phase.rank]
  exact returned_of_rank (by omega)

/-- **`wait` never hangs**: within five seconds it can go on. -/
theorem exists_step {s : State} {ls : List Label} (h : Reached ls s) (hout : ¬s.phase.Returned) :
    ∃ d, 0 ≤ d ∧ d ≤ 5 ∧ ∃ l, l.ofWait = true ∧ (step { s with now := s.now + d } l).isSome := by
  have hfits := h.fits
  cases hphase : s.phase with
  | top => exact ⟨0, le_rfl, by norm_num, .readDeadline, rfl, by simp [step]⟩
  | read deadline => exact ⟨0, le_rfl, by norm_num, .readClock, rfl, by simp [step]⟩
  | checked remaining => exact ⟨0, le_rfl, by norm_num, .block, rfl, by simp [step]⟩
  | blocked till =>
    -- `event.wait` gives up within five seconds, whether or not the event is set
    rw [Fits, hphase] at hfits
    have htill : till ≤ s.now + max 0 (till - s.now) := by
      linarith [le_max_right 0 (till - s.now)]
    refine ⟨max 0 (till - s.now), le_max_left .., max_le (by norm_num) ?_, .lapse, rfl, ?_⟩
    · linarith [hfits.2.2]
    · simp [step, htill]
  | woken =>
    rw [Fits, hphase] at hfits
    have hresponse : s.pending.response.isSome = true := h.answered (.inl hfits)
    exact ⟨0, le_rfl, by norm_num, .answer, rfl, by simp [step, hresponse]⟩
  | timedOut =>
    rw [hphase] at hout
    exact absurd trivial hout
  | answered response =>
    rw [hphase] at hout
    exact absurd trivial hout

/-- **`wait` honours every extension and ends.** The deadline never decreases. A time-out comes
no earlier than the time-out that was asked for, and than each extension that had taken effect
when the deadline was read last. Once `event.wait` has returned `True` the response that is
recorded is returned, which is one that a `resolve` call wrote. The loop is begun no more often
than there are five seconds until the deadline, and extensions, and once or twice more; it can
always go on within five seconds; and after a deadline that nothing pushes any more, four steps
are enough. -/
theorem wait_honours {t₀ : Seconds} {request : ApprovalRequest} {ls : List Label} {s : State}
    (hrun : Lts.Run (Lts.ofStep step) (State.init t₀ request) ls s) :
    (∀ ls' s', Lts.Run (Lts.ofStep step) s ls' s' →
      s.pending.deadline ≤ s'.pending.deadline) ∧
    (s.phase = .timedOut → s.seen.clock ≤ s.now ∧
      t₀ + request.timeoutSeconds ≤ s.seen.clock ∧
        ∀ e ∈ s.seen.effective, e.time + e.seconds ≤ s.seen.clock) ∧
    (s.phase = .woken → ∃ response, s.pending.response = some response ∧
      step s .answer = some { s with phase := .answered response }) ∧
    (∀ response, s.phase = .answered response →
      s.pending.event = true ∧ ∃ i, .write i response ∈ ls) ∧
    ((s.iterations : ℚ) ≤
      2 + s.effective.length + max 0 ((s.pending.deadline - t₀) / 5)) ∧
    (¬s.phase.Returned → ∃ d, 0 ≤ d ∧ d ≤ 5 ∧
      ∃ l, l.ofWait = true ∧ (step { s with now := s.now + d } l).isSome) ∧
    (s.pending.deadline ≤ s.now → ∀ ls' s',
      Lts.Run (Lts.Under (fun _ l => l ≠ .push) (Lts.ofStep step)) s ls' s' →
        4 ≤ ls'.countP Label.ofWait → s'.phase.Returned) := by
  have h := reached_run hrun
  -- nothing writes the request or the time of registration
  have hmade : s.registeredAt = t₀ ∧ s.pending.request = request := by
    refine hrun.inv_state (I := fun s => s.registeredAt = t₀ ∧ s.pending.request = request)
      ⟨rfl, rfl⟩ fun a l b hI hl => ?_
    cases Step.of_step hl <;> exact hI
  refine ⟨fun _ _ => h.timed.deadline_mono, fun hphase => ?_, fun hphase => ?_,
    fun response hphase => ?_, ?_, exists_step h, fun hover _ _ => returned_of_four h hover⟩
  · have hfits := h.fits
    rw [Fits, hphase] at hfits
    obtain ⟨htimeout, hall⟩ := (h.timed.seen _).mp hfits
    rw [hmade.1, hmade.2] at htimeout
    exact ⟨h.timed.clock, htimeout, hall⟩
  · have hfits := h.fits
    rw [Fits, hphase] at hfits
    obtain ⟨response, hresponse⟩ := Option.isSome_iff_exists.mp (h.answered (.inl hfits))
    exact ⟨response, hresponse, by simp [step, hphase, hresponse]⟩
  · have hfits := h.fits
    rw [Fits, hphase] at hfits
    exact ⟨hfits, h.recorded response (.inr hphase)⟩
  · have hunchecked : (s.phase.unchecked : ℚ) ≤ 1 := by
      cases s.phase <;> simp [Phase.unchecked]
    have hlimited := h.limited
    rw [Limited, State.limit, hmade.1] at hlimited
    linarith

/-- A hook waits for nine seconds, and its approval is extended by six when the first five of
them are over. -/
def extended : List Label :=
  [.readDeadline, .readClock, .block, .tick 5, .extend 6, .compare, .push, .lapse, .readDeadline,
    .readClock, .block, .tick 5, .lapse, .readDeadline, .readClock, .block, .tick 1, .lapse,
    .readDeadline, .readClock]

/-- **It times out after eleven seconds**, in its fourth iteration. -/
theorem wait_honours_extended :
    ∃ s, Lts.Run (Lts.ofStep step) (State.init 0 ⟨"r1", 9⟩) extended s ∧
      s.phase = .timedOut ∧ s.seen.effective = [⟨5, 6⟩] ∧ 11 ≤ s.seen.clock ∧
      s.iterations = 4 := by
  obtain ⟨s, hrun, htest⟩ := Lts.exists_run_of_exec step (State.init 0 ⟨"r1", 9⟩) extended
    (fun s => s.phase = .timedOut && (s.seen.effective = [⟨5, 6⟩] && s.iterations = 4))
    (by decide +kernel)
  simp only [Bool.and_eq_true, decide_eq_true_eq] at htest
  obtain ⟨hphase, heffective, hiterations⟩ := htest
  have hlast := ((wait_honours hrun).2.1 hphase).2.2 ⟨5, 6⟩ (by simp [heffective])
  exact ⟨s, hrun, hphase, heffective, by linarith, hiterations⟩

end Wait

end Approval

end OtamanBridge
