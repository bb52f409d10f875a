import Mathlib.Tactic.Linarith
import OtamanBridge.Approval.Invariants

/-!
# A snooze and the hook that waits for it

Two clocks run on one approval. The daemon waits until a deadline, which every
accepted snooze pushes to fifteen and a half minutes from now. The hook client gives
up on its socket fifteen seconds after the timeout it asked for, counted from its
post, and no snooze tells it anything. This module computes the deadline of every
reachable state in closed form and derives from it exactly when the hook still waits
wherever the daemon would still take a decision.
-/

namespace OtamanBridge

namespace Approval

variable {cfg : Config} {ls : List Label} {s s' : State} {l : Label}

/-- `extend_by` takes the later of the two deadlines. -/
theorem PendingApproval.extendBy_deadline_le_iff (p : PendingApproval)
    (now seconds d : Seconds) :
    (p.extendBy now seconds).deadline ≤ d ↔ p.deadline ≤ d ∧ now + seconds ≤ d := by
  unfold extendBy
  split
  · next hlt => exact ⟨fun h => ⟨hlt.le.trans h, h⟩, And.right⟩
  · next hge => exact ⟨fun h => ⟨h, (not_lt.mp hge).trans h⟩, And.left⟩

/-! ### The deadline of a reachable state -/

/-- The deadline is the latest of the timeout and the accepted snoozes. -/
def Call.DeadlineIs (k : Call) : Prop :=
  ∀ d, k.pending.deadline ≤ d ↔ k.builtAt + k.request.timeoutSeconds ≤ d ∧
    ∀ t ∈ k.snoozedAt, t + (snoozeSeconds + 30) ≤ d

/-- A call keeps its deadline, and is not snoozed before it is registered. -/
def Call.Timed (k : Call) : Prop :=
  k.DeadlineIs ∧ (¬k.phase.Registered → k.snoozedAt = [])

theorem CallChange.timed (hw : Wf s) {c : CallId} {k k' : Call} (hk : s.calls c = some k)
    (h : CallChange s c k l k') (ht : k.Timed) : k'.Timed := by
  obtain ⟨hd, hfresh⟩ := ht
  cases h with
  | move hm =>
    cases hm with
    | build hp =>
      -- the object is made again, before anybody could find it
      have hnil : k.snoozedAt = [] := hfresh (by rw [hp]; exact id)
      refine ⟨fun d => ?_, fun _ => hnil⟩
      simp [PendingApproval.make, hnil]
    | _ => exact ⟨hd, fun hreg => absurd trivial hreg⟩
  | register => exact ⟨hd, fun hreg => absurd trivial hreg⟩
  | leaveFailing | leaveAnswered => exact ⟨hd, fun hreg => absurd trivial hreg⟩
  | @snoozeExtend i z hz hp =>
    obtain ⟨k₀, hk₀, hreg, -⟩ := hw.snooze hz (by rw [hp]; rfl)
    obtain rfl := Option.some.inj (hk.symm.trans hk₀)
    refine ⟨fun d => ?_, fun hno => absurd hreg hno⟩
    rw [PendingApproval.extendBy_deadline_le_iff, hd d]
    simp only [List.mem_append, List.mem_singleton]
    constructor
    · rintro ⟨⟨hb, hall⟩, hnow⟩
      refine ⟨hb, ?_⟩
      rintro t (ht | rfl)
      · exact hall t ht
      · exact hnow
    · rintro ⟨hb, hall⟩
      exact ⟨⟨hb, fun t ht => hall t (.inl ht)⟩, hall _ (.inr rfl)⟩
  | _ => exact ⟨hd, hfresh⟩

/-- **The deadline of every call of every run.** -/
theorem Reaches.timed (h : Reaches cfg ls s) {c : CallId} {k : Call}
    (hk : s.calls c = some k) : k.Timed := by
  refine Lts.Run.inv (I := fun _ s => ∀ c k, s.calls c = some k → k.Timed) ?_ ?_ h c k hk
  · intro c k hk
    simp [State.init] at hk
  · intro ls s l s' hrun ih hl c k' hk'
    have hs := Step.of_step hl
    rcases hk : s.calls c with _ | k
    · obtain ⟨-, _, _, _, -, -, rfl⟩ := hs.call_new hk hk'
      exact ⟨fun d => by simp [PendingApproval.make], fun _ => rfl⟩
    · obtain ⟨k'', hk'', hch⟩ := hs.call hk
      obtain rfl := Option.some.inj (hk''.symm.trans hk')
      exact hch.timed (Reaches.wf hrun) hk (ih c k hk)

/-! ### The hook -/

/-- When the socket of the hook that posted the request times out. -/
def Call.hookGivesUpAt (k : Call) : Seconds :=
  k.postedAt + (k.request.timeoutSeconds + 15)

/-- The hook still waits for its answer at this reading. -/
def Call.HookWaits (k : Call) (d : Seconds) : Prop :=
  d < k.hookGivesUpAt

/-- **A snooze does not outlive the hook**: whenever a snoozed approval is decided
before its deadline, the hook that asked still waits. -/
def Call.SnoozeInTime (k : Call) : Prop :=
  ∀ d, (∃ t ∈ k.snoozedAt, t ≤ d) → d < k.pending.deadline → k.HookWaits d

/-- A deadline that a snooze pushed is after that snooze. -/
theorem Call.Timed.snoozed_lt {k : Call} (ht : k.Timed) {t : Seconds}
    (hmem : t ∈ k.snoozedAt) : t < k.pending.deadline := by
  have hle := ((ht.1 k.pending.deadline).mp le_rfl).2 t hmem
  have hpos : (0 : Seconds) < snoozeSeconds + 30 := by norm_num [snoozeSeconds]
  linarith

/-- A snoozed call is in time exactly when the hook gives up at its deadline or
after. -/
theorem Call.Timed.snoozeInTime_iff_deadline {k : Call} (ht : k.Timed) {t : Seconds}
    (hmem : t ∈ k.snoozedAt) : k.SnoozeInTime ↔ k.pending.deadline ≤ k.hookGivesUpAt := by
  constructor
  · intro hin
    by_contra hlt
    rw [not_le] at hlt
    -- a decision at the last of the snooze and the end of the hook comes too late
    have hwaits : max t k.hookGivesUpAt < k.hookGivesUpAt :=
      hin _ ⟨t, hmem, le_max_left ..⟩ (max_lt (ht.snoozed_lt hmem) hlt)
    exact absurd (le_max_right t k.hookGivesUpAt) (not_le.mpr hwaits)
  · intro hle d _ hd
    exact lt_of_lt_of_le hd hle

/-- **When a snooze does not outlive the hook.** In every state a daemon reaches, a
snoozed approval is in time exactly when each snooze was accepted fifteen minutes and
fifteen seconds before the timeout the hook asked for, and the daemon had made the
object within fifteen seconds of the post. -/
theorem snoozeInTime_iff {c : CallId} {k : Call} (h : Reaches cfg ls s)
    (hk : s.calls c = some k) :
    k.SnoozeInTime ↔ ∀ t ∈ k.snoozedAt,
      t + (snoozeSeconds + 15) ≤ k.postedAt + k.request.timeoutSeconds ∧
      k.builtAt ≤ k.postedAt + 15 := by
  have ht := h.timed hk
  constructor
  · intro hin t hmem
    have hle := (ht.snoozeInTime_iff_deadline hmem).mp hin
    obtain ⟨hbuilt, hsnoozed⟩ := (ht.1 _).mp hle
    have hlast := hsnoozed t hmem
    unfold Call.hookGivesUpAt at hbuilt hlast
    constructor <;> linarith
  · rintro hall d ⟨t, hmem, htd⟩ hd
    refine (ht.snoozeInTime_iff_deadline hmem).mpr ?_ d ⟨t, hmem, htd⟩ hd
    refine (ht.1 _).mpr ⟨?_, fun u hu => ?_⟩
    · have := (hall t hmem).2
      unfold Call.hookGivesUpAt
      linarith
    · have := (hall u hu).1
      unfold Call.hookGivesUpAt
      linarith

/-- A call with this timeout, snoozed as soon as its card is out. -/
def snoozedAtOnce (timeout : Seconds) : List Label :=
  [.postApproval 0 (some ⟨[], none, []⟩) 0 ⟨"r1", timeout⟩, .move 0 .build, .register 0,
    .sendPosts 0 0, .move 0 .sendReturned, .move 0 .block, .callback 7 "S|r1", .listen 0,
    .snoozeLook 0, .snoozeExtend 0, .snoozeSchedule 0 0, .update 0 true]

/-- A hook that asks for twenty minutes can be snoozed at once. -/
theorem snoozeInTime_iff_twentyMinutes :
    ∃ s k, Reaches ⟨[7]⟩ (snoozedAtOnce 1200) s ∧ s.calls 0 = some k ∧ k.snoozedAt = [0] ∧
      k.SnoozeInTime := by
  obtain ⟨s, hrun, hs⟩ := Lts.exists_run_of_exec (step ⟨[7]⟩) State.init (snoozedAtOnce 1200)
    (fun s => (s.calls 0).any fun k => k.snoozedAt = [0] ∧ k.postedAt = 0 ∧ k.builtAt = 0 ∧
      k.request.timeoutSeconds = 1200) (by decide +kernel)
  obtain ⟨k, hk, hsnoozed, hpost, hbuilt, hT⟩ : ∃ k, s.calls 0 = some k ∧ k.snoozedAt = [0] ∧
      k.postedAt = 0 ∧ k.builtAt = 0 ∧ k.request.timeoutSeconds = 1200 := by
    simpa [Option.any_eq_true] using hs
  refine ⟨s, k, hrun, hk, hsnoozed, (snoozeInTime_iff hrun hk).mpr ?_⟩
  simp only [hsnoozed, hpost, hbuilt, hT, List.mem_singleton, forall_eq, snoozeSeconds]
  norm_num

/-- The card comes back after a quarter of an hour and is approved. -/
def approvedAfterRepost : List Label :=
  [.tick 900, .move 0 .poll, .move 0 .block, .repostWakes 0, .repostPosts 0 1, .repostStores 0,
    .tick 910, .callback 7 "A|r1", .listen 1, .look 1, .write 1, .set 1, .move 0 .wake, .leave 0]

/-- **With the default timeout a snooze outlives the hook**: nine minutes are asked
for, the card is snoozed at once, and approved when it comes back; the call returns
`allow`, to a hook that gave up almost six minutes before. -/
theorem not_snoozeInTime_default :
    ∃ s k, Reaches ⟨[7]⟩ (snoozedAtOnce 540 ++ approvedAfterRepost) s ∧
      s.calls 0 = some k ∧ k.phase = .returned ⟨.allow, "r1", "telegram:7", ""⟩ ∧
      ¬k.HookWaits s.now ∧ ¬k.SnoozeInTime := by
  obtain ⟨s, hrun, hs⟩ := Lts.exists_run_of_exec (step ⟨[7]⟩) State.init
    (snoozedAtOnce 540 ++ approvedAfterRepost)
    (fun s => s.now = 910 ∧ (s.calls 0).any fun k => k.snoozedAt = [0] ∧ k.postedAt = 0 ∧
      k.request.timeoutSeconds = 540 ∧ k.pending.deadline = 930 ∧
      k.phase = .returned ⟨.allow, "r1", "telegram:7", ""⟩) (by decide +kernel)
  obtain ⟨hnow, k, hk, hsnoozed, hpost, hT, hdl, hp⟩ : s.now = 910 ∧ ∃ k, s.calls 0 = some k ∧
      k.snoozedAt = [0] ∧ k.postedAt = 0 ∧ k.request.timeoutSeconds = 540 ∧
      k.pending.deadline = 930 ∧ k.phase = .returned ⟨.allow, "r1", "telegram:7", ""⟩ := by
    simpa [Option.any_eq_true] using hs
  have hgone : ¬k.HookWaits 910 := by
    norm_num [Call.HookWaits, Call.hookGivesUpAt, hpost, hT]
  refine ⟨s, k, hrun, hk, hp, hnow ▸ hgone, fun hin => hgone (hin 910 ⟨0, ?_, ?_⟩ ?_)⟩
  · rw [hsnoozed]
    exact List.mem_singleton_self 0
  · norm_num
  · norm_num [hdl]

end Approval

end OtamanBridge
