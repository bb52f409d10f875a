import OtamanBridge.Inbox.Race

/-!
# When `mark_read` does what it counts

`_atomic_set_read_at` says of itself that it updates the line of the header, in place and
atomically. It replaces the first line of the file that starts with `read_at:`, and it writes
by way of a file that all calls for this message share. In inboxes that the store has made this
is right exactly if that line is the field's own, and the calls take turns at that file
(`OtamanBridge.Inbox.marksExactly_iff`).

A subject with a line separator in it brings a line into the header that starts with
`read_at:`; and two calls for one message, where one opens the file and the other renames it,
leave the message file empty.
-/

namespace OtamanBridge

namespace Inbox

open Py Posix

variable {h : Host} {s : History} {ops : List Op} {dir : Place Text} {userId messageId : Text}

/-- The inbox of a user, for calls at one time. -/
theorem Ledger.setting (hl : Ledger h ops s) (hdir : activeDir h userId = .ok dir)
    {T : Type*} {calls : T → Race.Request} (hnow : ∀ c, (calls c).now < 253402300800) :
    Race.Setting calls s.disk dir where
  md n hn := by
    obtain ⟨content, hread⟩ := hn
    exact (hl.only userId dir n content hdir hread).2.1.1
  headed n := by
    rcases hread : s.disk.read (n :: dir) with _ | content
    · exact .inl (by rw [Race.textAt, hread])
    · obtain ⟨-, -, rfl | ⟨m, hm, rfl, rfl⟩⟩ := hl.only userId dir n content hdir hread
      · exact .inl (Race.textAt_of_read hread)
      · obtain ⟨-, dir', raw, hdir', hraw, hversion⟩ := hl.filed m hm
        obtain rfl := Except.ok.inj (hdir'.symm.trans hdir)
        rw [Race.textAt_of_read hraw]
        exact .inr hversion.headed
  length c := (DateTime.fits_ofTimestamp (hnow c)).length_iso

/-- **When `mark_read` marks exactly what it counts**, in inboxes that the store has made and
for a message file of them: exactly if it can be read, and in each file that is to be marked
the line that is written over is the field's own. And calls that run at one time lose or
truncate no message file as long as none of them renames a file that another has emptied; nor
have they done so, in whatever order they went, when each has written what it has opened. -/
theorem marksExactly_iff (hp : Produced h ops s) (hdir : activeDir h userId = .ok dir)
    (hid : fileName messageId ∈ s.disk.names dir)
    (htmp : ∀ n ∈ s.disk.names dir, h.accepts (tmpName n)) (now : ℕ) (markAll : Bool) :
    (MarksExactly h now s.disk dir userId messageId markAll ↔
      (∃ target, messageAt s.disk dir (fileName messageId) = some target) ∧
        ∀ n m raw, Chosen s.disk dir messageId markAll n m →
          s.disk.read (n :: dir) = some (.text raw) → OwnLine raw) ∧
    ∀ (T : Type) [DecidableEq T] (calls : T → Race.Request),
      (∀ c, (calls c).now < 253402300800) → ∀ ls r,
        (Lts.Run (Lts.Under Race.Settled (Lts.ofStep (Race.step h dir calls)))
          (Race.start T s.disk dir) ls r → Race.Whole calls s.disk dir r) ∧
        (Lts.Run (Lts.ofStep (Race.step h dir calls)) (Race.start T s.disk dir) ls r →
          (∀ c, (r.phase c).held = none) → Race.Whole calls s.disk dir r) := by
  have hl := hp.ledger
  refine ⟨marksExactly_iff_ownLine hl hdir hid htmp, ?_⟩
  intro T _ calls hnow ls r
  have hset := hl.setting hdir hnow
  exact ⟨hset.whole_of_settled, hset.whole_of_written⟩

/-! ### A message that is marked, and one that is not -/

/-- The id of a note with the subject `s`. -/
def plainId : Text := lit "20260518T120000Z-user-A-s"

/-- A subject with a line break in it, and the id of a note with it. -/
def brokenSubject : Text := lit "x\nread_at: y"

def brokenId : Text := lit "20260518T120000Z-user-A-x-read_at-y"

/-- The lines of a note before the one that marking writes over, and after it. -/
def plainHead : List Text × List Text :=
  (["id: 20260518T120000Z-user-A-s", "from_user: user-A", "from_email: \"a@example\"",
    "to_user: user-B", "subject: s", "sent_at: \"2026-05-18T12:00:00Z\""].map lit,
    ["in_reply_to: null", "priority: normal", "type: chat"].map lit)

/-- The file of the note. -/
def plainText : Text :=
  joinLines (lit "---" :: plainHead.1 ++ lit "read_at: null" :: plainHead.2 ++
    ["---", "", "hi", ""].map lit)

theorem read_plainText :
    (oneNote (lit "s")).disk.read (fileName plainId :: inboxB) = some (.text plainText) := by
  decide +kernel

theorem ownLine_plainText : OwnLine plainText := by
  refine ⟨plainHead.1, lit "read_at: null", plainHead.2, by decide +kernel, by decide +kernel,
    by decide +kernel, by decide +kernel, ?_⟩
  unfold SameFields
  decide +kernel

/-- Two calls for the note with this id. -/
def bothMark (messageId : Text) (_ : Bool) : Race.Request where
  messageId := messageId
  markAll := false
  now := 1779105601

/-- The steps of two calls that take turns at the file beside the message file. -/
def inTurn : List (Race.Label Bool) :=
  ([true, true, false, false] ++ [true, true, true, true] ++ [false, false, false, false]).map
    (⟨·, []⟩)

/-- The header of the note is what it should be; and two calls that take turns mark it. -/
theorem marksExactly_note :
    MarksExactly someHost 1779105601 (oneNote (lit "s")).disk inboxB (lit "user-B")
      plainId false ∧
    ∃ r, (∀ c, r.phase c = .over) ∧
      Race.Whole (bothMark plainId) (oneNote (lit "s")).disk inboxB r := by
  have hid : fileName plainId ∈ (oneNote (lit "s")).disk.names inboxB := by
    decide +kernel
  obtain ⟨hiff, hruns⟩ := marksExactly_iff (produced_oneNote (lit "s")) activeDir_userB hid
    (fun _ _ => rfl) 1779105601 false
  constructor
  · refine hiff.mpr ⟨Option.isSome_iff_exists.mp (by decide +kernel),
      fun n m raw hchosen hraw => ?_⟩
    obtain ⟨-, -, rfl⟩ := hchosen
    rw [Content.text.inj (Option.some.inj (hraw.symm.trans read_plainText))]
    exact ownLine_plainText
  · obtain ⟨r, hrun, hr⟩ := Lts.exists_under_run_of_exec
      (Race.step someHost inboxB (bothMark plainId)) (C := Race.Settled)
      (fun s l => decide (Race.Settled s l)) (fun _ _ => of_decide_eq_true)
      (Race.start Bool (oneNote (lit "s")).disk inboxB) inTurn
      (fun r => decide (∀ c, r.phase c = .over)) (by decide +kernel)
    exact ⟨r, of_decide_eq_true hr, (hruns Bool _ (by decide) _ _).1 hrun⟩

/-- The steps of two calls, of which one opens the file beside the message file before the
other renames it. -/
def acrossEachOther : List (Race.Label Bool) :=
  ([true, true, false, false] ++ [true, true] ++ [false] ++ [true]).map (⟨·, []⟩)

/-- **A subject with a line break** has a line that starts with `read_at:`: the note is counted,
and stays unread. And two calls for one note leave its file empty. -/
theorem not_marksExactly :
    (∃ ops s dir messageId, Produced someHost ops s ∧
      activeDir someHost (lit "user-B") = .ok dir ∧ fileName messageId ∈ s.disk.names dir ∧
      (markRead someHost 1779105601 s.disk (lit "user-B") messageId false).2 = .ok 1 ∧
      ¬MarksExactly someHost 1779105601 s.disk dir (lit "user-B") messageId false) ∧
    ∃ ops s dir, ∃ calls : Bool → Race.Request, ∃ ls r, Produced someHost ops s ∧
      activeDir someHost (lit "user-B") = .ok dir ∧
      Lts.Run (Lts.ofStep (Race.step someHost dir calls)) (Race.start Bool s.disk dir) ls r ∧
      ¬Race.Whole calls s.disk dir r := by
  constructor
  · refine ⟨_, oneNote brokenSubject, inboxB, brokenId,
      produced_oneNote _, activeDir_userB, by decide +kernel, by decide +kernel, ?_⟩
    intro hexact
    obtain ⟨m, hm⟩ : ∃ m, messageAt (oneNote brokenSubject).disk inboxB
        (fileName brokenId) = some m :=
      Option.isSome_iff_exists.mp (by decide +kernel)
    have hunread : ∀ m ∈ messageAt (oneNote brokenSubject).disk inboxB (fileName brokenId),
        m.readAt = none := by
      decide +kernel
    have hstill : ∀ m ∈ messageAt (markRead someHost 1779105601 (oneNote brokenSubject).disk
        (lit "user-B") brokenId false).1 inboxB (fileName brokenId), m.readAt = none := by
      decide +kernel
    have hmarked := hexact.marked _ m ⟨hm, hunread m hm, rfl⟩
    exact absurd (hstill _ hmarked) (by simp)
  · obtain ⟨r, hrun, hr⟩ := Lts.exists_run_of_exec
      (Race.step someHost inboxB (bothMark plainId))
      (Race.start Bool (oneNote (lit "s")).disk inboxB) acrossEachOther
      (fun r => (r.links (fileName plainId)).all fun i => r.data i = [])
      (by decide +kernel)
    refine ⟨_, oneNote (lit "s"), inboxB, _, _, r, produced_oneNote _, activeDir_userB, hrun, ?_⟩
    intro hwhole
    obtain ⟨i, hi, hdata⟩ := hwhole _ _ read_plainText
    have hnil : r.data i = [] := by
      rw [hi] at hr
      exact of_decide_eq_true hr
    rw [hnil] at hdata
    rcases hdata with hplain | ⟨c, hmarked⟩
    · exact absurd hplain (by decide +kernel)
    · revert hmarked
      revert c
      decide +kernel

end Inbox

end OtamanBridge
