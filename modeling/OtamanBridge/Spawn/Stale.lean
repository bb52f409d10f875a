import OtamanBridge.Lib.PyInstant
import OtamanBridge.Lib.Utf8
import OtamanBridge.Spawn.Registry

/-!
# Stale sessions

`cleanup_stale` compares texts: the registry keeps what `isoformat` makes of an instant, with
a fraction or without, and SQLite compares it with the cutoff byte by byte. The texts are in
the order of time, so the cleanup takes exactly the sessions whose last heartbeat is before the
cutoff (`OtamanBridge.Registry.cleanupStale_exact`), unless there is no such instant: outside
the years 1 to 9999 it raises before it comes to the table
(`OtamanBridge.Registry.not_cleanupStale_total`).
-/

namespace OtamanBridge

namespace Registry

open Py Sql

/-- `cleanup_stale`, at what `time.time() - stale_threshold_seconds` comes to, which is no
number or one that is rounded to a double: the table after it and what it returns, or nothing
where it raises. -/
def cleanupStale (t : Option Seconds) (table : Table) : Option (Table × ℕ) :=
  (t.bind Utc.fromtimestamp).map fun cutoff => deleteStale cutoff.isoformat table

/-- The last heartbeat of each key. -/
abbrev Beats := Spawn.Key → Option Utc

/-- The last heartbeats after a method was called at an instant: a `claim_session` and a
`heartbeat` that return `True` are one. -/
def Request.beats (now : Utc) (table : Table) (beats : Beats) (request : Request) : Beats :=
  match request with
  | .claimSession key _ _ | .heartbeat key _ =>
    if (request.apply now.isoformat table).1 = .bool true then
      Function.update beats key (some now)
    else beats
  | .isSessioned _ | .releaseSession .. | .cleanupStale _ => beats

/-- A method is called at an instant. -/
def call (s : Table × Beats) (e : Utc × Request) : Table × Beats :=
  ((e.2.apply e.1.isoformat s.1).2, e.2.beats e.1 s.1 s.2)

/-- The table that these calls have built, oldest first, and the last heartbeats. -/
def built (history : List (Utc × Request)) : Table × Beats :=
  history.foldl call ([], fun _ => none)

/-- The last heartbeat is before the cutoff. -/
def stale (beats : Beats) (cutoff : Utc) (row : Row) : Bool := (beats row.key).any (· < cutoff)

/-! ### The rows show their heartbeats -/

/-- The key of every row is its own, and every row shows the last heartbeat of its key. -/
structure Dated (table : Table) (beats : Beats) : Prop where
  unique : Unique Row.key table
  dated : ∀ row ∈ table, ∃ u, beats row.key = some u ∧ row.heartbeatAt = u.isoformat

theorem dated_nil : Dated [] fun _ => none where
  unique := List.nodup_nil
  dated _ h := absurd h List.not_mem_nil

variable {table : Table} {beats : Beats}

/-- A part of the rows. -/
theorem Dated.filter (h : Dated table beats) (p : Row → Bool) :
    Dated (table.filter p) beats where
  unique := h.unique.sublist (List.filter_sublist.map Row.key)
  dated row hrow := h.dated row (List.mem_filter.mp hrow).1

/-- **`claim_session`** puts in a row with the heartbeat of now. -/
theorem Dated.claim (h : Dated table beats) (now : Utc) (key : Spawn.Key)
    (sessionId mode : Text) :
    Dated ((Request.claimSession key sessionId mode).apply now.isoformat table).2
      ((Request.claimSession key sessionId mode).beats now table beats) := by
  by_cases hother : (holder table key).any (· ≠ sessionId)
  · have happly : (Request.claimSession key sessionId mode).apply now.isoformat table =
        (.bool false, table) := if_pos hother
    simp only [Request.beats, happly]
    exact h
  · have happly : (Request.claimSession key sessionId mode).apply now.isoformat table =
        (.bool true, insertOrReplace Row.key table (claimed key sessionId mode now.isoformat)) :=
      if_neg hother
    simp only [Request.beats, happly, if_true]
    refine ⟨h.unique.insertOrReplace _, fun row hrow => ?_⟩
    rcases List.mem_append.mp hrow with hrow | hrow
    · obtain ⟨hold, hne⟩ := List.mem_filter.mp hrow
      have hkey : row.key ≠ key := of_decide_eq_true hne
      rw [Function.update_of_ne hkey]
      exact h.dated row hold
    · obtain rfl := List.mem_singleton.mp hrow
      exact ⟨now, Function.update_self .., rfl⟩

/-- **`heartbeat`** writes the heartbeat of now into the row it finds. -/
theorem Dated.beat (h : Dated table beats) {now : Utc} {text : Text} (htext : text = now.isoformat)
    (key : Spawn.Key) (sessionId : Text) :
    Dated (updateOf key sessionId text table).1
      (if 0 < (updateOf key sessionId text table).2 then Function.update beats key (some now)
      else beats) := by
  refine ⟨h.unique.update (isOf key sessionId) fun _ => rfl, fun row hrow => ?_⟩
  obtain ⟨row, hold, rfl⟩ := List.mem_map.mp hrow
  have hkeyed : ∀ row, isOf key sessionId row → row.key = key := by
    intro row hof
    simp only [isOf, Bool.and_eq_true, decide_eq_true_eq] at hof
    exact hof.1
  by_cases hof : isOf key sessionId row
  · have hcount : 0 < (updateOf key sessionId text table).2 :=
      List.countP_pos_iff.mpr ⟨row, hold, hof⟩
    rw [if_pos hof, if_pos hcount]
    refine ⟨now, ?_, htext⟩
    show Function.update beats key (some now) row.key = some now
    rw [hkeyed row hof, Function.update_self]
  · rw [if_neg hof]
    obtain ⟨u, hu, hbeat⟩ := h.dated row hold
    refine ⟨u, ?_, hbeat⟩
    split_ifs with hcount
    · -- a row of the key that was not updated would be a second one
      obtain ⟨row', hold', hof'⟩ := List.countP_pos_iff.mp hcount
      have hne : row.key ≠ key := by
        intro hkey
        have hsame : some row = some row' := by
          rw [← select_of_mem h.unique hold, ← select_of_mem h.unique hold', hkey,
            hkeyed row' hof']
        exact hof (Option.some.inj hsame ▸ hof')
      rwa [Function.update_of_ne hne]
    · exact hu

theorem Dated.heartbeat (h : Dated table beats) (now : Utc) (key : Spawn.Key)
    (sessionId : Text) :
    Dated ((Request.heartbeat key sessionId).apply now.isoformat table).2
      ((Request.heartbeat key sessionId).beats now table beats) := by
  have hbeats : (Request.heartbeat key sessionId).beats now table beats =
      if 0 < (updateOf key sessionId now.isoformat table).2 then
        Function.update beats key (some now)
      else beats := by
    simp only [Request.beats, Request.apply, Result.bool.injEq, decide_eq_true_eq]
  rw [hbeats]
  exact h.beat rfl key sessionId

theorem Dated.call (h : Dated table beats) (e : Utc × Request) :
    Dated (call (table, beats) e).1 (call (table, beats) e).2 := by
  obtain ⟨now, request⟩ := e
  cases request with
  | isSessioned key => exact h
  | claimSession key sessionId mode => exact h.claim now key sessionId mode
  | releaseSession key sessionId => exact h.filter _
  | heartbeat key sessionId => exact h.heartbeat now key sessionId
  | cleanupStale cutoff => exact h.filter _

/-- **What the calls have built** shows the last heartbeats. -/
theorem dated_built (history : List (Utc × Request)) :
    Dated (built history).1 (built history).2 := by
  induction history using List.reverseRecOn with
  | nil => exact dated_nil
  | append_singleton history e ih =>
    rw [built, List.foldl_append]
    exact ih.call e

/-! ### The cleanup -/

/-- A row is taken for its text exactly if it is stale. -/
theorem Dated.stale_eq (h : Dated table beats) (cutoff : Utc) {row : Row} (hrow : row ∈ table) :
    decide (row.heartbeatAt < cutoff.isoformat) = stale beats cutoff row := by
  obtain ⟨u, hu, hbeat⟩ := h.dated row hrow
  rw [stale, hu, hbeat, Option.any_some]
  exact decide_eq_decide.mpr Utc.isoformat_lt_iff

/-- An instant is written in ASCII, so its text is its bytes. -/
theorem encode_isoformat (u : Utc) : Utf8.encode u.isoformat = some u.isoformat := by
  refine Utf8.encode_of_ascii fun c hc => ?_
  have hlit : ∀ s ∈ ["-", "T", ":", ".", "+00:00"], ∀ c ∈ lit s, c < 0x80 := by decide
  have hpadded : ∀ width n, ∀ c ∈ padded width n, c < 0x80 := fun width n c hc =>
    (mem_padded hc).2.trans_lt (by decide)
  have hfraction : ∀ c ∈ (if u.microsecond = 0 then [] else lit "." ++ padded 6 u.microsecond),
      c < 0x80 := by
    intro c hc
    split_ifs at hc
    · exact absurd hc List.not_mem_nil
    · rcases List.mem_append.mp hc with hc | hc
      · exact hlit _ (by decide) c hc
      · exact hpadded _ _ c hc
  simp only [Utc.isoformat, DateTime.clock, List.mem_append] at hc
  rcases hc with ((((((((((((hc | hc) | hc) | hc) | hc) | hc) | hc) | hc) | hc) | hc) | hc) | hc) |
    hc)
  all_goals
    first
    | exact hpadded _ _ c hc
    | exact hlit _ (by decide) c hc
    | exact hfraction c hc

/-- **A cleanup is exact**: of what any calls have built it takes the sessions whose last
heartbeat is before the cutoff, leaves the others as they are and returns how many it took,
unless the cutoff is no instant. The order of the bytes is the order of time. -/
theorem cleanupStale_exact (history : List (Utc × Request)) (t : Option Seconds) :
    (cleanupStale t (built history).1 = (t.bind Utc.fromtimestamp).map fun cutoff =>
      ((built history).1.filter fun row => !stale (built history).2 cutoff row,
        (built history).1.countP (stale (built history).2 cutoff))) ∧
      ∀ u v : Utc, Utf8.encode u.isoformat = some u.isoformat ∧
        (u.isoformat < v.isoformat ↔ u < v) := by
  refine ⟨?_, fun u v => ⟨encode_isoformat u, Utc.isoformat_lt_iff⟩⟩
  have hdated := dated_built history
  rw [cleanupStale]
  congr 1
  funext cutoff
  refine Prod.ext (List.filter_congr fun row hrow => ?_) (List.countP_congr fun row hrow => ?_)
  · exact congrArg (!·) (hdated.stale_eq cutoff hrow)
  · exact (Bool.eq_iff_iff.mp (hdated.stale_eq cutoff hrow))

/-- A threshold of more years than there have been: nothing is stale, and yet nothing is
returned. -/
theorem not_cleanupStale_total : ¬∀ (history : List (Utc × Request)) (time threshold : Seconds),
    ∃ kept n, cleanupStale (some (time - threshold)) (built history).1 = some (kept, n) := by
  intro h
  obtain ⟨kept, n, hsome⟩ := h [] 1779105600 1000000000000
  have hnone : cleanupStale (some (1779105600 - 1000000000000)) (built []).1 = none := by
    decide +kernel
  rw [hnone] at hsome
  exact absurd hsome (by simp)

end Registry

end OtamanBridge
