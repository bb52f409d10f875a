import OtamanBridge.Dcr.FindOrCreate
import OtamanBridge.Lib.PyFloat

/-!
# The sweep of orphaned applications

`sweep_orphans` of `dcr_shim.py` with `is_managed_app`, `app_age_seconds` and `delete_app`,
on whatever records the IdP lists. The first loop reads each record, and skips the ones that
are not managed, say no age or are young enough; the second asks for the rest to be deleted,
one by one, and goes on after a refusal. What it asks for is just what is orphaned, each
record once (`OtamanBridge.Dcr.Sweep.sweepOrphans_exact`).
-/

namespace OtamanBridge

namespace Dcr

namespace Sweep

open Py

open FindOrCreate (MgmtError)

/-! ### One record -/

/-- An aware or naive `datetime`: what its clock shows, in microseconds, and how far the clock
is ahead of UTC. -/
structure Moment where
  clock : ℤ
  offset : Option ℤ

/-- The instant, where a naive `datetime` is one of UTC. -/
def Moment.instant (m : Moment) : ℤ := m.clock - m.offset.getD 0

/-- What `str` makes of a value that is no string, and `datetime.fromisoformat` of a text, if
it does not raise a `ValueError`. -/
structure Python where
  str : Value → Text
  fromisoformat : Text → Option Moment

/-- `int(delta.total_seconds())` of so many microseconds. -/
def wholeSeconds (micros : ℤ) : ℤ := trunc (nearest (micros / 1000000))

variable (py : Python)

/-- `str(app.get("name", ""))`. -/
def nameOf (app : Value) : Text :=
  match app.get "name" with
  | none => []
  | some (.str t) => t
  | some v => py.str v

/-- `is_managed_app`. A record that is no object has no `get`. -/
def isManagedApp (namePrefix : Text) (app : Value) : Except Unit Bool :=
  if namePrefix = [] then .ok false
  else
    match app with
    | .dict _ => .ok (namePrefix.isPrefixOf (nameOf py app))
    | _ => .error ()

/-- The text of `details.creationDate`, stripped. What is there and is neither an object nor a
string has no `get` and no `strip`. -/
def creationDate (app : Value) : Except Unit Text :=
  match (app.get "details").filter Value.truthy with
  | none => .ok []
  | some (.dict items) =>
    match ((Value.dict items).get "creationDate").filter Value.truthy with
    | none => .ok []
    | some (.str t) => .ok (strip t)
    | some _ => .error ()
  | some _ => .error ()

/-- A final `Z` is written as an offset. -/
def isoNorm (iso : Text) : Text :=
  if iso.getLast? = some 'Z'.toNat then iso.dropLast ++ lit "+00:00" else iso

/-- When the application was made, if the text says. -/
def parsed (iso : Text) : Option Moment :=
  if iso = [] then none else py.fromisoformat (isoNorm iso)

/-- `app_age_seconds`. -/
def appAgeSeconds (now : ℤ) (app : Value) : Except Unit (Option ℤ) :=
  (creationDate app).map fun iso => (parsed py iso).map fun m => wholeSeconds (now - m.instant)

/-- `app.get("id", "")`. -/
def appId (app : Value) : Value := (app.get "id").getD (.str [])

/-! ### The sweep -/

/-- `SweepReport`. -/
structure SweepReport where
  found : ℕ := 0
  eligible : ℕ := 0
  deleted : ℕ := 0
  failed : ℕ := 0
  deletedIds : List Value := []
  failedIds : List Value := []

/-- The first loop, from the record with this number on: how many are managed, and the ids of
those that are eligible. The clock is read for each record. -/
def inspect (namePrefix : Text) (ttlSeconds : ℤ) (now : ℕ → ℤ) :
    ℕ → List Value → Except Unit (ℕ × List Value)
  | _, [] => .ok (0, [])
  | i, app :: apps => do
    if ← isManagedApp py namePrefix app then
      let age ← appAgeSeconds py (now i) app
      let (found, eligible) ← inspect namePrefix ttlSeconds now (i + 1) apps
      if age.any (ttlSeconds < ·) then return (found + 1, appId app :: eligible)
      else return (found + 1, eligible)
    else inspect namePrefix ttlSeconds now (i + 1) apps

/-- `delete_app`, where the IdP answers or raises: what is gone is deleted. -/
def deleteApp : Option MgmtError → Except MgmtError Unit
  | none => .ok ()
  | some e => if e.status = some 404 then .ok () else .error e

/-- The second loop: the ids it asks to be deleted, those that are, and those that are not. -/
structure Deletions where
  asked : List Value
  deleted : List Value
  failed : List Value

/-- The second loop. The IdP replies to one request after the other. -/
def deleteAll (dryRun : Bool) (replies : ℕ → Option MgmtError) : ℕ → List Value → Deletions
  | _, [] => ⟨[], [], []⟩
  | n, id :: ids =>
    if id.truthy then
      if dryRun then
        let rest := deleteAll dryRun replies n ids
        { rest with deleted := id :: rest.deleted }
      else
        let rest := deleteAll dryRun replies (n + 1) ids
        match deleteApp (replies n) with
        | .ok () => ⟨id :: rest.asked, id :: rest.deleted, rest.failed⟩
        | .error _ => ⟨id :: rest.asked, rest.deleted, id :: rest.failed⟩
    else deleteAll dryRun replies n ids

/-- `sweep_orphans`: the ids that were asked to be deleted, and the report. -/
def sweepOrphans (namePrefix : Text) (ttlSeconds : ℤ) (dryRun : Bool) (now : ℕ → ℤ)
    (replies : ℕ → Option MgmtError) (apps : List Value) :
    Except Unit (List Value × SweepReport) :=
  if ttlSeconds ≤ 0 then .ok ([], {})
  else do
    let (found, eligible) ← inspect py namePrefix ttlSeconds now 0 apps
    let r := deleteAll dryRun replies 0 eligible
    return (r.asked, ⟨found, eligible.length, r.deleted.length, r.failed.length, r.deleted,
      r.failed⟩)

/-! ### What is to be deleted -/

/-- A record as the IdP writes it: an object, whose details are an object and whose creation
date is a string, where they are there. -/
structure Readable (app : Value) : Prop where
  object : ∃ items, app = .dict items
  details : ∀ v, app.get "details" = some v → v.truthy → ∃ items, v = .dict items
  created : ∀ items v, app.get "details" = some (.dict items) →
    (Value.dict items).get "creationDate" = some v → v.truthy → ∃ t, v = .str t

/-- The text of the creation date. -/
def createdText (app : Value) : Text :=
  match (app.get "details").bind fun v => v.get "creationDate" with
  | some (.str t) => strip t
  | _ => []

/-- The application is managed, says when it was made, and is older than that. -/
def Old (namePrefix : Text) (ttlSeconds now : ℤ) (app : Value) : Prop :=
  namePrefix <+: nameOf py app ∧
    ∃ m ∈ parsed py (createdText app), ttlSeconds < wholeSeconds (now - m.instant)

instance (namePrefix : Text) (ttlSeconds now : ℤ) (app : Value) :
    Decidable (Old py namePrefix ttlSeconds now app) := inferInstanceAs (Decidable (_ ∧ _))

/-- The ids of the orphans, in the order of the list: the records that are old and have an
id. -/
def orphans (namePrefix : Text) (ttlSeconds : ℤ) (now : ℕ → ℤ) (apps : List Value) :
    List Value :=
  (apps.zipIdx.filter fun x =>
    Old py namePrefix ttlSeconds (now x.2) x.1 ∧ (appId x.1).truthy).map fun x => appId x.1

/-- The requests that the IdP grants: those it answers, and those for what is gone. -/
def granted (replies : ℕ → Option MgmtError) (n : ℕ) : Bool :=
  (replies n).all fun e => e.status = some 404

variable {py} {namePrefix : Text} {ttlSeconds : ℤ} {now : ℕ → ℤ}
  {replies : ℕ → Option MgmtError} {apps : List Value} {app : Value}

/-! ### The first loop -/

theorem filter_truthy {v : Value} (h : v.truthy) : (some v).filter Value.truthy = some v := by
  simp [Option.filter, h]

theorem filter_falsy {v : Value} (h : ¬v.truthy) : (some v).filter Value.truthy = none := by
  simp [Option.filter, h]

theorem creationDate_eq (h : Readable app) : creationDate app = .ok (createdText app) := by
  rcases hd : app.get "details" with _ | v
  · rw [creationDate, createdText, hd]
    rfl
  by_cases hv : v.truthy
  · obtain ⟨items, rfl⟩ := h.details v hd hv
    rw [creationDate, createdText, hd, filter_truthy hv]
    simp only [Option.bind_some]
    rcases hc : (Value.dict items).get "creationDate" with _ | w
    · rfl
    by_cases hw : w.truthy
    · obtain ⟨t, rfl⟩ := h.created items w hd hc hw
      rw [filter_truthy hw]
    · rw [filter_falsy hw]
      cases w with
      | str t =>
        obtain rfl : t = [] := by simpa [Value.truthy] using hw
        rfl
      | _ => rfl
  · rw [creationDate, createdText, hd, filter_falsy hv]
    cases v with
    | dict items =>
      obtain rfl : items = [] := by simpa [Value.truthy] using hv
      rfl
    | _ => rfl

theorem isManagedApp_eq (hne : namePrefix ≠ []) (h : Readable app) :
    isManagedApp py namePrefix app = .ok (namePrefix.isPrefixOf (nameOf py app)) := by
  obtain ⟨items, rfl⟩ := h.object
  rw [isManagedApp, if_neg hne]

/-- **What the first loop finds eligible**: the old ones. -/
theorem inspect_eq (hne : namePrefix ≠ []) (happs : ∀ app ∈ apps, Readable app) (i : ℕ) :
    ∃ found, inspect py namePrefix ttlSeconds now i apps = .ok (found,
      ((apps.zipIdx i).filter fun x => Old py namePrefix ttlSeconds (now x.2) x.1).map
        fun x => appId x.1) := by
  induction apps generalizing i with
  | nil => exact ⟨0, rfl⟩
  | cons app apps ih =>
    obtain ⟨found, hrest⟩ := ih (fun x hx => happs x (List.mem_cons_of_mem _ hx)) (i + 1)
    have happ := happs app List.mem_cons_self
    have hage : appAgeSeconds py (now i) app = .ok ((parsed py (createdText app)).map
        fun m => wholeSeconds (now i - m.instant)) := by
      rw [appAgeSeconds, creationDate_eq happ]
      rfl
    rw [List.zipIdx_cons, List.filter_cons]
    by_cases hmanaged : namePrefix.isPrefixOf (nameOf py app)
    · by_cases hold : ((parsed py (createdText app)).map
          fun m => wholeSeconds (now i - m.instant)).any (ttlSeconds < ·)
      · have : Old py namePrefix ttlSeconds (now i) app := by
          refine ⟨List.isPrefixOf_iff_prefix.mp hmanaged, ?_⟩
          rw [Option.any_map] at hold
          obtain ⟨m, hm, hlt⟩ := (Option.any_eq_true ..).mp hold
          exact ⟨m, hm, of_decide_eq_true hlt⟩
        refine ⟨found + 1, ?_⟩
        simp only [inspect, isManagedApp_eq hne happ, hmanaged, hage, hrest]
        simp [hold, this, bind, Except.bind, pure, Except.pure]
      · have : ¬Old py namePrefix ttlSeconds (now i) app := by
          rintro ⟨-, m, hm, hlt⟩
          refine hold ?_
          rw [Option.mem_def.mp hm]
          exact decide_eq_true hlt
        refine ⟨found + 1, ?_⟩
        simp only [inspect, isManagedApp_eq hne happ, hmanaged, hage, hrest]
        simp [hold, this, bind, Except.bind, pure, Except.pure]
    · have : ¬Old py namePrefix ttlSeconds (now i) app :=
        fun hold => hmanaged (List.isPrefixOf_iff_prefix.mpr hold.1)
      refine ⟨found, ?_⟩
      simp only [inspect, isManagedApp_eq hne happ, hmanaged, hrest]
      simp [this, bind, Except.bind]

/-! ### The second loop -/

theorem deleteApp_eq (n : ℕ) :
    deleteApp (replies n) = .ok () ∧ granted replies n ∨
      (∃ e, deleteApp (replies n) = .error e) ∧ ¬granted replies n := by
  rcases hr : replies n with _ | e
  · exact .inl ⟨rfl, by simp [granted, hr]⟩
  · by_cases he : e.status = some 404
    · exact .inl ⟨if_pos he, by simp [granted, hr, he]⟩
    · exact .inr ⟨⟨e, if_neg he⟩, by simp [granted, hr, he]⟩

/-- **What the second loop asks for**: what has an id; and what is granted is deleted. -/
theorem deleteAll_eq (ids : List Value) (n : ℕ) :
    deleteAll false replies n ids = ⟨ids.filter Value.truthy,
      (((ids.filter Value.truthy).zipIdx n).filter fun x => granted replies x.2).map Prod.fst,
      (((ids.filter Value.truthy).zipIdx n).filter fun x => !granted replies x.2).map
        Prod.fst⟩ := by
  induction ids generalizing n with
  | nil => rfl
  | cons id ids ih =>
    by_cases hid : id.truthy
    · rcases @deleteApp_eq replies n with ⟨hok, hgranted⟩ | ⟨⟨e, herror⟩, hgranted⟩
      · simp [deleteAll, hid, hok, hgranted, ih]
      · simp [deleteAll, hid, herror, hgranted, ih]
    · simp [deleteAll, hid, ih]

theorem deleteAll_dry (ids : List Value) (n : ℕ) :
    deleteAll true replies n ids = ⟨[], ids.filter Value.truthy, []⟩ := by
  induction ids generalizing n with
  | nil => rfl
  | cons id ids ih =>
    by_cases hid : id.truthy <;> simp [deleteAll, hid, ih]

/-! ### The sweep -/

theorem orphans_eq : orphans py namePrefix ttlSeconds now apps =
    (((apps.zipIdx).filter fun x => Old py namePrefix ttlSeconds (now x.2) x.1).map
      fun x => appId x.1).filter Value.truthy := by
  rw [orphans, List.filter_map, List.filter_filter]
  congr 2
  funext x
  simp [Bool.and_comm]

/-- The report of the requests for these ids. -/
structure SweepReport.Of (replies : ℕ → Option MgmtError) (ids : List Value) (r : SweepReport) :
    Prop where
  deletedIds : r.deletedIds = (ids.zipIdx.filter fun x => granted replies x.2).map Prod.fst
  failedIds : r.failedIds = (ids.zipIdx.filter fun x => !granted replies x.2).map Prod.fst
  deleted : r.deleted = r.deletedIds.length
  failed : r.failed = r.failedIds.length

/-- **A sweep is safe, and complete.** Whatever is listed and whatever becomes of the single
requests: the sweep asks for the orphans to be deleted, each record once and in order, and
for nothing else; what it reports as deleted and as failed are these requests, each in one of
the two; a dry run asks for nothing and reports what would be asked for; and without a
positive time to live nothing is asked for at all. -/
theorem sweepOrphans_exact (hne : namePrefix ≠ []) (happs : ∀ app ∈ apps, Readable app) :
    (ttlSeconds ≤ 0 → ∀ dryRun,
      sweepOrphans py namePrefix ttlSeconds dryRun now replies apps = .ok ([], {})) ∧
    (0 < ttlSeconds → ∃ report dry,
      sweepOrphans py namePrefix ttlSeconds false now replies apps =
        .ok (orphans py namePrefix ttlSeconds now apps, report) ∧
      report.Of replies (orphans py namePrefix ttlSeconds now apps) ∧
      (report.deletedIds ++ report.failedIds).Perm (orphans py namePrefix ttlSeconds now apps) ∧
      sweepOrphans py namePrefix ttlSeconds true now replies apps = .ok ([], dry) ∧
      dry.deletedIds = orphans py namePrefix ttlSeconds now apps ∧ dry.failedIds = []) := by
  refine ⟨fun httl dryRun => if_pos httl, fun httl => ?_⟩
  obtain ⟨found, hinspect⟩ := @inspect_eq py namePrefix ttlSeconds now apps hne happs 0
  rw [orphans_eq]
  generalize ((apps.zipIdx).filter fun x => Old py namePrefix ttlSeconds (now x.2) x.1).map
    (fun x => appId x.1) = eligible at hinspect ⊢
  have hsweep : ∀ dryRun, sweepOrphans py namePrefix ttlSeconds dryRun now replies apps =
      .ok ((deleteAll dryRun replies 0 eligible).asked, ⟨found, eligible.length,
        (deleteAll dryRun replies 0 eligible).deleted.length,
        (deleteAll dryRun replies 0 eligible).failed.length,
        (deleteAll dryRun replies 0 eligible).deleted,
        (deleteAll dryRun replies 0 eligible).failed⟩) := by
    intro dryRun
    rw [sweepOrphans, if_neg (by omega), hinspect]
    rfl
  refine ⟨_, _, by rw [hsweep, deleteAll_eq], ⟨rfl, rfl, rfl, rfl⟩, ?_,
    by rw [hsweep, deleteAll_dry], rfl, rfl⟩
  -- every request is among the granted ones or among the others
  have hperm := (List.filter_append_perm (fun x => granted replies x.2)
    ((eligible.filter Value.truthy).zipIdx)).map Prod.fst
  rwa [List.map_append, List.zipIdx_map_fst] at hperm

/-! ### A sweep -/

/-- A record as the IdP writes it. -/
def record (id name created : String) : Value :=
  .dict [(.str (lit "id"), .str (lit id)), (.str (lit "name"), .str (lit name)),
    (.str (lit "details"), .dict [(.str (lit "creationDate"), .str (lit created))])]

/-- A Python that knows two dates: 11:00 and 12:30 on the 18th of May 2026. -/
def twoDates : Python where
  str := fun _ => []
  fromisoformat := fun t =>
    if t = lit "2026-05-18T11:00:00+00:00" then some ⟨1779102000000000, some 0⟩
    else if t = lit "2026-05-18T12:30:00+00:00" then some ⟨1779107400000000, some 0⟩
    else none

/-- Two old applications, a fresh one, one that says no date, and one of somebody else. -/
def records : List Value :=
  [record "a1" "dcr-shim:old" "2026-05-18T11:00:00Z",
    record "a2" "dcr-shim:fresh" "2026-05-18T12:30:00Z",
    record "a3" "dcr-shim:silent" "some day",
    record "a4" "otaman-bridge-web" "2026-05-18T11:00:00Z",
    record "a5" "dcr-shim:kept" "2026-05-18T11:00:00Z"]

theorem readable_record (id name created : String) : Readable (record id name created) := by
  refine ⟨⟨_, rfl⟩, ?_, ?_⟩
  · intro v hv _
    have hget : (record id name created).get "details" =
        some (.dict [(.str (lit "creationDate"), .str (lit created))]) := rfl
    exact ⟨_, (Option.some.inj (hget.symm.trans hv)).symm⟩
  · intro items v hitems hv _
    have hget : (record id name created).get "details" =
        some (.dict [(.str (lit "creationDate"), .str (lit created))]) := rfl
    obtain rfl := Value.dict.inj (Option.some.inj (hget.symm.trans hitems))
    exact ⟨_, (Option.some.inj hv).symm⟩

/-- The text of an id. -/
def idText : Value → Text
  | .str t => t
  | _ => []

/-- Of the two old ones the second may not be deleted. -/
theorem sweepOrphans_exact_two : ∃ asked report,
    sweepOrphans twoDates (lit "dcr-shim:") 3600 false (fun _ => 1779109200000000)
      (fun n => if n = 1 then some ⟨some 403, none⟩ else none) records = .ok (asked, report) ∧
    asked.map idText = [lit "a1", lit "a5"] ∧ report.deletedIds.map idText = [lit "a1"] ∧
      report.failedIds.map idText = [lit "a5"] := by
  have happs : ∀ app ∈ records, Readable app := by
    intro app happ
    simp only [records, List.mem_cons, List.not_mem_nil, or_false] at happ
    rcases happ with rfl | rfl | rfl | rfl | rfl <;> exact readable_record ..
  obtain ⟨report, -, hsweep, ⟨hdeleted, hfailed, -, -⟩, -, -⟩ :=
    (@sweepOrphans_exact twoDates (lit "dcr-shim:") 3600 (fun _ => 1779109200000000)
      (fun n => if n = 1 then some ⟨some 403, none⟩ else none) records (by decide) happs).2
      (by decide)
  refine ⟨_, report, hsweep, by decide +kernel, ?_, ?_⟩
  · rw [hdeleted]
    decide +kernel
  · rw [hfailed]
    decide +kernel

end Sweep

end Dcr

end OtamanBridge
