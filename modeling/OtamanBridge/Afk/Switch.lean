import OtamanBridge.Afk.Duration
import OtamanBridge.Afk.File
import OtamanBridge.Lib.Expiry

/-!
# The AFK switch

`afk on` and `afk off` of `afk.py`, with `write_afk` and `clear_afk` behind them, and everybody
who calls `read_afk`: `afk status`, the approval hook, the stop hook. There is no timer: an
entry that has expired stays where it is until somebody reads it, and if its file cannot be
removed then, until somebody else does.

Since readers fall back on the file under `.maestro/`, the switch has two entries, and only `afk
off` takes away both. So in every run of the commands that begins with nothing under `.otaman/`,
with their file operations failing as they may, AFK is on with exactly the entry of an `afk on`
that stands and has not expired; or, where no file stands under `.otaman/`, with the entry that
was under `.maestro/` from the start, if that was left
(`OtamanBridge.Afk.Switch.readAfk_eq_some_iff_stands`). In particular an `afk on` for half an hour
that covers an old entry brings it back when the half hour is over.
-/

namespace OtamanBridge

namespace Afk

namespace Switch

open Py Bus

open Expiry (Effect Stands)

/-! ### The entry -/

/-- The seconds since 1970. -/
def timestamp (u : Utc) : Seconds := u.micros / 1000000 - 62135596800

/-- The `AfkState` that `cmd_on` makes. -/
structure Entry where
  enabledAt : Utc
  expiresAt : Option Utc
  source : Text
  enabledBy : Text
  deriving DecidableEq

namespace Entry

variable (e : Entry)

/-- The entry, as a reader knows it. -/
def state : AfkState where
  enabledAt := timestamp e.enabledAt
  expiresAt := e.expiresAt.map timestamp
  source := e.source
  enabledBy := e.enabledBy

/-- The items of `to_dict`. -/
def items : List (Value × Value) :=
  [(.str (lit "enabled_at"), .str e.enabledAt.isoformat), (.str (lit "source"), .str e.source)] ++
    (e.expiresAt.toList.map fun u => (.str (lit "expires_at"), .str u.isoformat)) ++
      if e.enabledBy = [] then [] else [(.str (lit "enabled_by"), .str e.enabledBy)]

/-- `to_dict`. -/
def toDict : Value := .dict e.items

end Entry

/-- What Python does for the commands: it reads entries, counts the digits of durations, and
dumps dicts. -/
structure Python extends toAfk : Afk.Python where
  interpreter : Interpreter
  /-- `yaml.safe_dump(d, sort_keys=False, default_flow_style=False)`. -/
  safeDump : Value → Text

variable (py : Python)

/-- The file with this entry. -/
def Entry.content (e : Entry) : Content := .text (py.safeDump e.toDict)

/-- **PyYAML and `datetime` on an entry**: what is dumped is loaded again, and what
`isoformat` writes is read. -/
structure Reads (e : Entry) : Prop where
  load : py.safeLoad (universalNewlines (py.safeDump e.toDict)) = .ok e.toDict
  enabledAt : py.fromisoformat e.enabledAt.isoformat = some (timestamp e.enabledAt)
  expiresAt : ∀ u ∈ e.expiresAt, py.fromisoformat u.isoformat = some (timestamp u)

/-! ### The commands -/

/-- The arguments of `afk on`, and what it reads of the environment. -/
structure OnArgs where
  duration : Option Text
  source : Text
  asUser : Option Text
  /-- `$USER`. -/
  user : Option Text
  /-- `$USERNAME`. -/
  username : Option Text

/-- `x or y`. -/
def orElse (x : Option Text) (y : Text) : Text :=
  match x with
  | none | some [] => y
  | some t => t

/-- `args.as_user or _current_user()`. -/
def OnArgs.enabledBy (args : OnArgs) : Text :=
  orElse args.asUser (orElse args.user (orElse args.username []))

/-- `cmd_on` up to the write: there is no entry if the parser refuses the source, or the
duration is refused, or it raises. -/
def newEntry (now : Utc) (args : OnArgs) : Option Entry :=
  if args.source ∈ validSources then
    match cmdOn py.interpreter now args.duration with
    | .afkOn expiresAt => some ⟨now, expiresAt, args.source, args.enabledBy⟩
    | .usageError | .raised _ => none
  else none

/-- What becomes of `write_text`. -/
inductive Writing
  | done
  /-- The directory cannot be made, or the file not opened. -/
  | unopened
  /-- The file is opened, and with that emptied, and then nothing can be written. -/
  | emptied
  deriving DecidableEq

/-- `write_afk`. -/
def writeAfk (f : Files) (e : Entry) : Writing → Files
  | .done => { f with preferred := some (e.content py) }
  | .unopened => f
  | .emptied => { f with preferred := some (.text []) }

/-- `read_afk`: the files after it. The `unlink` of an expired entry may fail. -/
def readFiles (f : Files) (now : Utc) (unlinked : Bool) : Files :=
  if unlinked then afterRead py.toAfk f (timestamp now) else f

/-- `clear_afk`: the files after it, and whether something was deleted. -/
def clearAfk (f : Files) (unlinks : Place → Bool) : Files × Bool :=
  (⟨if unlinks .preferred then none else f.preferred, if unlinks .legacy then none else f.legacy⟩,
    f.preferred.isSome && unlinks .preferred || f.legacy.isSome && unlinks .legacy)

/-- `cmd_off`: the files after it, whether something was deleted, and the `prior_source`. What
`read_afk` raises is not caught. -/
def cmdOff (f : Files) (now : Utc) (unlinked : Bool) (unlinks : Place → Bool) :
    Files × Except Unit (Bool × Text) :=
  match readAfk py.toAfk f (timestamp now) with
  | .error e => (f, .error e)
  | .ok prior =>
    let cleared := clearAfk (readFiles py f now unlinked) unlinks
    (cleared.1, .ok (cleared.2, (prior.map AfkState.source).getD []))

/-- A command, or somebody else who reads. -/
inductive Command
  /-- `afk on`. -/
  | on (now : Utc) (args : OnArgs) (writing : Writing)
  /-- `afk off`: whether `read_afk` can remove a file, and which files `clear_afk` can. -/
  | off (now : Utc) (unlinked : Bool) (unlinks : Place → Bool)
  /-- Somebody calls `read_afk`. -/
  | read (now : Utc) (unlinked : Bool)

/-- The files after a command. -/
def after (f : Files) : Command → Files
  | .on now args writing =>
    match newEntry py now args with
    | some e => writeAfk py f e writing
    | none => f
  | .off now unlinked unlinks => (cmdOff py f now unlinked unlinks).1
  | .read now unlinked => readFiles py f now unlinked

/-- One command. -/
def step (f : Files) (c : Command) : Option Files := some (after py f c)

/-- The commands write this entry. -/
def Writes (cs : List Command) (e : Entry) : Prop :=
  ∃ now args, Command.on now args .done ∈ cs ∧ newEntry py now args = some e

/-! ### What is written is read -/

section Written

variable {py} {e : Entry}

/-- A time that `isoformat` writes has its zone written out. -/
theorem zoned_isoformat (u : Utc) : zoned u.isoformat = u.isoformat := by
  have hlast : u.isoformat.getLast? = some '0'.toNat := by
    rw [Utc.isoformat, List.getLast?_append_of_ne_nil _ (by decide)]
    rfl
  rw [zoned, if_neg (by rw [hlast]; decide)]

theorem isoformat_ne_nil (u : Utc) : u.isoformat ≠ [] := by
  simp [Utc.isoformat, lit]

/-- `_parse_iso` of a time that `isoformat` wrote. -/
theorem parseIso_isoformat {u : Utc} {t : Seconds}
    (h : py.fromisoformat u.isoformat = some t) :
    parseIso py.toAfk (some (.str u.isoformat)) = .ok (some t) := by
  have hparse : parseText py.toAfk u.isoformat = .ok (some t) := by
    rw [parseText, zoned_isoformat, h]
  rcases htext : u.isoformat with _ | ⟨c, cs⟩
  · exact absurd htext (isoformat_ne_nil u)
  · rw [← hparse, htext]
    rfl

/-- The values in the dict. -/
theorem get_enabledAt : e.toDict.get "enabled_at" = some (.str e.enabledAt.isoformat) := by
  rw [Entry.toDict, Entry.items, List.append_assoc, List.cons_append, get_cons, if_pos rfl]

theorem get_source : e.toDict.get "source" = some (.str e.source) := by
  rw [Entry.toDict, Entry.items, List.append_assoc, List.cons_append, get_cons,
    if_neg (by decide), List.cons_append, get_cons, if_pos rfl]

theorem get_expiresAt :
    e.toDict.get "expires_at" = e.expiresAt.map fun u => .str u.isoformat := by
  rw [Entry.toDict, Entry.items, List.append_assoc, List.cons_append, get_cons,
    if_neg (by decide), List.cons_append, get_cons, if_neg (by decide), List.nil_append]
  rcases e.expiresAt with _ | u
  · rcases eq_or_ne e.enabledBy [] with hby | hby
    · simp only [Option.toList_none, List.map_nil, List.nil_append, if_pos hby]
      rfl
    · simp only [Option.toList_none, List.map_nil, List.nil_append, if_neg hby]
      rw [get_cons, if_neg (by decide)]
      rfl
  · simp only [Option.toList_some, List.map_cons, List.map_nil, List.cons_append]
    rw [get_cons, if_pos rfl]
    rfl

theorem get_enabledBy : e.toDict.get "enabled_by" =
    if e.enabledBy = [] then none else some (.str e.enabledBy) := by
  rw [Entry.toDict, Entry.items, List.append_assoc, List.cons_append, get_cons,
    if_neg (by decide), List.cons_append, get_cons, if_neg (by decide), List.nil_append]
  have hlast : (Value.dict (if e.enabledBy = [] then []
      else [(.str (lit "enabled_by"), .str e.enabledBy)])).get "enabled_by" =
        if e.enabledBy = [] then none else some (.str e.enabledBy) := by
    split_ifs
    · rfl
    · rw [get_cons, if_pos rfl]
  rcases e.expiresAt with _ | u
  · exact hlast
  · simp only [Option.toList_some, List.map_cons, List.map_nil, List.cons_append,
      List.nil_append]
    rw [get_cons, if_neg (by decide)]
    exact hlast

/-- `_parse_iso` of the end. -/
theorem parseIso_expiresAt (h : Reads py e) :
    parseIso py.toAfk (e.toDict.get "expires_at") = .ok (e.expiresAt.map timestamp) := by
  rw [get_expiresAt]
  rcases hexp : e.expiresAt with _ | u
  · rfl
  · rw [Option.map_some, Option.map_some]
    exact parseIso_isoformat (h.expiresAt u hexp)

/-- `from_dict`, from the values in the dict. -/
theorem fromDict_of_get {d : Value} {enabledAt : Seconds} {expiresAt : Option Seconds}
    {source enabledBy : Text}
    (hat : parseIso py.toAfk (d.get "enabled_at") = .ok (some enabledAt))
    (hsource : d.get "source" = some (.str source)) (hvalid : source ∈ validSources)
    (hexpires : parseIso py.toAfk (d.get "expires_at") = .ok expiresAt)
    (hby : d.get "enabled_by" = if enabledBy = [] then none else some (.str enabledBy)) :
    fromDict py.toAfk d = .ok ⟨enabledAt, expiresAt, source, enabledBy⟩ := by
  unfold fromDict
  rw [hat, hexpires, hsource, hby]
  simp only [Option.getD_some, Python.text, not_not.mpr hvalid, if_false, Except.map]
  rcases enabledBy with _ | ⟨c, t⟩
  · rfl
  · rw [if_neg (List.cons_ne_nil c t)]
    rfl

/-- **`from_dict` takes back what `to_dict` gives.** -/
theorem fromDict_toDict (h : Reads py e) (hvalid : e.source ∈ validSources) :
    fromDict py.toAfk e.toDict = .ok e.state := by
  refine fromDict_of_get ?_ get_source hvalid (parseIso_expiresAt h) get_enabledBy
  rw [get_enabledAt]
  exact parseIso_isoformat h.enabledAt

/-- `read_afk`, from what PyYAML loads. -/
theorem loadAfk_of_load {t : Text} {items : List (Value × Value)} {st : AfkState}
    (hload : py.safeLoad (universalNewlines t) = .ok (.dict items)) (hne : items ≠ [])
    (hfrom : fromDict py.toAfk (.dict items) = .ok st) :
    loadAfk py.toAfk (some (.text t)) = .ok (some st) := by
  have htruthy : (Value.dict items).truthy = true := by
    rcases items with _ | ⟨item, rest⟩
    · exact absurd rfl hne
    · rfl
  simp only [loadAfk, hload, htruthy, if_true, hfrom, Except.toOption]

/-- **What the command writes is what a reader finds.** -/
theorem loadAfk_content (h : Reads py e) (hvalid : e.source ∈ validSources) :
    loadAfk py.toAfk (some (e.content py)) = .ok (some e.state) :=
  loadAfk_of_load h.load (List.cons_ne_nil _ _) (fromDict_toDict h hvalid)

/-- The source of an entry is one of those that there are. -/
theorem source_of_newEntry {now : Utc} {args : OnArgs} (h : newEntry py now args = some e) :
    e.source ∈ validSources := by
  unfold newEntry at h
  split_ifs at h with hvalid
  · split at h
    · obtain rfl := Option.some.inj h
      exact hvalid
    · cases h
    · cases h

/-- A file that was only emptied holds no entry. -/
theorem loadAfk_empty (h : py.safeLoad [] = .ok .none) :
    loadAfk py.toAfk (some (.text [])) = .ok none := by
  have hnewlines : universalNewlines [] = [] := rfl
  rw [loadAfk, hnewlines, h]
  rfl

end Written

/-! ### What a command does to a file -/

/-- When the entry in a file expires. -/
def deadline (c : Content) : WithTop Seconds :=
  match loadAfk py.toAfk (some c) with
  | .ok (some st) => st.expiresAt.elim ⊤ fun t => t
  | _ => ⊤

/-- What `read_afk` does to the file there. -/
def readEffect (p : Place) (f : Files) (now : Utc) (unlinked : Bool) :
    Effect Content (WithTop Seconds) :=
  if unlinked ∧ f.place = p then .look (timestamp now : Seconds) else .none

/-- What `write_afk` does to the file there. -/
def writeEffect (e : Entry) : Place → Writing → Effect Content (WithTop Seconds)
  | .preferred, .done => .write (e.content py)
  | .preferred, .emptied => .write (.text [])
  | _, _ => .none

/-- What a command does to the file there. `afk off` does nothing where `read_afk` raises. -/
def effect (p : Place) (f : Files) : Command → Effect Content (WithTop Seconds)
  | .on now args writing =>
    match newEntry py now args with
    | some e => writeEffect py e p writing
    | none => .none
  | .off now unlinked unlinks =>
    match readAfk py.toAfk f (timestamp now) with
    | .error _ => .none
    | .ok _ => if unlinks p then .drop else readEffect p f now unlinked
  | .read now unlinked => readEffect p f now unlinked

section Effects

variable {py} {p : Place} {f : Files}

/-- The deadline of a file has passed when its entry has expired. -/
theorem lt_deadline_iff {c : Content} {now : Seconds} : (now : WithTop Seconds) < deadline py c ↔
    ∀ st, loadAfk py.toAfk (some c) = .ok (some st) → ¬st.isExpired now := by
  unfold deadline
  rcases hload : loadAfk py.toAfk (some c) with _ | _ | st
  · simp
  · simp
  · rcases hexp : st.expiresAt with _ | t
    · simp [AfkState.isExpired, hexp]
    · simp [AfkState.isExpired, hexp]

theorem get_set (c : Option Content) (q : Place) :
    (f.set q c).get p = if q = p then c else f.get p := by
  cases p <;> cases q <;> rfl

/-- **`read_afk` looks at one file**, and takes it away if its deadline has passed. -/
theorem get_afterRead (now : Seconds) : (afterRead py.toAfk f now).get p =
    if f.place = p then (f.get p).filter (now < deadline py ·) else f.get p := by
  split_ifs with hp
  · obtain rfl := hp
    unfold afterRead
    rcases hc : f.get f.place with _ | c
    · simp [loadAfk, hc]
    · have hlt : (now : WithTop Seconds) < deadline py c ↔
          ∀ st, loadAfk py.toAfk (some c) = .ok (some st) → ¬st.isExpired now := lt_deadline_iff
      rcases hload : loadAfk py.toAfk (some c) with _ | _ | st
      · have hlater := hlt.mpr (by simp [hload])
        simp [hc, hlater, Option.filter]
      · have hlater := hlt.mpr (by simp [hload])
        simp [hc, hlater, Option.filter]
      · simp only [hload, Except.ok.injEq, Option.some.injEq, forall_eq'] at hlt
        by_cases hexpired : st.isExpired now
        · simp [hexpired, get_set, Option.filter, hlt]
        · simp [hexpired, hc, Option.filter, hlt]
  · unfold afterRead
    split
    · split_ifs
      · rw [get_set, if_neg hp]
      · rfl
    · rfl

theorem get_readFiles (now : Utc) (unlinked : Bool) : (readFiles py f now unlinked).get p =
    (readEffect p f now unlinked).apply (deadline py) (f.get p) := by
  cases unlinked
  · simp [readFiles, readEffect, Effect.apply]
  · simp only [readFiles, readEffect, if_true, true_and, get_afterRead]
    split_ifs <;> rfl

theorem get_clearAfk (unlinks : Place → Bool) :
    (clearAfk f unlinks).1.get p = if unlinks p then none else f.get p := by
  cases p <;> rfl

/-- **Each command has its effect** on each of the two files. -/
theorem get_after (c : Command) :
    (after py f c).get p = (effect py p f c).apply (deadline py) (f.get p) := by
  cases c with
  | on now args writing =>
    rw [after, effect]
    rcases newEntry py now args with _ | e
    · rfl
    · cases p <;> cases writing <;> rfl
  | off now unlinked unlinks =>
    rw [after, cmdOff, effect]
    rcases readAfk py.toAfk f (timestamp now) with _ | prior
    · rfl
    · simp only [get_clearAfk, get_readFiles]
      split_ifs <;> rfl
  | read now unlinked => exact get_readFiles now unlinked

end Effects

/-! ### When AFK is on -/

/-- **A file stands** at a place, after these commands: one of them wrote it, and the later ones
left it. -/
def FileStands (p : Place) (f₀ : Files) (cs : List Command) (f : Files) (c : Content) : Prop :=
  Stands (deadline py) (Lts.ofStep (step py)) (effect py p) f₀ cs f c

/-- **A file was left** at a place, by all of these commands: no `afk off` removed it, and
nobody read it after its deadline and could remove it. -/
def FileLeft (p : Place) (f₀ : Files) (cs : List Command) (f : Files) (c : Content) : Prop :=
  f₀.get p = some c ∧
    Lts.Run (Lts.Under (fun f l => (effect py p f l).Leaves (deadline py) c)
      (Lts.ofStep (step py))) f₀ cs f

section Main

variable {py} {f₀ f : Files} {cs : List Command}

/-- **What is in a file** stands there, or was left. -/
theorem get_eq_some_iff (hrun : Lts.Run (Lts.ofStep (step py)) f₀ cs f) {p : Place}
    {c : Content} : f.get p = some c ↔ FileStands py p f₀ cs f c ∨ FileLeft py p f₀ cs f c := by
  have heffect : ∀ f l f', Lts.ofStep (step py) f l f' →
      f'.get p = (effect py p f l).apply (deadline py) (f.get p) := by
    rintro f l f' hstep
    obtain rfl := Option.some.inj hstep
    exact get_after l
  exact Expiry.find_eq_some_iff_or (v := c) heffect hrun

/-- What is written is an entry of `afk on`, or nothing at all, and it is under `.otaman/`. -/
theorem effect_eq_write {p : Place} {l : Command} {c : Content}
    (h : effect py p f l = .write c) : p = .preferred ∧
      (c = .text [] ∨ ∃ now args e, l = .on now args .done ∧ newEntry py now args = some e ∧
        c = e.content py) := by
  have hread : ∀ now unlinked, readEffect p f now unlinked ≠ .write c := by
    intro now unlinked hwrite
    unfold readEffect at hwrite
    split_ifs at hwrite
  cases l with
  | on now args writing =>
    rw [effect] at h
    rcases hnew : newEntry py now args with _ | e
    · simp [hnew] at h
    · simp only [hnew] at h
      cases p <;> cases writing <;> cases h
      · exact ⟨rfl, .inr ⟨now, args, e, rfl, hnew, rfl⟩⟩
      · exact ⟨rfl, .inl rfl⟩
  | off now unlinked unlinks =>
    rw [effect] at h
    split at h
    · cases h
    · split_ifs at h
      exact absurd h (hread now unlinked)
  | read now unlinked => exact absurd h (hread now unlinked)

/-- The commands write under `.otaman/` only. -/
theorem not_fileStands_legacy {c : Content} : ¬FileStands py .legacy f₀ cs f c := by
  rintro ⟨_, l, _, f₁, _, -, -, -, hwrite, -⟩
  exact absurd (effect_eq_write hwrite).1 (by decide)

/-- What stands is an entry of `afk on`, or nothing at all. -/
theorem content_of_fileStands {c : Content} (h : FileStands py .preferred f₀ cs f c) :
    c = .text [] ∨ ∃ e, Writes py cs e ∧ c = e.content py := by
  obtain ⟨earlier, l, later, f₁, _, rfl, -, -, hwrite, -⟩ := h
  refine (effect_eq_write hwrite).2.imp_right ?_
  rintro ⟨now, args, e, rfl, hnew, rfl⟩
  exact ⟨e, ⟨now, args, by simp, hnew⟩, rfl⟩

/-- **When AFK is on.** Where nothing was under `.otaman/` at the start, and after any commands,
whatever of their file operations failed, `read_afk` returns a state exactly if that has not
expired, and it is the one of an `afk on` whose file stands under `.otaman/`; or no file stands
there, and it is the one that was under `.maestro/` from the start and was left. -/
theorem readAfk_eq_some_iff_stands (hempty : py.safeLoad [] = .ok .none)
    (hreads : ∀ e, Writes py cs e → Reads py e) (hclean : f₀.preferred = none)
    (hrun : Lts.Run (Lts.ofStep (step py)) f₀ cs f) (now : Seconds) (st : AfkState) :
    readAfk py.toAfk f now = .ok (some st) ↔ ¬st.isExpired now ∧
      ((∃ e, Writes py cs e ∧ e.state = st ∧
          FileStands py .preferred f₀ cs f (e.content py)) ∨
        (∀ c, ¬FileStands py .preferred f₀ cs f c) ∧
          ∃ c, FileLeft py .legacy f₀ cs f c ∧
            loadAfk py.toAfk (some c) = .ok (some st)) := by
  have hpreferred : ∀ c, f.preferred = some c ↔ FileStands py .preferred f₀ cs f c := by
    intro c
    refine (get_eq_some_iff hrun (p := .preferred)).trans (or_iff_left ?_)
    rintro ⟨hc, -⟩
    exact absurd (hclean.symm.trans hc) (by simp)
  have hlegacy : ∀ c, f.legacy = some c ↔ FileLeft py .legacy f₀ cs f c := fun c =>
    (get_eq_some_iff hrun (p := .legacy)).trans (or_iff_right not_fileStands_legacy)
  have hcontent : ∀ e, Writes py cs e →
      loadAfk py.toAfk (some (e.content py)) = .ok (some e.state) := by
    rintro e ⟨now, args, hmem, hnew⟩
    exact loadAfk_content (hreads e ⟨now, args, hmem, hnew⟩) (source_of_newEntry hnew)
  rw [readAfk_eq_some_iff, and_comm]
  refine and_congr_right fun _ => ?_
  rcases hp : f.preferred with _ | c
  · -- nothing stands under `.otaman/`
    have hnone : ∀ c, ¬FileStands py .preferred f₀ cs f c := fun c hc => by
      rw [← hpreferred, hp] at hc
      cases hc
    have hget : f.get f.place = f.legacy := by
      rcases hl : f.legacy with _ | c
      · simp [Files.place, Files.get, hp, hl]
      · simp [Files.place, Files.get, hp, hl]
    rw [hget]
    constructor
    · intro hload
      rcases hl : f.legacy with _ | c
      · rw [hl] at hload
        cases hload
      · exact .inr ⟨hnone, c, (hlegacy c).mp hl, hl ▸ hload⟩
    · rintro (⟨e, -, -, hstands⟩ | ⟨-, c, hleft, hload⟩)
      · exact absurd hstands (hnone _)
      · rw [(hlegacy c).mpr hleft]
        exact hload
  · -- the file there is the one that is read
    have hstands := (hpreferred c).mp hp
    have hget : f.get f.place = some c := by simp [Files.place, Files.get, hp]
    rw [hget]
    constructor
    · intro hload
      rcases content_of_fileStands hstands with rfl | ⟨e, hwrites, rfl⟩
      · rw [loadAfk_empty hempty] at hload
        cases hload
      · refine .inl ⟨e, hwrites, ?_, hstands⟩
        rw [hcontent e hwrites] at hload
        exact Option.some.inj (Except.ok.inj hload)
    · rintro (⟨e, hwrites, rfl, hstands'⟩ | ⟨hnone, -⟩)
      · have hsame : c = e.content py :=
          Option.some.inj (hp.symm.trans ((hpreferred _).mpr hstands'))
        rw [hsame]
        exact hcontent e hwrites
      · exact absurd hstands (hnone c)

end Main

/-! ### A half hour away -/

/-- What PyYAML writes of a string: one that reads as a time is quoted. -/
def quoted (t : Text) : Text :=
  if t.all Yaml.isNumeral && t.contains 'T'.toNat then lit "'" ++ t ++ lit "'" else t

/-- What it reads. -/
def unquoted (t : Text) : Except LoadError Value :=
  if t.head? = (lit "'").head? then .ok (.str t.tail.dropLast) else afkScalar t

/-- The line of an item. -/
def dumpItem (item : Value × Value) : Text :=
  match item with
  | (.str k, .str v) => Yaml.line (k, quoted v) ++ lit "\n"
  | _ => []

/-- A Python for entries with plain words and times in whole seconds. -/
def switchPython : Python where
  toAfk := { afkPython with
    safeLoad := fun t => if t = [] then .ok .none else Yaml.loadLines unquoted .yaml t
    fromisoformat := fun t => some (plainInstant t) }
  interpreter := ⟨4300, by decide⟩
  safeDump
    | .dict items => items.flatMap dumpItem
    | _ => []

/-- Seconds after noon, 18 May 2026. -/
def afterNoon (n : ℕ) (h : n < 3600) : Utc := ⟨(63914702400 + n) * 1000000, by omega⟩

/-- `afk on 30m --as-user ann`. -/
def halfHourAway : OnArgs where
  duration := some (lit "30m")
  source := lit "manual"
  asUser := some (lit "ann")
  user := none
  username := none

/-- The entry it makes at noon. -/
def noonEntry : Entry where
  enabledAt := afterNoon 0 (by decide)
  expiresAt := some (afterNoon 1800 (by decide))
  source := lit "manual"
  enabledBy := lit "ann"

example : switchPython.safeDump noonEntry.toDict =
    lit "enabled_at: '2026-05-18T12:00:00+00:00'\n" ++ lit "source: manual\n" ++
      lit "expires_at: '2026-05-18T12:30:00+00:00'\n" ++ lit "enabled_by: ann\n" := by
  decide +kernel

theorem newEntry_noon :
    newEntry switchPython (afterNoon 0 (by decide)) halfHourAway = some noonEntry := by
  decide +kernel

theorem reads_noonEntry : Reads switchPython noonEntry where
  load := by rfl
  enabledAt := by decide +kernel
  expiresAt := by decide +kernel

/-- `afk on` at noon, and somebody reads ten minutes later. -/
def lunch : List Command :=
  [.on (afterNoon 0 (by decide)) halfHourAway .done, .read (afterNoon 600 (by decide)) true]

/-- AFK is on ten minutes later, by the entry that stands. -/
theorem readAfk_eq_some_iff_stands_lunch : ∃ f : Files,
    readAfk switchPython.toAfk f (timestamp (afterNoon 600 (by decide))) =
        .ok (some noonEntry.state) ∧
      ∃ e : Entry, e.state = noonEntry.state ∧
        FileStands switchPython .preferred ⟨none, none⟩ lunch f (e.content switchPython) := by
  obtain ⟨f, hrun, hf⟩ := Lts.exists_run_of_exec (step switchPython) ⟨none, none⟩ lunch
    (fun f => readAfk switchPython.toAfk f (timestamp (afterNoon 600 (by decide))) =
      .ok (some noonEntry.state)) (by decide +kernel)
  have hread := of_decide_eq_true hf
  have hreads : ∀ e, Writes switchPython lunch e → Reads switchPython e := by
    rintro e ⟨now, args, hmem, hnew⟩
    obtain ⟨rfl, rfl⟩ : now = afterNoon 0 (by decide) ∧ args = halfHourAway := by
      simpa [lunch] using hmem
    obtain rfl := Option.some.inj (newEntry_noon.symm.trans hnew)
    exact reads_noonEntry
  obtain ⟨-, ⟨e, -, he, hstands⟩ | ⟨-, c, ⟨hleft, -⟩, -⟩⟩ :=
    (readAfk_eq_some_iff_stands rfl hreads rfl hrun _ _).mp hread
  · exact ⟨f, hread, e, he, hstands⟩
  · cases hleft

-- half an hour after noon the old entry is back
example : (Lts.exec (step switchPython)
      ⟨none, some (.text (lit "enabled_at: '2026-05-01T08:00:00+00:00'\nsource: unattended"))⟩
      [.on (afterNoon 0 (by decide)) halfHourAway .done,
        .read (afterNoon 1800 (by decide)) true]).map
    (fun f => (readAfk switchPython.toAfk f (timestamp (afterNoon 1800 (by decide)))).map
      (Option.map AfkState.source)) = some (.ok (some (lit "unattended"))) := by
  decide +kernel

end Switch

end Afk

end OtamanBridge
