import OtamanBridge.Lib.Run
import OtamanBridge.Registries.LinkIndex

/-!
# The live reload of the link index

`RegistryLinkIndex` of `registries/link_index.py` builds the index when it is made and, between
`start` and `stop`, again whenever watchdog says that one of the two files was modified. The
handler runs in a thread of the observer, and `_rebuild` has no lock while it reads: the file may
change before what it built is stored, and `stop` waits for the thread three seconds at most, so
a later `start` may put a second one beside it. The file is read in one step here, and the
`src_path` of an event is what the handler compares it with.

Whatever happens, what the queries read is the index of something that was in the file. It is the
index of what is in the file now, once the events are handled, from a change on that was noticed
while there was no other thread, as long as no change goes unnoticed, no event is lost to `stop`,
and no thread is started beside another
(`OtamanBridge.Registries.Reload.current_of_run`). Two threads may store what they built in the
wrong order (`OtamanBridge.Registries.Reload.exists_stale`).
-/

namespace OtamanBridge

namespace Registries

namespace Reload

open Py

/-! ### Events -/

/-- What an event is about. -/
inductive Source
  | outcomes
  | solutions
  /-- Another entry of a watched directory. -/
  | other
  deriving DecidableEq

/-- `FileModifiedEvent`. -/
structure Event where
  isDirectory : Bool
  srcPath : Source
  deriving DecidableEq

/-- The event of a change of `solutions.yaml`. -/
def modified : Event := ⟨false, .solutions⟩

/-- `on_modified` goes on to rebuild. -/
def Event.watched (e : Event) : Bool := !e.isDirectory && decide (e.srcPath ≠ .other)

/-! ### Threads -/

/-- Where `on_modified` is. -/
inductive Phase (K : Type)
  | idle
  /-- `_build_index` is called. -/
  | rebuilding
  /-- It has returned; `_data` is not set yet. -/
  | built (data : IndexData K)

/-- No event is being handled. -/
def Phase.isIdle {K : Type} : Phase K → Bool
  | .idle => true
  | _ => false

/-- An observer. -/
structure Watcher (K : Type) where
  /-- Started, and not stopped. -/
  running : Bool := true
  /-- The events that are still to be handled. -/
  queue : List Event := []
  phase : Phase K := .idle

variable {K : Type}

/-- It may set `_data` yet. -/
def Watcher.busy (w : Watcher K) : Bool := w.running || !w.phase.isIdle

/-- It has nothing to do. -/
def Watcher.quiet (w : Watcher K) : Bool := (w.queue.isEmpty || !w.running) && w.phase.isIdle

/-- An event is queued. -/
def Watcher.notify (enqueue : List Event → Event → List Event) (e : Event) (w : Watcher K) :
    Watcher K :=
  if w.running then { w with queue := enqueue w.queue e } else w

/-! ### States and steps -/

/-- The index, the file and the observers, by the order they were made in. -/
structure State (K : Type) where
  /-- What `solutions.yaml` loads to. -/
  file : Option Value
  /-- `_data`. -/
  data : IndexData K
  /-- `_observer`. -/
  observer : Option ℕ
  watchers : List (Watcher K)

/-- What a step is told. -/
inductive Label
  /-- `solutions.yaml` is written in place. -/
  | write (content : Option Value)
  /-- It is removed, or another file is moved there: this is no modification. -/
  | replace (content : Option Value)
  /-- An event of something else, or one too many. -/
  | event (e : Event)
  | start
  /-- `stop` takes the observer out. -/
  | stop
  /-- `obs.stop()`, later in `stop`. -/
  | halt (i : ℕ)
  /-- An observer calls `on_modified`. -/
  | take (i : ℕ)
  /-- `_build_index` reads the file. -/
  | read (i : ℕ)
  /-- `_rebuild` sets `_data`. -/
  | store (i : ℕ)

/-- An observer goes on. -/
def State.put (s : State K) (i : ℕ) (w : Watcher K) : State K :=
  { s with watchers := s.watchers.set i w }

/-- An event is queued by all observers that are running. -/
def State.notify (enqueue : List Event → Event → List Event) (e : Event) (s : State K) : State K :=
  { s with watchers := s.watchers.map (Watcher.notify enqueue e) }

section

variable {enqueue : List Event → Event → List Event} {s : State K} {i j : ℕ} {w w' x : Watcher K}

theorem getElem?_put (hw : s.watchers[i]? = some w) :
    (s.put i w').watchers[j]? = some x ↔ i = j ∧ x = w' ∨ i ≠ j ∧ s.watchers[j]? = some x := by
  have hlt : i < s.watchers.length := (List.getElem?_eq_some_iff.mp hw).1
  rw [State.put, List.getElem?_set]
  by_cases hij : i = j
  · simp [hij, hij ▸ hlt, eq_comm]
  · simp [hij]

theorem getElem?_notify {e : Event} : (s.notify enqueue e).watchers[j]? = some x ↔
    ∃ w, s.watchers[j]? = some w ∧ w.notify enqueue e = x := by
  rw [State.notify, List.getElem?_map, Option.map_eq_some_iff]

@[simp]
theorem running_notify (e : Event) : (w.notify enqueue e).running = w.running := by
  unfold Watcher.notify
  split_ifs <;> rfl

@[simp]
theorem phase_notify (e : Event) : (w.notify enqueue e).phase = w.phase := by
  unfold Watcher.notify
  split_ifs <;> rfl

@[simp]
theorem busy_notify (e : Event) : (w.notify enqueue e).busy = w.busy := by
  simp [Watcher.busy]

/-- An observer that is at rest has built nothing. -/
theorem ne_built_of_not_busy {data : IndexData K} (h : w.busy = false) :
    w.phase ≠ .built data := by
  intro hphase
  simp [Watcher.busy, hphase, Phase.isIdle] at h

/-- What is at work at all is busy. -/
theorem busy_of_not_idle (h : w.phase.isIdle = false) : w.busy := by
  simp [Watcher.busy, h]

end

variable [DecidableEq K] (enqueue : List Event → Event → List Event) (available : Bool)
  (key : Value → K)

/-- `RegistryLinkIndex.__init__`. -/
def create (file : Option Value) : Except Unit (State K) :=
  (buildIndex key file).map fun data => ⟨file, data, none, []⟩

/-- `_build_index` in `_rebuild`, and the `except` of `on_modified`. -/
def rebuild (file : Option Value) : Phase K :=
  match buildIndex key file with
  | .ok data => .built data
  | .error () => .idle

/-- One step, where watchdog is available or not. -/
def step (s : State K) : Label → Option (State K)
  | .write content => some ({ s with file := content }.notify enqueue modified)
  | .replace content => some { s with file := content }
  | .event e => some (s.notify enqueue e)
  | .start =>
    if !available || s.observer.isSome then some s
    else some { s with observer := some s.watchers.length, watchers := s.watchers ++ [{}] }
  | .stop => some { s with observer := none }
  | .halt i =>
    -- only what `stop` has taken out is stopped
    if s.observer = some i then none
    else s.watchers[i]?.map fun w => s.put i { w with running := false }
  | .take i =>
    -- a thread looks whether it is stopped before it takes the next event
    match s.watchers[i]? with
    | some ⟨true, e :: queue, .idle⟩ =>
      some (s.put i ⟨true, queue, if e.watched then .rebuilding else .idle⟩)
    | _ => none
  | .read i =>
    match s.watchers[i]? with
    | some ⟨running, queue, .rebuilding⟩ => some (s.put i ⟨running, queue, rebuild key s.file⟩)
    | _ => none
  | .store i =>
    match s.watchers[i]? with
    | some ⟨running, queue, .built data⟩ =>
      some ({ s with data := data }.put i ⟨running, queue, .idle⟩)
    | _ => none

/-! ### What is claimed -/

/-- What the queue of watchdog does: no event is lost or made up. One that is there already may
be left out. -/
def Queues (enqueue : List Event → Event → List Event) : Prop :=
  ∀ queue e x, x ∈ enqueue queue e ↔ x ∈ queue ∨ x = e

/-- The content that a step leaves in the file. -/
def Label.content : Label → Option (Option Value)
  | .write content => some content
  | .replace content => some content
  | _ => none

/-- All that was in the file. -/
def contents (file : Option Value) (ls : List Label) : List (Option Value) :=
  file :: ls.filterMap Label.content

/-- All events are handled. -/
def State.Quiet (s : State K) : Prop := ∀ w ∈ s.watchers, w.quiet

instance (s : State K) : Decidable s.Quiet :=
  inferInstanceAs (Decidable (∀ w ∈ s.watchers, _))

/-- No two observers may set `_data`. -/
def State.Single (s : State K) : Prop :=
  ∀ (i j : ℕ) (w x : Watcher K), s.watchers[i]? = some w → s.watchers[j]? = some x →
    w.busy → x.busy → i = j

/-- **The file is attended to**: it is changed only in place and while it is watched, no event
is left at `stop`, and no observer is left at `start`. -/
def Attended (s : State K) : Label → Prop
  | .write _ => s.observer.isSome
  | .replace _ => False
  | .start => s.observer.isSome ∨ ∀ w ∈ s.watchers, w.busy = false
  | .stop => s.Quiet
  | _ => True

/-- **A change is noticed**, by the only observer there is; or the index is new. -/
def Notices (s₀ s : State K) : Prop :=
  s = s₀ ∨ ∃ a content, a.Single ∧ a.observer.isSome ∧
    step enqueue available key a (.write content) = some s

/-! ### What a step can do -/

variable {enqueue available key} {s s' : State K} {l : Label} {i : ℕ} {w w' : Watcher K}

/-- What a step does, with what it asks for. -/
inductive Step (enqueue : List Event → Event → List Event) (key : Value → K) (s : State K) :
    Label → State K → Prop
  | write (content : Option Value) :
      Step enqueue key s (.write content) ({ s with file := content }.notify enqueue modified)
  | replace (content : Option Value) :
      Step enqueue key s (.replace content) { s with file := content }
  | event (e : Event) : Step enqueue key s (.event e) (s.notify enqueue e)
  /-- There is no watchdog, or there is an observer. -/
  | idle : Step enqueue key s .start s
  | start (hnone : s.observer = none) :
      Step enqueue key s .start
        { s with observer := some s.watchers.length, watchers := s.watchers ++ [{}] }
  | stop : Step enqueue key s .stop { s with observer := none }
  | halt {i : ℕ} {w : Watcher K} (hw : s.watchers[i]? = some w) (hi : s.observer ≠ some i) :
      Step enqueue key s (.halt i) (s.put i { w with running := false })
  | take {i : ℕ} {e : Event} {queue : List Event}
      (hw : s.watchers[i]? = some ⟨true, e :: queue, .idle⟩) :
      Step enqueue key s (.take i)
        (s.put i ⟨true, queue, if e.watched then .rebuilding else .idle⟩)
  | read {i : ℕ} {running : Bool} {queue : List Event}
      (hw : s.watchers[i]? = some ⟨running, queue, .rebuilding⟩) :
      Step enqueue key s (.read i) (s.put i ⟨running, queue, rebuild key s.file⟩)
  | store {i : ℕ} {running : Bool} {queue : List Event} {data : IndexData K}
      (hw : s.watchers[i]? = some ⟨running, queue, .built data⟩) :
      Step enqueue key s (.store i) ({ s with data := data }.put i ⟨running, queue, .idle⟩)

/-- **Every step is one of these.** -/
theorem Step.of_step (h : step enqueue available key s l = some s') : Step enqueue key s l s' := by
  cases l with
  | write content =>
    obtain rfl := Option.some.inj h
    exact .write content
  | replace content =>
    obtain rfl := Option.some.inj h
    exact .replace content
  | event e =>
    obtain rfl := Option.some.inj h
    exact .event e
  | start =>
    simp only [step] at h
    split_ifs at h with hidle
    · obtain rfl := Option.some.inj h
      exact .idle
    · obtain rfl := Option.some.inj h
      exact .start (by simpa using (not_or.mp (mt (Bool.or_eq_true _ _).mpr hidle)).2)
  | stop =>
    obtain rfl := Option.some.inj h
    exact .stop
  | halt i =>
    simp only [step] at h
    split_ifs at h with hi
    obtain ⟨w, hw, rfl⟩ := Option.map_eq_some_iff.mp h
    exact .halt hw hi
  | take i =>
    simp only [step] at h
    split at h
    next hw =>
      obtain rfl := Option.some.inj h
      exact .take hw
    next => exact absurd h (by simp)
  | read i =>
    simp only [step] at h
    split at h
    next hw =>
      obtain rfl := Option.some.inj h
      exact .read hw
    next => exact absurd h (by simp)
  | store i =>
    simp only [step] at h
    split at h
    next hw =>
      obtain rfl := Option.some.inj h
      exact .store hw
    next => exact absurd h (by simp)

theorem rebuild_eq_built_iff {file : Option Value} {data : IndexData K} :
    rebuild key file = .built data ↔ buildIndex key file = .ok data := by
  unfold rebuild
  split <;> simp_all

/-! ### Where an index comes from -/

/-- It is the index of one of these contents. -/
def IndexOf (key : Value → K) (cs : List (Option Value)) (data : IndexData K) : Prop :=
  ∃ content ∈ cs, buildIndex key content = .ok data

/-- The observer that the index has is running. -/
def Observed (s : State K) : Prop :=
  ∀ i, s.observer = some i → ∃ w, s.watchers[i]? = some w ∧ w.running

/-- All that is built is the index of something that was in the file. -/
structure Sound (key : Value → K) (cs : List (Option Value)) (s : State K) : Prop where
  file : s.file ∈ cs
  data : IndexOf key cs s.data
  built : ∀ (i : ℕ) (w : Watcher K) (data : IndexData K), s.watchers[i]? = some w →
    w.phase = .built data → IndexOf key cs data
  observed : Observed s

variable {cs cs' : List (Option Value)}

theorem IndexOf.mono {data : IndexData K} (h : IndexOf key cs data) (hsub : cs ⊆ cs') :
    IndexOf key cs' data := by
  obtain ⟨content, hmem, hbuild⟩ := h
  exact ⟨content, hsub hmem, hbuild⟩

theorem Sound.mono (h : Sound key cs s) (hsub : cs ⊆ cs') : Sound key cs' s where
  file := hsub h.file
  data := h.data.mono hsub
  built i w data hw hphase := (h.built i w data hw hphase).mono hsub
  observed := h.observed

theorem sound_create {file : Option Value} (h : create key file = .ok s) :
    Sound key (contents file []) s := by
  cases hbuild : buildIndex key file with
  | error => simp [create, hbuild, Except.map] at h
  | ok data =>
    obtain rfl : (⟨file, data, none, []⟩ : State K) = s := by
      simpa [create, hbuild, Except.map] using h
    exact ⟨List.mem_cons_self, ⟨file, List.mem_cons_self, hbuild⟩, by simp,
      fun i hi => absurd hi (by simp)⟩

theorem Sound.put (h : Sound key cs s) (hw : s.watchers[i]? = some w)
    (hbuilt : ∀ data, w'.phase = .built data → IndexOf key cs data)
    (hrunning : s.observer = some i → w.running → w'.running) : Sound key cs (s.put i w') where
  file := h.file
  data := h.data
  built j x data hx hphase := by
    rcases (getElem?_put hw).mp hx with ⟨-, rfl⟩ | ⟨-, hx⟩
    · exact hbuilt data hphase
    · exact h.built j x data hx hphase
  observed j hj := by
    obtain ⟨x, hx, hrun⟩ := h.observed j hj
    by_cases hij : i = j
    · obtain rfl : w = x := Option.some.inj (hw.symm.trans (hij ▸ hx))
      exact ⟨w', (getElem?_put hw).mpr (.inl ⟨hij, rfl⟩), hrunning (hij ▸ hj) hrun⟩
    · exact ⟨x, (getElem?_put hw).mpr (.inr ⟨hij, hx⟩), hrun⟩

theorem Sound.notify {e : Event} (h : Sound key cs s) : Sound key cs (s.notify enqueue e) where
  file := h.file
  data := h.data
  built j x data hx hphase := by
    obtain ⟨w, hw, rfl⟩ := getElem?_notify.mp hx
    rw [phase_notify] at hphase
    exact h.built j w data hw hphase
  observed j hj := by
    obtain ⟨w, hw, hrun⟩ := h.observed j hj
    exact ⟨_, getElem?_notify.mpr ⟨w, hw, rfl⟩, (running_notify e).trans hrun⟩

/-- The file gets a new content. -/
theorem Sound.write (h : Sound key cs s) (content : Option Value) :
    Sound key (cs ++ [content]) { s with file := content } :=
  { h.mono (List.subset_append_left cs [content]) with
    file := List.mem_append_right cs (List.mem_singleton_self content) }

theorem Sound.step (h : Sound key cs s) (hstep : Step enqueue key s l s') :
    Sound key (cs ++ l.content.toList) s' := by
  cases hstep with
  | write content => exact (h.write content).notify
  | replace content => exact h.write content
  | event e => exact h.notify.mono (List.subset_append_left _ _)
  | idle => exact h.mono (List.subset_append_left _ _)
  | start hnone =>
    refine Sound.mono ?_ (List.subset_append_left _ _)
    refine ⟨h.file, h.data, fun i w data hw hphase => ?_, fun i hi => ?_⟩
    · rcases List.mem_append.mp (List.mem_of_getElem? hw) with hmem | hmem
      · obtain ⟨k, hk⟩ := List.mem_iff_getElem?.mp hmem
        exact h.built k w data hk hphase
      · obtain rfl := List.mem_singleton.mp hmem
        exact absurd hphase (by simp)
    · obtain rfl := Option.some.inj hi
      exact ⟨{}, by simp, rfl⟩
  | stop =>
    refine Sound.mono ?_ (List.subset_append_left _ _)
    exact { h with observed := fun i hi => absurd hi (by simp) }
  | halt hw hi =>
    refine Sound.mono ?_ (List.subset_append_left _ _)
    exact h.put hw (fun data hphase => h.built _ _ data hw hphase) fun hobserver =>
      absurd hobserver hi
  | @take i e queue hw =>
    refine Sound.mono ?_ (List.subset_append_left _ _)
    refine h.put hw (fun data hphase => ?_) fun _ _ => rfl
    cases hwatched : e.watched <;> simp [hwatched] at hphase
  | read hw =>
    refine Sound.mono ?_ (List.subset_append_left _ _)
    exact h.put hw (fun data hphase => ⟨s.file, h.file, rebuild_eq_built_iff.mp hphase⟩)
      fun _ hrun => hrun
  | @store i running queue data hw =>
    refine Sound.mono ?_ (List.subset_append_left _ _)
    have hstored : Sound key cs { s with data := data } :=
      { h with data := h.built i _ data hw rfl }
    exact hstored.put hw (fun data hphase => absurd hphase (by simp)) fun _ hrun => hrun

/-! ### Keeping up with the file -/

/-- A rebuild is due: the observer has an event that calls for one, or it has been called. -/
def Due (s : State K) : Prop :=
  (∃ (i : ℕ) (w : Watcher K), s.observer = some i ∧ s.watchers[i]? = some w ∧
    ∃ e ∈ w.queue, e.watched) ∨
  ∃ (i : ℕ) (w : Watcher K), s.watchers[i]? = some w ∧ w.phase = .rebuilding

/-- The index of the file, if it has one, is the one that is built, or that is read. -/
def Settled (key : Value → K) (s : State K) : Prop :=
  ∀ data, buildIndex key s.file = .ok data →
    (∀ (i : ℕ) (w : Watcher K) (d : IndexData K), s.watchers[i]? = some w →
      w.phase = .built d → d = data) ∧
    ((∀ (i : ℕ) (w : Watcher K), s.watchers[i]? = some w → w.phase.isIdle) → s.data = data)

/-- **The index keeps up with the file.** -/
structure KeepsUp (key : Value → K) (s : State K) : Prop where
  single : s.Single
  current : Due s ∨ Settled key s

omit [DecidableEq K] in
theorem single_put (h : s.Single) (hw : s.watchers[i]? = some w) (hbusy : w'.busy → w.busy) :
    (s.put i w').Single := by
  -- a busy observer was one before
  have hback : ∀ (j : ℕ) (x : Watcher K), (s.put i w').watchers[j]? = some x → x.busy →
      ∃ y, s.watchers[j]? = some y ∧ y.busy := by
    intro j x hx hb
    rcases (getElem?_put hw).mp hx with ⟨rfl, rfl⟩ | ⟨-, hx⟩
    · exact ⟨w, hw, hbusy hb⟩
    · exact ⟨x, hx, hb⟩
  intro j k x y hx hy hbx hby
  obtain ⟨x', hx', hbx'⟩ := hback j x hx hbx
  obtain ⟨y', hy', hby'⟩ := hback k y hy hby
  exact h j k x' y' hx' hy' hbx' hby'

omit [DecidableEq K] in
theorem single_notify {e : Event} (h : s.Single) : (s.notify enqueue e).Single := by
  intro j k x y hx hy hbx hby
  obtain ⟨x', hx', rfl⟩ := getElem?_notify.mp hx
  obtain ⟨y', hy', rfl⟩ := getElem?_notify.mp hy
  rw [busy_notify] at hbx hby
  exact h j k x' y' hx' hy' hbx hby

omit [DecidableEq K] in
/-- When nothing is to be done, no rebuild is due. -/
theorem not_due_of_quiet (hquiet : s.Quiet)
    (hobserved : Observed s) : ¬Due s := by
  rintro (⟨i, w, hi, hw, e, he, -⟩ | ⟨i, w, hw, hphase⟩)
  · obtain ⟨x, hx, hrun⟩ := hobserved i hi
    obtain rfl : w = x := Option.some.inj (hw.symm.trans hx)
    have hq := hquiet w (List.mem_of_getElem? hw)
    simp only [Watcher.quiet, hrun, Bool.not_true, Bool.or_false, Bool.and_eq_true,
      List.isEmpty_iff] at hq
    exact absurd (hq.1 ▸ he) List.not_mem_nil
  · have hq := hquiet w (List.mem_of_getElem? hw)
    simp [Watcher.quiet, hphase, Phase.isIdle] at hq

/-- Settled and quiet, what is read is the index of the file. -/
theorem Settled.data_eq (h : Settled key s) (hquiet : s.Quiet) {data : IndexData K}
    (hbuild : buildIndex key s.file = .ok data) : s.data = data := by
  refine (h data hbuild).2 fun i w hw => ?_
  have hq := hquiet w (List.mem_of_getElem? hw)
  exact (Bool.and_eq_true_iff.mp hq).2

/-- What is settled stays so when an observer goes on to do something else than to rebuild. -/
theorem Settled.put (h : Settled key s) (hw : s.watchers[i]? = some w)
    (hphase : w'.phase = w.phase) : Settled key (s.put i w') := by
  intro data hbuild
  obtain ⟨hbuilt, hidle⟩ := h data hbuild
  refine ⟨fun j x d hx hd => ?_, fun hall => hidle fun j x hx => ?_⟩
  · rcases (getElem?_put hw).mp hx with ⟨rfl, rfl⟩ | ⟨-, hx⟩
    · exact hbuilt i w d hw (hphase.symm.trans hd)
    · exact hbuilt j x d hx hd
  · by_cases hij : i = j
    · obtain rfl : w = x := Option.some.inj (hw.symm.trans (hij ▸ hx))
      rw [← hphase]
      exact hall j w' ((getElem?_put hw).mpr (.inl ⟨hij, rfl⟩))
    · exact hall j x ((getElem?_put hw).mpr (.inr ⟨hij, hx⟩))

theorem Settled.notify {e : Event} (h : Settled key s) : Settled key (s.notify enqueue e) := by
  intro data hbuild
  obtain ⟨hbuilt, hidle⟩ := h data hbuild
  refine ⟨fun j x d hx hd => ?_, fun hall => hidle fun j x hx => ?_⟩
  · obtain ⟨y, hy, rfl⟩ := getElem?_notify.mp hx
    exact hbuilt j y d hy ((phase_notify e).symm.trans hd)
  · have hrests := hall j _ (getElem?_notify.mpr ⟨x, hx, rfl⟩)
    rwa [phase_notify] at hrests

omit [DecidableEq K] in
theorem due_notify (hqueues : Queues enqueue) {e : Event} (h : Due s) :
    Due (s.notify enqueue e) := by
  rcases h with ⟨i, w, hi, hw, x, hx, hwatched⟩ | ⟨i, w, hw, hphase⟩
  · refine .inl ⟨i, _, hi, getElem?_notify.mpr ⟨w, hw, rfl⟩, x, ?_, hwatched⟩
    unfold Watcher.notify
    split_ifs
    · exact (hqueues _ _ _).mpr (.inl hx)
    · exact hx
  · exact .inr ⟨i, _, getElem?_notify.mpr ⟨w, hw, rfl⟩, (phase_notify e).trans hphase⟩

omit [DecidableEq K] in
/-- A change that is noticed makes a rebuild due. -/
theorem due_write (hqueues : Queues enqueue) (content : Option Value)
    (hobserved : Observed s) (h : s.observer.isSome) :
    Due ({ s with file := content }.notify enqueue modified) := by
  obtain ⟨i, hi⟩ := Option.isSome_iff_exists.mp h
  obtain ⟨w, hw, hrun⟩ := hobserved i hi
  refine .inl ⟨i, _, hi, getElem?_notify.mpr ⟨w, hw, rfl⟩, modified, ?_, rfl⟩
  rw [Watcher.notify, if_pos hrun]
  exact (hqueues _ _ _).mpr (.inr rfl)

omit [DecidableEq K] in
/-- A rebuild stays due when another observer goes on, or when this one does something else. -/
theorem Due.put (h : Due s) (hw : s.watchers[i]? = some w)
    (hqueue : s.observer = some i → ∀ e ∈ w.queue, e.watched →
      (∃ e ∈ w'.queue, e.watched) ∨ w'.phase = .rebuilding)
    (hphase : w.phase = .rebuilding → w'.phase = .rebuilding) : Due (s.put i w') := by
  have hself : (s.put i w').watchers[i]? = some w' := (getElem?_put hw).mpr (.inl ⟨rfl, rfl⟩)
  rcases h with ⟨j, x, hj, hx, e, he, hwatched⟩ | ⟨j, x, hx, hrebuilding⟩
  · by_cases hij : i = j
    · subst hij
      obtain rfl : w = x := Option.some.inj (hw.symm.trans hx)
      rcases hqueue hj e he hwatched with hleft | hgoes
      · exact .inl ⟨i, w', hj, hself, hleft⟩
      · exact .inr ⟨i, w', hself, hgoes⟩
    · exact .inl ⟨j, x, hj, (getElem?_put hw).mpr (.inr ⟨hij, hx⟩), e, he, hwatched⟩
  · by_cases hij : i = j
    · subst hij
      obtain rfl : w = x := Option.some.inj (hw.symm.trans hx)
      exact .inr ⟨i, w', hself, hphase hrebuilding⟩
    · exact .inr ⟨j, x, (getElem?_put hw).mpr (.inr ⟨hij, hx⟩), hrebuilding⟩

omit [DecidableEq K] in
/-- Of two observers, one that is not at rest is the only busy one. -/
theorem State.Single.not_busy (h : s.Single) {j : ℕ} {x : Watcher K} (hw : s.watchers[i]? = some w)
    (hidle : w.phase.isIdle = false) (hx : s.watchers[j]? = some x) (hij : i ≠ j) :
    x.busy = false :=
  eq_false_of_ne_true fun hbusy => hij (h i j w x hw hx (busy_of_not_idle hidle) hbusy)

/-- **What is read is what is built**, by the only observer that builds. -/
theorem settled_read (h : s.Single) {running : Bool} {queue : List Event}
    (hw : s.watchers[i]? = some ⟨running, queue, .rebuilding⟩) :
    Settled key (s.put i ⟨running, queue, rebuild key s.file⟩) := by
  intro data hbuild
  have hbuilt : rebuild key s.file = .built data := rebuild_eq_built_iff.mpr hbuild
  refine ⟨fun j x d hx hd => ?_, fun hall => ?_⟩
  · rcases (getElem?_put hw).mp hx with ⟨rfl, rfl⟩ | ⟨hij, hx⟩
    · exact Phase.built.inj (hd.symm.trans hbuilt)
    · exact absurd hd (ne_built_of_not_busy (h.not_busy hw rfl hx hij))
  · have hidle := hall i _ ((getElem?_put hw).mpr (.inl ⟨rfl, rfl⟩))
    rw [hbuilt] at hidle
    exact absurd hidle (by simp [Phase.isIdle])

/-- **What is built is what is stored.** -/
theorem settled_store (hsettled : Settled key s) {running : Bool} {queue : List Event}
    {data : IndexData K} (hw : s.watchers[i]? = some ⟨running, queue, .built data⟩) :
    Settled key ({ s with data := data }.put i ⟨running, queue, .idle⟩) := by
  intro data' hbuild
  obtain ⟨hbuilt, -⟩ := hsettled data' hbuild
  refine ⟨fun j x d hx hd => ?_, fun _ => hbuilt i _ data hw rfl⟩
  rcases (getElem?_put hw).mp hx with ⟨-, rfl⟩ | ⟨-, hx⟩
  · exact absurd hd (by simp)
  · exact hbuilt j x d hx hd

/-- An observer is started where none is left. -/
theorem KeepsUp.start (h : KeepsUp key s) (hnone : s.observer = none)
    (hrest : ∀ w ∈ s.watchers, w.busy = false) :
    KeepsUp key { s with observer := some s.watchers.length, watchers := s.watchers ++ [{}] } := by
  -- all observers but the new one are at rest
  have hnew : ∀ (j : ℕ) (x : Watcher K), (s.watchers ++ [({} : Watcher K)])[j]? = some x →
      s.watchers[j]? = some x ∧ x.busy = false ∨
        j = s.watchers.length ∧ x = ({} : Watcher K) := by
    intro j x hx
    rw [List.getElem?_append] at hx
    split_ifs at hx with hlt
    · exact .inl ⟨hx, hrest x (List.mem_of_getElem? hx)⟩
    · obtain ⟨hj, hlast⟩ := List.getElem?_eq_some_iff.mp hx
      rw [List.length_singleton] at hj
      exact .inr ⟨by omega, by simpa using hlast.symm⟩
  have hsettled : Settled key s := by
    refine h.current.resolve_left ?_
    rintro (⟨i, w, hi, -⟩ | ⟨i, w, hw, hphase⟩)
    · exact absurd hi (by simp [hnone])
    · have hbusy := hrest w (List.mem_of_getElem? hw)
      simp [Watcher.busy, hphase, Phase.isIdle] at hbusy
  refine ⟨fun i j w x hw hx hbw hbx => ?_, .inr fun data hbuild => ?_⟩
  · rcases hnew i w hw with ⟨-, hrestw⟩ | ⟨rfl, -⟩
    · exact absurd hbw (by simp [hrestw])
    · rcases hnew j x hx with ⟨-, hrestx⟩ | ⟨rfl, -⟩
      · exact absurd hbx (by simp [hrestx])
      · rfl
  · obtain ⟨hbuilt, hidle⟩ := hsettled data hbuild
    refine ⟨fun j x d hx hd => ?_, fun hall => hidle fun j x hx => ?_⟩
    · rcases hnew j x hx with ⟨hx, -⟩ | ⟨-, rfl⟩
      · exact hbuilt j x d hx hd
      · exact absurd hd (by simp)
    · exact hall j x (List.getElem?_append_left (List.getElem?_eq_some_iff.mp hx).1 ▸ hx)

theorem KeepsUp.step (hqueues : Queues enqueue) (h : KeepsUp key s) (hobserved : Observed s)
    (hattended : Attended s l) (hstep : Step enqueue key s l s') : KeepsUp key s' := by
  cases hstep with
  | write content =>
    exact ⟨single_notify h.single, .inl (due_write hqueues content hobserved hattended)⟩
  | replace content => exact hattended.elim
  | event e =>
    exact ⟨single_notify h.single, h.current.imp (due_notify hqueues) Settled.notify⟩
  | idle => exact h
  | start hnone =>
    exact h.start hnone (hattended.resolve_left (by simp [hnone]))
  | stop =>
    -- an event that is left would be due, and lost
    exact ⟨h.single, .inr (h.current.resolve_left (not_due_of_quiet hattended hobserved))⟩
  | halt hw hi =>
    refine ⟨single_put h.single hw fun hbusy => ?_, h.current.imp (fun hdue => ?_) fun hs => ?_⟩
    · exact busy_of_not_idle (by simpa [Watcher.busy] using hbusy)
    · exact hdue.put hw (fun hobserver => absurd hobserver hi) id
    · exact hs.put hw rfl
  | @take i e queue hw =>
    refine ⟨single_put h.single hw fun _ => rfl, ?_⟩
    cases hwatched : e.watched with
    | true => exact .inl (.inr ⟨i, _, (getElem?_put hw).mpr (.inl ⟨rfl, rfl⟩), rfl⟩)
    | false =>
      refine h.current.imp (fun hdue => ?_) fun hs => hs.put hw rfl
      refine hdue.put hw (fun _ x hx hcalls => ?_) fun hphase => absurd hphase (by simp)
      rcases List.mem_cons.mp hx with rfl | hx
      · exact absurd hcalls (by simp [hwatched])
      · exact .inl ⟨x, hx, hcalls⟩
  | read hw =>
    -- there is no other observer, which might have read the file earlier and store that later
    exact ⟨single_put h.single hw fun _ => busy_of_not_idle rfl, .inr (settled_read h.single hw)⟩
  | @store i running queue data hw =>
    have hsingle : ({ s with data := data } : State K).Single := h.single
    refine ⟨single_put hsingle hw fun _ => busy_of_not_idle rfl, h.current.imp (fun hdue => ?_)
      fun hs => settled_store hs hw⟩
    have hdue' : Due { s with data := data } := hdue
    exact hdue'.put hw (fun _ e he hwatched => .inl ⟨e, he, hwatched⟩)
      fun hphase => absurd hphase (by simp)

/-- **An index that is new, or that a change was noticed by, keeps up with the file.** -/
theorem keepsUp_of_notices (hqueues : Queues enqueue) {file : Option Value} {s₀ : State K}
    (hnew : create key file = .ok s₀) (hsound : Sound key cs s)
    (h : Notices enqueue available key s₀ s) : KeepsUp key s := by
  rcases h with rfl | ⟨a, content, hsingle, hobserver, hstep⟩
  · cases hbuild : buildIndex key file with
    | error => simp [create, hbuild, Except.map] at hnew
    | ok data =>
      obtain rfl : (⟨file, data, none, []⟩ : State K) = s := by
        simpa [create, hbuild, Except.map] using hnew
      refine ⟨fun i j w x hw => absurd hw (by simp), .inr fun data' hbuild' => ?_⟩
      exact ⟨fun i w d hw => absurd hw (by simp),
        fun _ => Except.ok.inj (hbuild.symm.trans hbuild')⟩
  · obtain rfl := Option.some.inj hstep
    refine ⟨single_notify hsingle, .inl (due_write hqueues content (fun i hi => ?_) hobserver)⟩
    obtain ⟨x, hx, hrun⟩ := hsound.observed i hi
    obtain ⟨w, hw, rfl⟩ := getElem?_notify.mp hx
    exact ⟨w, hw, (running_notify modified).symm.trans hrun⟩

theorem contents_snoc (file : Option Value) (ls : List Label) (l : Label) :
    contents file (ls ++ [l]) = contents file ls ++ l.content.toList := by
  rw [contents, List.filterMap_append, ← List.cons_append, contents]
  cases hl : l.content <;> simp [hl]

/-! ### The index and the file -/

theorem sound_of_run {file : Option Value} {s₀ : State K} (hnew : create key file = .ok s₀)
    {ls : List Label} (h : Lts.Run (Lts.ofStep (step enqueue available key)) s₀ ls s) :
    Sound key (contents file ls) s :=
  h.inv (I := fun ls s => Sound key (contents file ls) s) (sound_create hnew)
    fun ls s l s' _ hsound hstep => by
      rw [contents_snoc]
      exact hsound.step (.of_step hstep)

/-- **What the link index is of**: in every run, of something that was in the file. And from a
state on in which it is new, or in which a change was noticed by its only observer, it is of what
is in the file, whenever all events are handled, as long as the file is attended to and can be
indexed; whatever went wrong before. -/
theorem current_of_run (hqueues : Queues enqueue) {file : Option Value} {s₀ : State K}
    (hnew : create key file = .ok s₀) {ls : List Label}
    (h : Lts.Run (Lts.ofStep (step enqueue available key)) s₀ ls s) :
    (∃ content ∈ contents file ls, buildIndex key content = .ok s.data) ∧
    (Notices enqueue available key s₀ s → ∀ ms s',
      Lts.Run (Lts.Under Attended (Lts.ofStep (step enqueue available key))) s ms s' →
      s'.Quiet → ∀ data, buildIndex key s'.file = .ok data → s'.data = data) := by
  have hsound := sound_of_run hnew h
  refine ⟨hsound.data, fun hnotices ms s' hrun hquiet data hbuild => ?_⟩
  have hkeeps : (∃ cs, Sound key cs s') ∧ KeepsUp key s' :=
    hrun.inv_state (I := fun s => (∃ cs, Sound key cs s) ∧ KeepsUp key s)
      ⟨⟨_, hsound⟩, keepsUp_of_notices hqueues hnew hsound hnotices⟩
      fun a l b hI hl => by
        obtain ⟨⟨cs, hs⟩, hk⟩ := hI
        have hstep := Step.of_step hl.2
        exact ⟨⟨_, hs.step hstep⟩, hk.step hqueues hs.observed hl.1 hstep⟩
  obtain ⟨⟨_, hs⟩, hk⟩ := hkeeps
  exact (hk.current.resolve_left (not_due_of_quiet hquiet hs.observed)).data_eq hquiet hbuild

/-! ### Two observers -/

/-- The queue of watchdog leaves out an event that is the same as the last one. -/
def skipRepeats (queue : List Event) (e : Event) : List Event :=
  if queue.getLast? = some e then queue else queue ++ [e]

theorem queues_skipRepeats : Queues skipRepeats := by
  intro queue e x
  unfold skipRepeats
  split_ifs with hlast
  · constructor
    · exact .inl
    · rintro (hx | rfl)
      · exact hx
      · exact List.mem_of_getLast? hlast
  · simp

/-- `solutions.yaml` with one solution of an outcome. -/
def solutionOf (outcomeId : String) : Option Value := solutionsFile [linked "SOL-1" outcomeId]

/-- An observer that is there goes on. -/
def goesOn (_ : State Text) : Label → Bool
  | .take _ | .read _ | .store _ => true
  | _ => false

theorem attended_of_goesOn (s : State Text) (l : Label) (h : goesOn s l) : Attended s l := by
  cases l with
  | take | read | store => trivial
  | _ => exact absurd h (by simp [goesOn])

/-- After a change that is missed, and one that is not. -/
def noticed : State Text := ⟨solutionOf "JTBD-2", {}, some 0, [{ queue := [modified] }]⟩

/-- When its event is handled. -/
def handled : State Text :=
  ⟨solutionOf "JTBD-2", ({} : IndexData Text).link (lit "SOL-1") (lit "JTBD-2"), some 0, [{}]⟩

theorem current_of_run_handled : ∃ data,
    buildIndex textKey (solutionOf "JTBD-2") = .ok data ∧ handled.data = data := by
  have hrun : Lts.Run (Lts.ofStep (step skipRepeats true textKey)) ⟨none, {}, none, []⟩
      [.replace (solutionOf "JTBD-1"), .start, .write (solutionOf "JTBD-2")] noticed :=
    Lts.run_of_exec rfl
  have hnotices : Notices skipRepeats true textKey ⟨none, {}, none, []⟩ noticed := by
    refine .inr ⟨⟨solutionOf "JTBD-1", {}, some 0, [{}]⟩, solutionOf "JTBD-2", ?_, rfl, rfl⟩
    intro i j w x hw hx _ _
    have hi := (List.getElem?_eq_some_iff.mp hw).1
    have hj := (List.getElem?_eq_some_iff.mp hx).1
    rw [List.length_singleton] at hi hj
    omega
  have hafter : Lts.Run (Lts.Under Attended (Lts.ofStep (step skipRepeats true textKey))) noticed
      [.take 0, .read 0, .store 0] handled := by
    obtain ⟨s, hs, hhandled⟩ := Lts.exists_under_run_of_exec (step skipRepeats true textKey)
      (C := Attended) goesOn attended_of_goesOn noticed [.take 0, .read 0, .store 0]
      (fun _ => true) rfl
    have hexec : Lts.exec (step skipRepeats true textKey) noticed [.take 0, .read 0, .store 0] =
        some handled := rfl
    obtain rfl : s = handled := hs.of_under.functional (Lts.run_of_exec hexec)
    exact hs
  have hnew : create textKey none = .ok ⟨none, {}, none, []⟩ := rfl
  exact ⟨_, rfl, (current_of_run queues_skipRepeats hnew hrun).2 hnotices _ _ hafter (by decide)
    _ rfl⟩

/-- `stop` has not waited long enough, and there is a second observer beside the first. -/
def overlapping : List Label :=
  [.start, .write (solutionOf "JTBD-1"), .take 0, .read 0, .stop, .halt 0, .start,
    .write (solutionOf "JTBD-2"), .take 1, .read 1, .store 1, .store 0]

/-- All events are handled, and what is read is not the index of the file. -/
def stale (s : State Text) : Bool :=
  decide s.Quiet &&
    match buildIndex textKey s.file with
    | .ok data => s.data.solutions (lit "JTBD-2") ≠ data.solutions (lit "JTBD-2")
    | .error () => false

/-- **A second observer beside the first**: each change is noticed and handled, but what the
first one has built is stored after what the second one has. -/
theorem exists_stale : ∃ s, Lts.Run (Lts.ofStep (step skipRepeats true textKey))
    ⟨none, {}, none, []⟩ overlapping s ∧ stale s :=
  Lts.exists_run_of_exec _ _ overlapping stale (by decide +kernel)

end Reload

end Registries

end OtamanBridge
