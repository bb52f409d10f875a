import OtamanBridge.Lib.Dict
import OtamanBridge.Lib.PyText
import OtamanBridge.Lib.Run

/-!
# One topic for a project

`_resolve_topic` of the Telegram transport, called by any number of coroutines. A coroutine
gives way where it waits for the lock and where it waits for Telegram, and nowhere else, so
these are the ends of its steps. The first step looks a project up in the settings and in
the cache without the lock; the second one has the lock, looks it up again and asks for a
new topic; the third one has the answer, and puts it into the cache and into the file.

The cache is a `dict` object that a coroutine keeps in hand over the second wait, while
`_cached_topics` may be set to another one. So the objects are numbered, and what is put into
one shows wherever its number is held. What a coroutine holds is still the cache when the
answer comes, since only the holder of the lock sets another
(`OtamanBridge.Telegram.Topics.Inv.asking`), and this is what makes one topic of many requests
(`OtamanBridge.Telegram.Topics.oneTopic`).
-/

namespace OtamanBridge

namespace Telegram

namespace Topics

open Py

/-! ### The cache file -/

/-- What `except (OSError, ValueError)` catches, and the rest. -/
inductive Raised
  | caught
  | uncaught

/-- What Python makes of a value. -/
structure Python where
  /-- `str(k)`. -/
  str : Value → Text
  /-- `int(v)`. -/
  int : Value → Except Raised ℤ

/-- The topic ids by project. -/
abbrev Cache := AList fun _ : Text => ℤ

/-- The file at `topic_cache_file`. -/
inductive CacheFile
  /-- `is_file` says no. -/
  | absent
  /-- It cannot be read, or is no JSON. -/
  | corrupt
  | json (v : Value)

/-- `{str(k): int(v) for k, v in (data or {}).items()}`. -/
def topicsOf (py : Python) (data : Value) : Except Raised Cache :=
  if data.truthy then
    match data with
    | .dict items =>
      items.foldlM (fun d kv => (py.int kv.2).map fun id => d.insert (py.str kv.1) id) ∅
    | _ => .error .uncaught
  else .ok ∅

/-- What `_load_topic_cache` makes of the file: a corrupt one counts as empty, unless it
raises what is not caught. -/
def readTopics (py : Python) : CacheFile → Except Unit Cache
  | .absent | .corrupt => .ok ∅
  | .json data =>
    match topicsOf py data with
    | .ok cache => .ok cache
    | .error .caught => .ok ∅
    | .error .uncaught => .error ()

/-! ### States -/

/-- The settings. -/
structure Config where
  topicMap : Cache
  defaultTopicId : Option ℤ
  autoCreateTopics : Bool

/-- Where a coroutine in `_resolve_topic` waits. -/
inductive Phase
  /-- For the lock. -/
  | locking (project : Text)
  /-- For `create_forum_topic`, with the lock and this `cache`. -/
  | asking (project : Text) (cache : ℕ)
  deriving DecidableEq

/-- What has happened. -/
inductive Event (K : Type)
  /-- The cache was read from the file. -/
  | loaded (cache : Cache)
  | started (k : K) (project : Text)
  /-- `create_forum_topic` yielded a thread id. -/
  | created (k : K) (project : Text) (id : ℤ)
  /-- It raised, or yielded none. -/
  | failed (k : K) (project : Text)
  /-- The cache was written to the file. -/
  | written (cache : Cache)
  | returned (k : K) (project : Text) (topic : Option ℤ)
  | raised (k : K) (project : Text)
  deriving DecidableEq

/-- The transport, its coroutines and what has happened, the last first. -/
structure State (K : Type) where
  /-- The `dict` objects. -/
  objects : ℕ → Cache
  /-- The number of the next one. -/
  next : ℕ
  /-- `_cached_topics`. -/
  cached : Option ℕ
  /-- The coroutine that has `_topic_lock`. -/
  holder : Option K
  procs : K → Option Phase
  log : List (Event K)

namespace State

variable {K : Type}

/-- Nothing has happened. -/
def init : State K where
  objects := fun _ => ∅
  next := 0
  cached := none
  holder := none
  procs := fun _ => none
  log := []

variable (s : State K)

/-- Note what happened. -/
def note (e : Event K) : State K := { s with log := e :: s.log }

/-- `_cached_topics` is a new `dict` object. -/
def setCached (cache : Cache) : State K :=
  { s with
    objects := Function.update s.objects s.next cache
    next := s.next + 1
    cached := some s.next }

/-- `cache[project] = id`. -/
def put (cache : ℕ) (project : Text) (id : ℤ) : State K :=
  { s with
    objects := Function.update s.objects cache ((s.objects cache).insert project id) }

/-- What is in `_cached_topics`. -/
def topics : Cache := (s.cached.map s.objects).getD ∅

/-- What a lookup in the cache finds. -/
def lookup (project : Text) : Option ℤ := s.topics.lookup project

end State

/-! ### The steps of a coroutine -/

variable {K : Type}

/-- `_load_topic_cache`: the state after it, and the object. -/
def loadTopicCache (py : Python) (s : State K) (file : CacheFile) : Except Unit (State K × ℕ) :=
  match s.cached with
  | some cache => .ok (s, cache)
  | none =>
    (readTopics py file).map fun cache => ((s.setCached cache).note (.loaded cache), s.next)

/-- `_write_topic_cache`: the new object is set, and then the file is written or not. -/
def writeTopicCache (s : State K) (cache : ℕ) (written : Bool) : State K :=
  if written then (s.setCached (s.objects cache)).note (.written (s.objects cache))
  else s.setCached (s.objects cache)

variable [DecidableEq K]

namespace State

/-- The coroutine waits here. -/
def wait (s : State K) (k : K) (phase : Phase) : State K :=
  { s with procs := Function.update s.procs k (some phase) }

/-- The coroutine is at its end. -/
def leave (s : State K) (k : K) (e : Event K) : State K :=
  { s with procs := Function.update s.procs k none, log := e :: s.log }

/-- The lock is let go. -/
def release (s : State K) : State K := { s with holder := none }

end State

variable (cfg : Config) (py : Python)

/-- `_resolve_topic`, up to the lock. -/
def resolve (s : State K) (k : K) (project : Text) (file : CacheFile) : State K :=
  let s := s.note (.started k project)
  match cfg.topicMap.lookup project with
  | some id => s.leave k (.returned k project (some id))
  | none =>
    match loadTopicCache py s file with
    | .error () => s.leave k (.raised k project)
    | .ok (s, cache) =>
      match (s.objects cache).lookup project with
      | some id => s.leave k (.returned k project (some id))
      | none =>
        if cfg.autoCreateTopics then s.wait k (.locking project)
        else s.leave k (.returned k project cfg.defaultTopicId)

/-- From the lock up to `create_forum_topic`. -/
def lock (s : State K) (k : K) (project : Text) (file : CacheFile) : State K :=
  match loadTopicCache py s file with
  | .error () => s.leave k (.raised k project)
  | .ok (s, cache) =>
    match (s.objects cache).lookup project with
    | some id => s.leave k (.returned k project (some id))
    | none => { s.wait k (.asking project cache) with holder := some k }

/-- From the answer of `create_forum_topic` to the end: `int(topic.message_thread_id)`, if
nothing was raised. -/
def answer (s : State K) (k : K) (project : Text) (cache : ℕ) (threadId : Option ℤ)
    (written : Bool) : State K :=
  match threadId with
  | none => ((s.note (.failed k project)).leave k
      (.returned k project cfg.defaultTopicId)).release
  | some id =>
    if 0 < id then
      ((writeTopicCache ((s.note (.created k project id)).put cache project id) cache
        written).leave k
          (.returned k project (if written then some id else cfg.defaultTopicId))).release
    else ((s.note (.failed k project)).leave k
      (.returned k project cfg.defaultTopicId)).release

/-- What a step is told: who moves, what is in the file, and what Telegram answers. -/
inductive Label (K : Type)
  | resolve (k : K) (project : Text) (file : CacheFile)
  | lock (k : K) (file : CacheFile)
  | answer (k : K) (threadId : Option ℤ) (written : Bool)
  /-- The coroutine is cancelled where it waits. -/
  | cancel (k : K)

/-- One step. -/
def step (s : State K) : Label K → Option (State K)
  | .resolve k project file =>
    if s.procs k = none then some (resolve cfg py s k project file) else none
  | .lock k file =>
    match s.procs k with
    | some (.locking project) =>
      if s.holder = none then some (lock py s k project file) else none
    | _ => none
  | .answer k threadId written =>
    match s.procs k with
    | some (.asking project cache) => some (answer cfg s k project cache threadId written)
    | _ => none
  | .cancel k =>
    match s.procs k with
    | some (.locking project) => some (s.leave k (.raised k project))
    | some (.asking project _) => some (s.leave k (.raised k project)).release
    | none => none

/-! ### What the cache says -/

namespace Event

/-- The project a topic was created for. -/
def makes : Event K → Option Text
  | created _ project _ => some project
  | _ => none

/-- It says nothing about the cache. -/
def Plain : Event K → Prop
  | loaded _ | created .. | written _ => False
  | _ => True

end Event

/-- The projects that topics were created for, the last first. -/
def made (log : List (Event K)) : List Text := log.filterMap Event.makes

/-- **Where an id may come from**: it was in the file, or `create_forum_topic` yielded it. -/
def Known (log : List (Event K)) (project : Text) (id : ℤ) : Prop :=
  (∃ cache, .loaded cache ∈ log ∧ cache.lookup project = some id) ∨
    ∃ k, .created k project id ∈ log

/-- What a coroutine that waits is to resolve. -/
def Phase.project : Phase → Text
  | .locking project => project
  | .asking project _ => project

variable {cfg py} {s s' : State K} {k : K} {project : Text} {id : ℤ} {e : Event K}

omit [DecidableEq K] in
theorem Known.mono {log log' : List (Event K)} (h : Known log project id) (hsub : log ⊆ log') :
    Known log' project id := by
  rcases h with ⟨cache, hmem, hid⟩ | ⟨k, hmem⟩
  · exact .inl ⟨cache, hsub hmem, hid⟩
  · exact .inr ⟨k, hsub hmem⟩

/-- **The invariant**: a coroutine that asks for a topic has the lock, holds the cache, and its
project is not there; a topic that was created is in the cache, for a project that is not
in the settings, and no project has two; and every id comes from somewhere. -/
structure Inv (cfg : Config) (s : State K) : Prop where
  asking : ∀ k project cache, s.procs k = some (.asking project cache) →
    s.holder = some k ∧ s.cached = some cache ∧ s.lookup project = none
  waiting : ∀ k phase, s.procs k = some phase → cfg.topicMap.lookup phase.project = none
  cached : ∀ k project id, .created k project id ∈ s.log →
    cfg.topicMap.lookup project = none ∧ s.lookup project = some id
  once : (made s.log).Nodup
  known : ∀ project id, s.lookup project = some id → Known s.log project id
  files : ∀ cache, .written cache ∈ s.log →
    ∀ project id, cache.lookup project = some id → Known s.log project id

namespace Inv

omit [DecidableEq K] in
theorem init : Inv cfg (State.init : State K) where
  asking k project cache h := by cases h
  waiting k phase h := by cases h
  cached k project id h := absurd h List.not_mem_nil
  once := List.nodup_nil
  known project id h := by cases h
  files cache h := absurd h List.not_mem_nil

omit [DecidableEq K] in
/-- An event that says nothing about the cache. -/
theorem note (h : Inv cfg s) (he : e.Plain) : Inv cfg (s.note e) where
  asking := h.asking
  waiting := h.waiting
  cached k project id hmem := by
    rcases List.mem_cons.mp hmem with rfl | hmem
    · cases he
    · exact h.cached k project id hmem
  once := by
    have hmakes : e.makes = none := by
      cases e <;> first | rfl | cases he
    rw [made, State.note, List.filterMap_cons_none hmakes]
    exact h.once
  known project id hid := (h.known project id hid).mono (List.subset_cons_self _ _)
  files cache hmem project id hid := by
    rcases List.mem_cons.mp hmem with rfl | hmem
    · cases he
    · exact (h.files cache hmem project id hid).mono (List.subset_cons_self _ _)

/-- A coroutine ends. -/
theorem leave (h : Inv cfg s) (he : e.Plain) : Inv cfg (s.leave k e) := by
  have hprocs : ∀ k' phase, (s.leave k e).procs k' = some phase → s.procs k' = some phase := by
    intro k' phase hk'
    rcases Lts.update_eq_some hk' with ⟨-, hnone⟩ | ⟨-, hk'⟩
    · cases hnone
    · exact hk'
  have hnote := h.note he
  exact ⟨fun k' project cache hk' => h.asking k' project cache (hprocs k' _ hk'),
    fun k' phase hk' => h.waiting k' phase (hprocs k' phase hk'), hnote.cached, hnote.once,
    hnote.known, hnote.files⟩

/-- A coroutine begins to wait for the lock. -/
theorem wait (h : Inv cfg s) (hmap : cfg.topicMap.lookup project = none) :
    Inv cfg (s.wait k (.locking project)) := by
  refine ⟨fun k' project' cache hk' => ?_, fun k' phase hk' => ?_, h.cached, h.once, h.known,
    h.files⟩
  · rcases Lts.update_eq_some hk' with ⟨-, hphase⟩ | ⟨-, hk'⟩
    · cases hphase
    · exact h.asking k' project' cache hk'
  · rcases Lts.update_eq_some hk' with ⟨-, hphase⟩ | ⟨-, hk'⟩
    · obtain rfl := Option.some.inj hphase
      exact hmap
    · exact h.waiting k' phase hk'

/-- A coroutine takes the lock and asks for a topic. -/
theorem ask {cache : ℕ} (h : Inv cfg s) (hmap : cfg.topicMap.lookup project = none)
    (hholder : s.holder = none) (hcached : s.cached = some cache)
    (hproject : s.lookup project = none) :
    Inv cfg { s.wait k (.asking project cache) with holder := some k } := by
  refine ⟨fun k' project' cache' hk' => ?_, fun k' phase hk' => ?_, h.cached, h.once, h.known,
    h.files⟩
  · rcases Lts.update_eq_some hk' with ⟨rfl, hphase⟩ | ⟨-, hk'⟩
    · obtain ⟨rfl, rfl⟩ := Phase.asking.inj (Option.some.inj hphase)
      exact ⟨rfl, hcached, hproject⟩
    · -- nobody else asks, as the lock was free
      have := (h.asking k' project' cache' hk').1
      rw [hholder] at this
      cases this
  · rcases Lts.update_eq_some hk' with ⟨-, hphase⟩ | ⟨-, hk'⟩
    · obtain rfl := Option.some.inj hphase
      exact hmap
    · exact h.waiting k' phase hk'

omit [DecidableEq K] in
/-- The lock is let go, when nobody asks. -/
theorem release (h : Inv cfg s) (hnone : ∀ k project cache,
    s.procs k ≠ some (.asking project cache)) : Inv cfg s.release :=
  ⟨fun k project cache hk => absurd hk (hnone k project cache), h.waiting, h.cached, h.once,
    h.known, h.files⟩

omit [DecidableEq K] in
/-- The cache is read, and is the object that comes back. -/
theorem load {file : CacheFile} {cache : ℕ} (h : Inv cfg s)
    (hload : loadTopicCache py s file = .ok (s', cache)) : Inv cfg s' := by
  rw [loadTopicCache] at hload
  cases hcached : s.cached with
  | some c =>
    rw [hcached] at hload
    obtain ⟨rfl, -⟩ := Prod.mk.inj (Except.ok.inj hload)
    exact h
  | none =>
    -- nothing was created yet, and nobody asks
    have hlookup : ∀ project, s.lookup project = none := by
      intro project
      rw [State.lookup, State.topics, hcached]
      rfl
    rw [hcached] at hload
    cases htopics : readTopics py file with
    | error e =>
      rw [htopics] at hload
      cases hload
    | ok topics =>
      rw [htopics] at hload
      obtain ⟨rfl, rfl⟩ := Prod.mk.inj (Except.ok.inj hload)
      have hnew : ((s.setCached topics).note (.loaded topics)).topics = topics := by
        show Function.update s.objects s.next topics s.next = topics
        exact Function.update_self ..
      refine ⟨fun k project c hk => ?_, h.waiting, fun k project id hmem => ?_, h.once,
        fun project id hid => ?_, fun c hmem project id hid => ?_⟩
      · have := (h.asking k project c hk).2.1
        rw [hcached] at this
        cases this
      · rcases List.mem_cons.mp hmem with hmem | hmem
        · cases hmem
        · have := (h.cached k project id hmem).2
          rw [hlookup] at this
          cases this
      · rw [State.lookup, hnew] at hid
        exact .inl ⟨topics, List.mem_cons_self, hid⟩
      · rcases List.mem_cons.mp hmem with hmem | hmem
        · cases hmem
        · exact (h.files c hmem project id hid).mono (List.subset_cons_self _ _)

end Inv

omit [DecidableEq K] in
/-- What reading the cache leaves alone, and what it returns. -/
theorem loadTopicCache_eq {file : CacheFile} {cache : ℕ}
    (hload : loadTopicCache py s file = .ok (s', cache)) :
    s'.cached = some cache ∧ s'.procs = s.procs ∧ s'.holder = s.holder ∧
      s'.topics = s'.objects cache := by
  rw [loadTopicCache] at hload
  cases hcached : s.cached with
  | some c =>
    rw [hcached] at hload
    obtain ⟨rfl, rfl⟩ := Prod.mk.inj (Except.ok.inj hload)
    exact ⟨hcached, rfl, rfl, by rw [State.topics, hcached]; rfl⟩
  | none =>
    rw [hcached] at hload
    cases htopics : readTopics py file with
    | error e =>
      rw [htopics] at hload
      cases hload
    | ok topics =>
      rw [htopics] at hload
      obtain ⟨rfl, rfl⟩ := Prod.mk.inj (Except.ok.inj hload)
      exact ⟨rfl, rfl, rfl, rfl⟩

/-! ### The steps keep it -/

omit [DecidableEq K] in
/-- What the cache is after `_write_topic_cache`, and what else there is. -/
theorem writeTopicCache_eq (s : State K) (cache : ℕ) (written : Bool) :
    (writeTopicCache s cache written).topics = s.objects cache ∧
      (writeTopicCache s cache written).procs = s.procs ∧
      (writeTopicCache s cache written).log =
        if written then .written (s.objects cache) :: s.log else s.log := by
  have hset : (s.setCached (s.objects cache)).topics = s.objects cache := by
    show Function.update s.objects s.next (s.objects cache) s.next = s.objects cache
    exact Function.update_self ..
  cases written with
  | true => exact ⟨hset, rfl, rfl⟩
  | false => exact ⟨hset, rfl, rfl⟩

/-- **What an answer with a topic does**: the topic is in the cache, whether the file is written
or not, and the coroutine is at its end. -/
structure Created (s : State K) (k : K) (project : Text) (id : ℤ) (s' : State K) : Prop where
  topics : s'.topics = s.topics.insert project id
  procs : s'.procs = Function.update s.procs k none
  log : ∃ topic news, (news = [] ∨ news = [.written (s.topics.insert project id)]) ∧
    s'.log = .returned k project topic :: (news ++ .created k project id :: s.log)

theorem created_answer (cfg : Config) (k : K) (project : Text) {cache : ℕ} (written : Bool)
    (hcached : s.cached = some cache) (hid : 0 < id) :
    Created s k project id (answer cfg s k project cache (some id) written) := by
  have htopics : s.topics = s.objects cache := by
    rw [State.topics, hcached]
    rfl
  obtain ⟨hset, hprocs, hlog⟩ :=
    writeTopicCache_eq ((s.note (.created k project id)).put cache project id) cache written
  have hput : ((s.note (.created k project id)).put cache project id).objects cache =
      s.topics.insert project id := by
    rw [htopics]
    exact Function.update_self ..
  rw [hput] at hset hlog
  rw [answer, if_pos hid]
  have hleft := congrArg (fun procs : K → Option Phase => Function.update procs k none) hprocs
  refine ⟨hset, hleft, if written then some id else cfg.defaultTopicId,
    if written then [.written (s.topics.insert project id)] else [], ?_, ?_⟩
  · cases written with
    | true => exact .inr rfl
    | false => exact .inl rfl
  · refine congrArg (List.cons _) (hlog.trans ?_)
    cases written <;> rfl

namespace Created

variable {id : ℤ} (h : Created s k project id s')

include h

/-- The log has only grown. -/
theorem subset : s.log ⊆ s'.log := by
  obtain ⟨topic, news, -, hlog⟩ := h.log
  rw [hlog]
  exact fun e he => List.mem_cons_of_mem _ (List.mem_append_right _ (List.mem_cons_of_mem _ he))

theorem created : .created k project id ∈ s'.log := by
  obtain ⟨topic, news, -, hlog⟩ := h.log
  rw [hlog]
  exact List.mem_cons_of_mem _ (List.mem_append_right _ List.mem_cons_self)

/-- What it has grown by. -/
theorem mem_log {e : Event K} (he : e ∈ s'.log) : (∃ topic, e = .returned k project topic) ∨
    e = .written (s.topics.insert project id) ∨ e = .created k project id ∨ e ∈ s.log := by
  obtain ⟨topic, news, hnews, hlog⟩ := h.log
  rw [hlog] at he
  rcases List.mem_cons.mp he with rfl | he
  · exact .inl ⟨topic, rfl⟩
  · rcases List.mem_append.mp he with he | he
    · rcases hnews with rfl | rfl
      · exact absurd he List.not_mem_nil
      · exact .inr (.inl (List.mem_singleton.mp he))
    · exact .inr (.inr (List.mem_cons.mp he))

theorem made : made s'.log = project :: made s.log := by
  obtain ⟨topic, news, hnews, hlog⟩ := h.log
  rw [hlog]
  rcases hnews with rfl | rfl <;> rfl

/-- A coroutine that waits is one that waited, and not this one. -/
theorem procs_eq_some {k' : K} {phase : Phase} (hk' : s'.procs k' = some phase) :
    k' ≠ k ∧ s.procs k' = some phase := by
  rw [h.procs] at hk'
  rcases Lts.update_eq_some hk' with ⟨-, hnone⟩ | hold
  · cases hnone
  · exact hold

end Created

/-- The lock is taken when it is free, by one that waits for it. -/
theorem step_lock {file : CacheFile} (h : step cfg py s (.lock k file) = some s') : ∃ project,
    s.procs k = some (.locking project) ∧ s.holder = none ∧
      s' = lock py s k project file := by
  rw [step] at h
  split at h
  next project hk =>
    split_ifs at h with hholder
    exact ⟨project, hk, hholder, (Option.some.inj h).symm⟩
  · cases h

/-- An answer is for one that asked. -/
theorem step_answer {threadId : Option ℤ} {written : Bool}
    (h : step cfg py s (.answer k threadId written) = some s') : ∃ project cache,
    s.procs k = some (.asking project cache) ∧
      s' = answer cfg s k project cache threadId written := by
  rw [step] at h
  split at h
  next project cache hk => exact ⟨project, cache, hk, (Option.some.inj h).symm⟩
  · cases h

/-- One that waits is cancelled; if it asked, it has the lock. -/
theorem step_cancel (h : step cfg py s (.cancel k) = some s') : ∃ project,
    s.procs k = some (.locking project) ∧ s' = s.leave k (.raised k project) ∨
      ∃ cache, s.procs k = some (.asking project cache) ∧
        s' = (s.leave k (.raised k project)).release := by
  rw [step] at h
  split at h
  next project hk => exact ⟨project, .inl ⟨hk, (Option.some.inj h).symm⟩⟩
  next project cache hk => exact ⟨project, .inr ⟨cache, hk, (Option.some.inj h).symm⟩⟩
  · cases h

namespace Inv

/-- A coroutine comes up to the lock, or to its end. -/
theorem resolve {file : CacheFile} (h : Inv cfg s) :
    Inv cfg (Topics.resolve cfg py s k project file) := by
  have hstart : Inv cfg (s.note (.started k project)) := h.note (e := .started k project) trivial
  unfold Topics.resolve
  cases hmap : cfg.topicMap.lookup project with
  | some id =>
    simp only
    exact hstart.leave trivial
  | none =>
    simp only
    cases hload : loadTopicCache py (s.note (.started k project)) file with
    | error e =>
      simp only
      exact hstart.leave trivial
    | ok r =>
      obtain ⟨s₁, cache⟩ := r
      have hs₁ := hstart.load hload
      simp only
      cases (s₁.objects cache).lookup project with
      | some id => exact hs₁.leave trivial
      | none =>
        simp only
        split_ifs with hauto
        · exact hs₁.wait hmap
        · exact hs₁.leave trivial

/-- A coroutine has the lock: it asks for a topic, or is at its end. -/
theorem lock {file : CacheFile} (h : Inv cfg s) (hk : s.procs k = some (.locking project))
    (hholder : s.holder = none) : Inv cfg (Topics.lock py s k project file) := by
  unfold Topics.lock
  cases hload : loadTopicCache py s file with
  | error e =>
    simp only
    exact h.leave trivial
  | ok r =>
    obtain ⟨s₁, cache⟩ := r
    have hs₁ := h.load hload
    obtain ⟨hcached, -, hsame, htopics⟩ := loadTopicCache_eq hload
    simp only
    cases hproject : (s₁.objects cache).lookup project with
    | some id => exact hs₁.leave trivial
    | none =>
      refine hs₁.ask (h.waiting k _ hk) (hsame.trans hholder) hcached ?_
      rw [State.lookup, htopics]
      exact hproject

omit [DecidableEq K] in
/-- Nobody but the coroutine that had the answer was asking. -/
theorem eq_of_asking {k' : K} {project' : Text} {cache cache' : ℕ} (h : Inv cfg s)
    (hk : s.procs k = some (.asking project cache))
    (hk' : s.procs k' = some (.asking project' cache')) : k' = k :=
  Option.some.inj ((h.asking k' _ _ hk').1.symm.trans (h.asking k _ _ hk).1)

/-- A coroutine that asked is at its end without a topic. -/
theorem giveUp {cache : ℕ} (h : Inv cfg s) (hk : s.procs k = some (.asking project cache))
    (he : e.Plain) : Inv cfg (s.leave k e).release := by
  refine (h.leave he).release fun k' project' cache' hk' => ?_
  rcases Lts.update_eq_some hk' with ⟨-, hnone⟩ | ⟨hne, hk'⟩
  · cases hnone
  · exact hne (h.eq_of_asking hk hk')

omit [DecidableEq K] in
/-- What is not in the cache has not been created. -/
theorem notMem_made (h : Inv cfg s) (hproject : s.lookup project = none) :
    project ∉ made s.log := by
  intro hin
  obtain ⟨e, he, hmakes⟩ := List.mem_filterMap.mp hin
  cases e with
  | created k' p i =>
    obtain rfl : p = project := Option.some.inj hmakes
    have := (h.cached k' p i he).2
    rw [hproject] at this
    cases this
  | loaded | started | failed | written | returned | raised => cases hmakes

/-- A coroutine that asked has a topic. -/
theorem create {cache : ℕ} (h : Inv cfg s) (hk : s.procs k = some (.asking project cache))
    (written : Bool) (hid : 0 < id) :
    Inv cfg (answer cfg s k project cache (some id) written) := by
  obtain ⟨-, hcached, hproject⟩ := h.asking k project cache hk
  have hs' := created_answer cfg k project written hcached hid
  generalize answer cfg s k project cache (some id) written = s' at hs' ⊢
  have hknown : ∀ p i, (s.topics.insert project id).lookup p = some i → Known s'.log p i := by
    intro p i hi
    rcases Dict.lookup_of_insert hi with ⟨rfl, rfl⟩ | ⟨-, hi⟩
    · exact .inr ⟨k, hs'.created⟩
    · exact (h.known p i hi).mono hs'.subset
  refine ⟨fun k' p c hk' => ?_, fun k' phase hk' => ?_, fun k' p i hi => ?_, ?_,
    fun p i hi => ?_, fun c hc p i hi => ?_⟩
  · obtain ⟨hne, hk'⟩ := hs'.procs_eq_some hk'
    exact absurd (h.eq_of_asking hk hk') hne
  · exact h.waiting k' phase (hs'.procs_eq_some hk').2
  · rw [State.lookup, hs'.topics]
    rcases hs'.mem_log hi with ⟨topic, hi⟩ | hi | hi | hi
    · cases hi
    · cases hi
    · obtain ⟨-, rfl, rfl⟩ := Event.created.inj hi
      exact ⟨h.waiting k _ hk, AList.lookup_insert _⟩
    · obtain ⟨hmap, hi⟩ := h.cached k' p i hi
      refine ⟨hmap, ?_⟩
      have hne : p ≠ project := by
        rintro rfl
        rw [hproject] at hi
        cases hi
      rw [AList.lookup_insert_ne hne]
      exact hi
  · rw [hs'.made]
    exact List.nodup_cons.mpr ⟨h.notMem_made hproject, h.once⟩
  · rw [State.lookup, hs'.topics] at hi
    exact hknown p i hi
  · rcases hs'.mem_log hc with ⟨topic, hc⟩ | hc | hc | hc
    · cases hc
    · obtain rfl := Event.written.inj hc
      exact hknown p i hi
    · cases hc
    · exact (h.files c hc p i hi).mono hs'.subset

/-- **Every step keeps the invariant.** -/
theorem after {l : Label K} (h : Inv cfg s) (hstep : step cfg py s l = some s') : Inv cfg s' := by
  cases l with
  | resolve k project file =>
    rw [step] at hstep
    split_ifs at hstep with hk
    obtain rfl := Option.some.inj hstep
    exact h.resolve
  | lock k file =>
    obtain ⟨project, hk, hholder, rfl⟩ := step_lock hstep
    exact h.lock hk hholder
  | answer k threadId written =>
    obtain ⟨project, cache, hk, rfl⟩ := step_answer hstep
    have hfailed : Inv cfg (s.note (.failed k project)) :=
      h.note (e := .failed k project) trivial
    cases threadId with
    | none => exact hfailed.giveUp hk trivial
    | some id =>
      by_cases hid : 0 < id
      · exact h.create hk written hid
      · rw [Topics.answer, if_neg hid]
        exact hfailed.giveUp hk trivial
  | cancel k =>
    obtain ⟨project, hk | ⟨cache, hk⟩⟩ := step_cancel hstep
    · obtain ⟨-, rfl⟩ := hk
      exact h.leave trivial
    · obtain ⟨hk, rfl⟩ := hk
      exact h.giveUp hk trivial

end Inv

/-! ### One topic -/

/-- A project that is in the cache and not in the settings is resolved at once, without the
lock, and nothing changes. -/
theorem resolve_of_lookup {file : CacheFile} (hk : s.procs k = none)
    (hmap : cfg.topicMap.lookup project = none) (hid : s.lookup project = some id) :
    resolve cfg py s k project file =
      { s with log := .returned k project (some id) :: .started k project :: s.log } := by
  have hprocs : Function.update s.procs k none = s.procs := by
    rw [← hk]
    exact Function.update_eq_self ..
  cases hcached : s.cached with
  | none =>
    rw [State.lookup, State.topics, hcached] at hid
    cases hid
  | some cache =>
    have hobject : (s.objects cache).lookup project = some id := by
      rw [State.lookup, State.topics, hcached] at hid
      exact hid
    have hload : loadTopicCache py (s.note (.started k project)) file =
        .ok (s.note (.started k project), cache) := by
      rw [loadTopicCache, State.note, hcached]
    unfold resolve
    simp only [hmap, hload]
    simp only [State.note, State.leave, hobject, hprocs]
    rw [← hcached]

/-- **One topic for a project**: no project has two topics created for it; a resolution that
begins when one was created returns its id at once, and changes nothing; and the cache and
what is written to the file have only ids that were in the file or were created. -/
structure OneTopic (cfg : Config) (py : Python) (s : State K) : Prop where
  once : (made s.log).Nodup
  returns : ∀ k' project id, .created k' project id ∈ s.log → ∀ k file, s.procs k = none →
    step cfg py s (.resolve k project file) = some
      { s with log := .returned k project (some id) :: .started k project :: s.log }
  known : ∀ project id, s.lookup project = some id → Known s.log project id
  files : ∀ cache, .written cache ∈ s.log →
    ∀ project id, cache.lookup project = some id → Known s.log project id

/-- **Every run has one topic for a project**, whoever resolves it and when, and whatever
fails. -/
theorem oneTopic {ls : List (Label K)}
    (hrun : Lts.Run (Lts.ofStep (step cfg py)) State.init ls s) : OneTopic cfg py s := by
  have h : Inv cfg s := Lts.Run.inv_state Inv.init (fun _ _ _ h hstep => h.after hstep) hrun
  refine ⟨h.once, fun k' project id hcreated k file hk => ?_, h.known, h.files⟩
  obtain ⟨hmap, hid⟩ := h.cached k' project id hcreated
  rw [step, if_pos hk, resolve_of_lookup hk hmap hid]

/-- A project that two coroutines resolve, where the file cannot be written: the topic is
created once, and the second one returns its id. -/
theorem oneTopic_raced : ∃ ls s, Lts.Run (Lts.ofStep (step (⟨∅, none, true⟩ : Config)
    ⟨fun _ => [], fun _ => .error .caught⟩)) (State.init : State ℕ) ls s ∧
      .returned 1 (lit "web") (some 7) ∈ s.log ∧
      OneTopic ⟨∅, none, true⟩ ⟨fun _ => [], fun _ => .error .caught⟩ s := by
  obtain ⟨s, hrun, hs⟩ := Lts.exists_run_of_exec (step (⟨∅, none, true⟩ : Config)
    ⟨fun _ => [], fun _ => .error .caught⟩) (State.init : State ℕ)
    [.resolve 0 (lit "web") .absent, .resolve 1 (lit "web") .absent, .lock 0 .absent,
      .answer 0 (some 7) false, .lock 1 .absent]
    (fun s => .returned 1 (lit "web") (some 7) ∈ s.log) (by decide +kernel)
  exact ⟨_, s, hrun, of_decide_eq_true hs, oneTopic hrun⟩

end Topics

end Telegram

end OtamanBridge
