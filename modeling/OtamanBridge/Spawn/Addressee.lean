import OtamanBridge.Spawn.Decision

/-!
# Whose task it is

A message is let in because of its `to`, but whose task it is is then read off the first task
line of a repository that any agent of the bridge owns. Where that is the repository of
another agent, this other agent is spawned, or asked to be reviewed
(`OtamanBridge.Spawn.not_addressed`). Everything that comes of a message names its addressee
exactly if the first owned task line is one of the addressee's, or the message gets no further
than there (`OtamanBridge.Spawn.addressed_iff`).
-/

namespace OtamanBridge

namespace Spawn

open Py

/-- The agent that an effect names. -/
def Effect.agent : Effect → Option Text
  | spawn r => some r.agent
  | claim key _ => some key.1
  | linger ids => some ids.agentId
  | review r => some r.agentId
  | event _ => none

/-- **The addressee is the agent that runs**: whatever the environment answers, what comes of
the message names the agent that it is addressed to. -/
def Addressed (site : Site) (message : TaskMessage) : Prop :=
  ∀ a, readAssignment site message = .ok (some a) →
    ∀ (answers : Answers) (w : World), w.effects = [] →
      (∀ e ∈ (handleBusEvent site answers w message).1.effects, ∀ agent, e.agent = some agent →
        agent = a.addressee) ∧
      ∀ o, (handleBusEvent site answers w message).2 = .ok (some o) → o.agentId = a.addressee

/-- Every effect names this agent, if it names one. -/
def World.Names (w : World) (agentId : Text) : Prop :=
  ∀ e ∈ w.effects, ∀ agent, e.agent = some agent → agent = agentId

variable {site : Site} {answers : Answers} {w : World} {message : TaskMessage} {a : Assignment}
  {task : TaskInfo} {agentId dedup : Text}

theorem World.Names.note (h : w.Names agentId) {e : Effect}
    (he : ∀ agent, e.agent = some agent → agent = agentId) : (w.note e).Names agentId := by
  intro x hx
  rcases List.mem_cons.mp hx with rfl | hx
  · exact he
  · exact h x hx

theorem World.Names.emit (h : w.Names agentId) (answers : Answers) (e : Bus.LifecycleEvent) :
    (emit answers w e).Names agentId := by
  unfold Spawn.emit
  split_ifs
  · exact h.note (by simp [Effect.agent])
  · exact h

/-- What comes of a session that was started. -/
theorem names_spawned (h : w.Names task.agentId) (sessionId : Text) :
    (spawned site answers w a task dedup sessionId).1.Names task.agentId ∧
      ∀ o, (spawned site answers w a task dedup sessionId).2 = .ok (some o) →
        o.agentId = task.agentId := by
  have hclaim : (w.note (.claim (task.agentId, a.humanId) sessionId)).Names task.agentId :=
    h.note fun agent hagent => (Option.some.inj hagent).symm
  unfold spawned
  dsimp only
  split_ifs
  · exact ⟨hclaim, fun o ho => absurd ho (by simp)⟩
  · refine ⟨?_, fun o ho => ?_⟩
    · have htable : World.Names { w.note (.claim (task.agentId, a.humanId) sessionId) with
          table := ((Registry.Request.claimSession (task.agentId, a.humanId) sessionId
            task.mode.word).apply answers.now w.table).2 } task.agentId := hclaim
      have hevent := htable.emit answers
        (spawnStartEvent site a task.agentId sessionId task.mode)
      rcases site.linger with _ | cfg
      · exact hevent
      · exact hevent.note fun agent hagent => (Option.some.inj hagent).symm
    · obtain rfl := Option.some.inj (Except.ok.inj ho)
      rfl

/-- **What comes of a task** names the agent of the task. -/
theorem names_decideTask (h : w.Names task.agentId) :
    (decideTask site answers w message a task).1.Names task.agentId ∧
      ∀ o, (decideTask site answers w message a task).2 = .ok (some o) →
        o.agentId = task.agentId := by
  unfold decideTask
  split
  · exact ⟨h, fun o ho => absurd ho (by simp)⟩
  · split_ifs
    · exact ⟨h, fun o ho => absurd ho (by simp)⟩
    · refine ⟨h, fun o ho => ?_⟩
      obtain rfl := Option.some.inj (Except.ok.inj ho)
      rfl
    · split
      · unfold headlessBranch
        have hspawn : (w.note (.spawn (spawnRequest site message a task))).Names task.agentId :=
          h.note fun agent hagent => (Option.some.inj hagent).symm
        rcases hanswer : answers.spawn (spawnRequest site message a task) with failure | sessionId
        · simp only [hanswer]
          split_ifs
          · refine ⟨hspawn.emit answers _, fun o ho => ?_⟩
            obtain rfl := Option.some.inj (Except.ok.inj ho)
            rfl
          · exact ⟨hspawn, fun o ho => absurd ho (by simp)⟩
        · simp only [hanswer]
          exact names_spawned hspawn sessionId
      · unfold interactiveBranch
        dsimp only
        split_ifs
        · refine ⟨h.note fun agent hagent => (Option.some.inj hagent).symm, fun o ho => ?_⟩
          obtain rfl := Option.some.inj (Except.ok.inj ho)
          rfl
        · exact ⟨h, fun o ho => absurd ho (by simp)⟩

/-- The agent of the task is the owner of the first owned task line, if there is one, and else
the addressee. -/
theorem taskOf_agentId (h : taskOf site.owned a = .ok task) :
    (∃ repo tail, firstOwned a.body site.owned = some (task.agentId, repo, tail)) ∨
      firstOwned a.body site.owned = none ∧ task.agentId = a.addressee := by
  rw [taskOf, extractMode_eq] at h
  rcases hfirst : firstOwned a.body site.owned with _ | ⟨owner, repo, tail⟩
  · simp only [hfirst] at h
    obtain rfl := Except.ok.inj h
    exact .inr ⟨rfl, rfl⟩
  · simp only [hfirst, Option.elim_some] at h
    rcases hmode : readMode tail with e | mode
    · rw [hmode] at h
      exact absurd h (by simp [Except.map])
    · rw [hmode] at h
      obtain rfl := Except.ok.inj h
      exact .inl ⟨repo, tail, rfl⟩

/-- **What comes of a message names its addressee exactly if** the first owned task line is of
a repository of the addressee's, or its mode is refused, or the key of the task or the human
has no UTF-8, which ends the call. -/
theorem addressed_iff (site : Site) (message : TaskMessage) :
    Addressed site message ↔ ∀ a, readAssignment site message = .ok (some a) →
      ∀ agentId repo tail, firstOwned a.body site.owned = some (agentId, repo, tail) →
        agentId = a.addressee ∨ (∃ e, readMode tail = .error e) ∨
          Utf8.encode (agentId ++ lit ":" ++ a.changeId) = none ∨ !binds a.humanId := by
  constructor
  · intro h a hread agentId repo tail hfirst
    by_contra hnot
    rw [not_or, not_or, not_or] at hnot
    obtain ⟨hne, hmode, hencode, hbinds⟩ := hnot
    obtain ⟨mode, hok⟩ : ∃ mode, readMode tail = .ok mode := by
      rcases hread : readMode tail with e | mode
      · exact absurd ⟨e, hread⟩ hmode
      · exact ⟨mode, rfl⟩
    obtain ⟨bytes, hbytes⟩ := Option.ne_none_iff_exists'.mp hencode
    have htask : taskOf site.owned a = .ok ⟨agentId, mode, repo⟩ := by
      rw [taskOf, extractMode_eq, hfirst]
      simp only [Option.elim_some, hok]
      rfl
    -- a warm session of the other agent is enough to see it
    have hcall : (handleBusEvent site ⟨true, fun _ => .error .other, fun _ => true, [], ⟨0, 0⟩,
        ⟨0, 0⟩⟩ ⟨[⟨agentId, a.humanId, [], [], [], []⟩], Linger.State.init, []⟩ message).2 =
          .ok (some (outcome a ⟨agentId, mode, repo⟩ ((site.sha256 bytes).take 16) .warmSession
            none)) := by
      rw [handleBusEvent, if_neg (by simp)]
      simp only [hread, htask, decideTask, dedupKey, hbytes, Option.map_some]
      rw [if_neg hbinds, if_pos (by simp [Sql.select, Registry.Row.key])]
    exact hne ((h a hread _ _ rfl).2 _ hcall)
  · intro h a hread answers w hnil
    have hnames : ∀ agentId, w.Names agentId := by
      intro agentId e he
      rw [hnil] at he
      exact absurd he List.not_mem_nil
    rw [handleBusEvent]
    split_ifs
    · exact ⟨hnames _, fun o ho => absurd ho (by simp)⟩
    · simp only [hread]
      rcases htask : taskOf site.owned a with e | task
      · exact ⟨hnames _, fun o ho => absurd ho (by simp)⟩
      · by_cases hsame : task.agentId = a.addressee
        · rw [← hsame]
          exact names_decideTask (hnames _)
        · -- the call ends before anything comes of it
          rcases taskOf_agentId htask with ⟨repo, tail, hfirst⟩ | ⟨-, heq⟩
          · rcases h a hread _ repo tail hfirst with heq | ⟨e, herror⟩ | hencode | hbinds
            · exact absurd heq hsame
            · rw [taskOf, extractMode_eq, hfirst] at htask
              simp only [Option.elim_some, herror] at htask
              exact absurd htask (by simp [Except.map])
            · have hraised : decideTask site answers w message a task = (w, .error ()) := by
                simp only [decideTask, dedupKey, hencode, Option.map_none]
              simp only [hraised]
              exact ⟨hnames _, fun o ho => absurd ho (by simp)⟩
            · have hraised : decideTask site answers w message a task = (w, .error ()) := by
                unfold decideTask
                split
                · rfl
                · rw [if_pos hbinds]
              simp only [hraised]
              exact ⟨hnames _, fun o ho => absurd ho (by simp)⟩
          · exact absurd heq hsame

/-- A bridge with two agents. The digest is the one of the task below. -/
def twoAgents : Site where
  py := envelopePython
  sha256 := fun _ => lit "333edf7c3ca371622cc3029bd182261a8aa727ffe3dca1adac71efc41bf1545e"
  owned := ⟨[⟨lit "otaman-a", lit "a"⟩, ⟨lit "otaman-b", lit "b"⟩],
    by unfold List.NodupKeys; decide⟩
  projectRoot := []
  linger := none

/-- A message for `a`, whose first line is about a repository of `b`'s. -/
def mixedMessage : TaskMessage where
  content := some (.text (lit "---\ntype: task-assignment\nto: a\nchange: c\n---\n" ++
    lit "- [ ] 1 @otaman-b [headless]\n- [ ] 2 @otaman-a [headless]"))
  path := lit "/ws/.agents/bus/active/task.md"
  name := lit "task.md"
  stem := lit "task"

/-- The runner starts every session, and every file can be written. -/
def willing : Answers :=
  ⟨true, fun _ => .ok (lit "s"), fun _ => true, [], ⟨0, 0⟩, ⟨0, 0⟩⟩

/-- It is `b` that is spawned. -/
theorem not_addressed : ¬Addressed twoAgents mixedMessage := by
  intro h
  obtain ⟨-, hout⟩ := h ⟨lit "a", lit "human", lit "c", _⟩ (by rfl) willing
    ⟨[], Linger.State.init, []⟩ rfl
  have hcall : (handleBusEvent twoAgents willing ⟨[], Linger.State.init, []⟩ mixedMessage).2 =
      .ok (some ⟨lit "b", lit "human", .headless, .spawned (lit "s"), some (lit "s"), lit "c",
        lit "333edf7c3ca37162"⟩) := by
    rfl
  exact absurd (hout _ hcall) (by decide)

end Spawn

end OtamanBridge
