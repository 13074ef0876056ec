/-
# Every run of a turn ends

The graph has three nested loops: tool calls inside an executor's stint, reworks
of a task, and tasks of a plan.  Their counters are reset at different places, so
no one of them bounds a run.  The rank of a configuration is lexicographic:

* the phase of the turn (routing, planning, working, over),
* the tasks still pending, which only an advancing `task_manager` lowers,
* the reworks left, `maxReworkCycles` less the counter,
* the iterations left, `maxIterations` less the counter; a rework does not reset
  it, so the reworks left have to come first,
* the position of the node between two of these.

That `task_manager` lowers the second needs an invariant, `Running`: while there
are tasks, the current id is the id of one that is still pending, whatever ids
the plan has.  `Running` also keeps what a superstep needs to go through at all:
the message list is never empty, and the tools node finds an AI message.
-/

import CognitiveEngine.Graph.Runs
import CognitiveEngine.Machine.Termination

namespace CognitiveEngine
namespace Graph

open Machine

/-! ### The invariant -/

/-- While there are tasks, the current one is pending. -/
def AgentState.Scheduled (s : AgentState) : Prop :=
  s.tasks = [] ∨ ∃ t ∈ s.tasks, s.currentTaskId = some t.id ∧ t.status = .pending

/-- What holds in every configuration of a turn. -/
structure Running (c : Config) : Prop where
  /-- There is a message to read. -/
  messages_ne : c.state.messages.messages ≠ []
  /-- The tools node has an AI message to answer. -/
  asked : c.next = some .actionTracker ∨ c.next = some .tools →
    ∃ content calls, c.state.messages.last? = some (.ai content calls)
  /-- A node at work has a pending task, unless there are no tasks. -/
  scheduled : ∀ n, c.next = some n → n.working → c.state.Scheduled

/-- The planned tasks, or the one that stands in for them, are pending. -/
theorem scheduled_startTasks {s : AgentState} {tasks : List Task}
    (hp : ∀ t ∈ tasks, t.status = .pending) : (s.startTasks tasks).Scheduled := by
  cases tasks with
  | nil => exact .inl rfl
  | cons t rest => exact .inr ⟨t, by simp [AgentState.startTasks], rfl, hp t (by simp)⟩

theorem pending_planTasks (s : AgentState) (plan : Option PlannerOutput) :
    ∀ t ∈ planTasks s plan, t.status = .pending := by
  intro t ht
  cases plan with
  | none => rw [List.mem_singleton.1 ht]; rfl
  | some plan =>
      obtain ⟨item, _, rfl⟩ := List.mem_map.1 ht
      rfl

theorem pending_directTasks (s : AgentState) : ∀ t ∈ directTasks s, t.status = .pending := by
  intro t ht
  rw [List.mem_singleton.1 ht]
  rfl

theorem scheduled_advanced {s : AgentState} {result : String} {next : Task}
    (hn : nextTask (completeCurrent s result) = some next) :
    (s.advanced result next).Scheduled := by
  have hp := List.find?_some hn
  rw [decide_eq_true_eq] at hp
  exact .inr ⟨next, List.mem_of_find?_eq_some hn, rfl, hp⟩

theorem running_startTurn (thread : AgentState) (request : ChatRequest) :
    Running (startTurn thread request) where
  messages_ne := by simp [startTurn, AgentState.merge, initialState, MessageLog.addMessages]
  asked := by rintro (h | h) <;> cases h
  scheduled := by
    intro n hn hw
    obtain rfl := Option.some.inj hn
    cases hw

/-- **The invariant is kept.** -/
theorem Running.transition {rt : Runtime} {c c' : Config} (hc : Running c)
    (h : Transition rt c c') : Running c' := by
  obtain ⟨hne, hasked, hsched⟩ := hc
  cases h with
  | supervise s domain complexity agents last hlast =>
      refine ⟨hne, ?_, ?_⟩
      · rintro (h | h) <;> split_ifs at h <;> cases h
      · intro n hn hw
        split_ifs at hn <;> obtain rfl := Option.some.inj hn <;> cases hw
  | plan s plan =>
      exact ⟨hne, (by rintro (h | h) <;> cases h),
        fun _ _ _ => scheduled_startTasks (pending_planTasks s plan)⟩
  | initDirect s =>
      exact ⟨hne, (by rintro (h | h) <;> cases h),
        fun _ _ _ => scheduled_startTasks (pending_directTasks s)⟩
  | dispatch l s content calls hd =>
      exact ⟨by simp [AgentState.answered], fun _ => ⟨content, calls, by simp [AgentState.answered]⟩,
        fun _ _ _ => hsched _ rfl rfl⟩
  | conclude l s content calls hd =>
      exact ⟨by simp [AgentState.answered], (by rintro (h | h) <;> cases h),
        fun _ _ _ => hsched _ rfl rfl⟩
  | track s last hlast =>
      exact ⟨hne, fun _ => hasked (.inl rfl), fun _ _ _ => hsched _ rfl rfl⟩
  | callTools s content calls hlast result =>
      refine ⟨?_, (by rintro (h | h) <;> cases h), fun _ _ _ => hsched _ rfl rfl⟩
      rw [AgentState.messages_toolsAnswered]
      exact List.append_ne_nil_of_left_ne_nil hne _
  | extract | criticize | rework | exhaust | accept =>
      exact ⟨hne, (by rintro (h | h) <;> cases h), fun _ _ _ => hsched _ rfl rfl⟩
  | dismiss | finish =>
      refine ⟨hne, (by rintro (h | h) <;> cases h), fun n hn hw => ?_⟩
      obtain rfl := Option.some.inj hn
      cases hw
  | advance s ht result hr next hn =>
      refine ⟨?_, (by rintro (h | h) <;> cases h), fun _ _ _ => scheduled_advanced hn⟩
      rw [AgentState.messages_advanced]
      simpa using hne
  | synthesize s content calls =>
      exact ⟨by simp [AgentState.synthesized], (by rintro (h | h) <;> cases h),
        fun n hn => by cases hn⟩

/-! ### The rank -/

/-- The tasks still pending. -/
def pendingTasks (tasks : List Task) : ℕ := tasks.countP fun t => t.status = .pending

/-- The phase of the turn a node belongs to. -/
def phase : Option Node → ℕ
  | some .supervisorRouter => 3
  | some .planner | some .directExecutorInit => 2
  | some _ => 1
  | none => 0

/-- The position of a node: what is left of the way to `task_manager`, or to the
executor from the tracker. -/
def position : Option Node → ℕ
  | some .actionTracker => 7
  | some .tools => 6
  | some (.executor _) => 5
  | some .findingExtractor => 4
  | some .criticAgent => 3
  | some .reflectionAgent => 2
  | some .taskManager => 1
  | _ => 0

/-- The rank of a configuration. -/
def turnRank (c : Config) : ℕ ×ₗ ℕ ×ₗ ℕ ×ₗ ℕ ×ₗ ℕ :=
  toLex (phase c.next, toLex (pendingTasks c.state.tasks,
    toLex (maxReworkCycles - c.state.reworkCount,
      toLex (maxIterations - c.state.iterationCount, position c.next))))

/-- Completing a task makes no task pending. -/
theorem status_complete (t : Task) (cur : Option ℤ) (result : String) (findings : List Finding) :
    (if some t.id = cur then t.complete result findings else t).status = .pending ↔
      t.status = .pending ∧ some t.id ≠ cur := by
  split_ifs with h <;> simp [Task.complete, h]

theorem pendingTasks_completeCurrent_le (s : AgentState) (result : String) :
    pendingTasks (completeCurrent s result) ≤ pendingTasks s.tasks := by
  refine countP_map_le fun t _ ht => ?_
  simp only [decide_eq_true_eq, status_complete] at ht ⊢
  exact ht.1

/-- **Completing the current task lowers the number of pending ones**, if it was
pending; other tasks may have its id and be completed with it. -/
theorem pendingTasks_completeCurrent_lt {s : AgentState} {t : Task} (ht : t ∈ s.tasks)
    (hid : s.currentTaskId = some t.id) (hp : t.status = .pending) (result : String) :
    pendingTasks (completeCurrent s result) < pendingTasks s.tasks := by
  refine countP_map_lt (fun t _ ht => ?_) ht (decide_eq_true hp) ?_
  · simp only [decide_eq_true_eq, status_complete] at ht ⊢
    exact ht.1
  · simp only [decide_eq_true_eq, status_complete]
    exact fun h => h.2 hid.symm

/-- A superstep that comes closer to `task_manager` lowers the rank, when no task
becomes pending and no counter is set back. -/
theorem turnRank_lt_of_position {c c' : Config} (hphase : phase c'.next ≤ phase c.next)
    (htasks : pendingTasks c'.state.tasks ≤ pendingTasks c.state.tasks)
    (hrework : c.state.reworkCount ≤ c'.state.reworkCount)
    (hiter : c.state.iterationCount ≤ c'.state.iterationCount)
    (hpos : position c'.next < position c.next) : turnRank c' < turnRank c := by
  have hreworks : maxReworkCycles - c'.state.reworkCount ≤ maxReworkCycles - c.state.reworkCount := by
    omega
  have hiters : maxIterations - c'.state.iterationCount ≤ maxIterations - c.state.iterationCount := by
    omega
  exact lex_lt_of_snd_lt hphase (lex_lt_of_snd_lt htasks (lex_lt_of_snd_lt hreworks
    (lex_lt_of_snd_lt hiters hpos)))

/-- A later phase of the turn is lower. -/
theorem turnRank_lt_of_phase {c c' : Config} (hphase : phase c'.next < phase c.next) :
    turnRank c' < turnRank c :=
  lex_lt_of_fst_lt _ _ hphase

/-- **Every superstep lowers the rank.** -/
theorem turnRank_lt {rt : Runtime} {c c' : Config} (hc : Running c) (h : Transition rt c c') :
    turnRank c' < turnRank c := by
  cases h with
  | supervise s domain complexity agents last hlast =>
      refine turnRank_lt_of_phase ?_
      show phase (some (if complexity = "low" then _ else _)) < 3
      split_ifs <;> decide
  | plan | initDirect | synthesize => exact turnRank_lt_of_phase (by simp [phase])
  | dispatch l s content calls hd =>
      -- one more iteration, still below the cap
      have hi : s.iterationCount + 1 < maxIterations := hd.2.1
      refine lex_lt_of_snd_lt le_rfl (lex_lt_of_snd_lt le_rfl (lex_lt_of_snd_lt le_rfl
        (lex_lt_of_fst_lt _ _ ?_)))
      simp only [AgentState.answered]
      omega
  | conclude l s content calls hd =>
      exact turnRank_lt_of_position le_rfl le_rfl le_rfl (Nat.le_succ _) (by simp [position])
  | track | callTools | extract | criticize | accept | dismiss =>
      exact turnRank_lt_of_position le_rfl le_rfl le_rfl le_rfl (by simp [position])
  | rework s payload hp advice hr =>
      -- the iterations may be used up by now, the reworks are not
      refine lex_lt_of_snd_lt le_rfl (lex_lt_of_snd_lt le_rfl (lex_lt_of_fst_lt _ _ ?_))
      simp only [AgentState.reflected, if_true]
      omega
  | exhaust s payload hp advice hr =>
      exact turnRank_lt_of_position le_rfl le_rfl (Nat.le_succ _) le_rfl (by simp [position])
  | advance s ht result hr next hn =>
      refine lex_lt_of_snd_lt le_rfl (lex_lt_of_fst_lt _ _ ?_)
      obtain hnil | ⟨t, htm, hid, hp⟩ := hc.scheduled _ rfl rfl
      · exact absurd hnil ht
      · exact pendingTasks_completeCurrent_lt htm hid hp result
  | finish s ht result hr hn =>
      exact turnRank_lt_of_position le_rfl (pendingTasks_completeCurrent_le s result) le_rfl le_rfl
        (by simp [position])

/-- The ranking of the supersteps. -/
def turnRanking (rt : Runtime) : Ranking (Step rt) (ℕ ×ₗ ℕ ×ₗ ℕ ×ₗ ℕ ×ₗ ℕ) where
  inv := Running
  rank := turnRank
  inv_step hc h := hc.transition h.transition
  rank_lt hc h := turnRank_lt hc h.transition

/-! ### Progress -/

/-- **Every label a router returns is in its edge map**, in every state. -/
theorem exists_lookup_label {rt : Runtime} {n : Node} {router : AgentState → Except PyError String}
    {edgeMap : List (String × Node)} (he : edge rt n = .conditional router edgeMap)
    {s : AgentState} {label : String} (hl : router s = .ok label) :
    ∃ m, edgeMap.lookup label = some m := by
  cases n with
  | supervisorRouter =>
      obtain ⟨rfl, rfl⟩ := Edge.conditional.inj he
      obtain rfl := Except.ok.inj hl
      unfold routeFromSupervisor
      split_ifs
      · exact ⟨.directExecutorInit, rfl⟩
      · exact ⟨.planner, rfl⟩
  | planner | directExecutorInit =>
      obtain ⟨rfl, rfl⟩ := Edge.conditional.inj he
      obtain rfl := Except.ok.inj hl
      rw [routeFromPlanner_eq]
      exact ⟨_, lookup_laneMap _ []⟩
  | executor l =>
      obtain ⟨rfl, rfl⟩ := Edge.conditional.inj he
      obtain ⟨last, _, rfl⟩ := map_eq_ok_iff.1 hl
      rw [toolHooks_eq]
      split_ifs
      · exact ⟨.actionTracker, rfl⟩
      · exact ⟨.findingExtractor, rfl⟩
  | tools =>
      obtain ⟨rfl, rfl⟩ := Edge.conditional.inj he
      obtain rfl := Except.ok.inj hl
      exact ⟨_, lookup_laneOrGeneral _ []⟩
  | reflectionAgent =>
      obtain ⟨rfl, rfl⟩ := Edge.conditional.inj he
      obtain rfl := Except.ok.inj hl
      unfold routeFromReflection
      split_ifs
      · exact ⟨.taskManager, rfl⟩
      · exact ⟨_, lookup_laneOrGeneral _ _⟩
      · exact ⟨.taskManager, rfl⟩
  | taskManager =>
      obtain ⟨rfl, rfl⟩ := Edge.conditional.inj he
      obtain rfl := Except.ok.inj hl
      cases hid : s.currentTaskId with
      | none => exact ⟨.finalSynthesizer, by simp [routeFromTaskManager, hid]; rfl⟩
      | some id =>
          rw [routeFromTaskManager_eq hid]
          exact ⟨_, lookup_laneMap _ _⟩
  | actionTracker | findingExtractor | criticAgent | finalSynthesizer => cases he

/-- A router returns a label; the executors' one reads the last message. -/
theorem exists_label {rt : Runtime} {n : Node} {router : AgentState → Except PyError String}
    {edgeMap : List (String × Node)} (he : edge rt n = .conditional router edgeMap)
    {s : AgentState} (hs : (∃ l, n = .executor l) → ∃ m, lastMessage s = .ok m) :
    ∃ label, router s = .ok label := by
  cases n with
  | executor l =>
      obtain ⟨rfl, -⟩ := Edge.conditional.inj he
      obtain ⟨m, hm⟩ := hs ⟨l, rfl⟩
      exact ⟨toolHooks rt s m, by rw [evaluateToolHooks, hm]; rfl⟩
  | supervisorRouter | planner | directExecutorInit | tools | reflectionAgent | taskManager =>
      obtain ⟨rfl, -⟩ := Edge.conditional.inj he
      exact ⟨_, rfl⟩
  | actionTracker | findingExtractor | criticAgent | finalSynthesizer => cases he

/-- A state with messages has a last one. -/
theorem lastMessage_ok {s : AgentState} (h : s.messages.messages ≠ []) :
    ∃ m, lastMessage s = .ok m :=
  ⟨_, lastMessage_eq_ok_iff.2 (List.getLast?_eq_getLast_of_ne_nil h)⟩

theorem rawOrLast_ok {s : AgentState} (h : s.messages.messages ≠ []) :
    ∃ payload, rawOrLast s = .ok payload := by
  obtain ⟨m, hm⟩ := lastMessage_ok h
  unfold rawOrLast
  cases s.rawExecutorOutput with
  | none => exact ⟨m.content, by rw [hm]; rfl⟩
  | some raw =>
      by_cases hraw : raw ≠ ""
      · exact ⟨raw, if_pos hraw⟩
      · exact ⟨m.content, by simp only [if_neg hraw, hm]; rfl⟩

/-- No node of a turn raises, and an executor leaves a message to route on. -/
theorem runNode_ok (rt : Runtime) (env : Env) {n : Node} {s : AgentState}
    (hc : Running ⟨some n, s⟩) :
    ∃ u, runNode rt env n s = .ok u ∧
      ((∃ l, n = .executor l) → (s.merge u).messages.messages ≠ []) := by
  obtain ⟨m, hm⟩ := lastMessage_ok hc.messages_ne
  obtain ⟨payload, hp⟩ := rawOrLast_ok hc.messages_ne
  cases n with
  | executor l =>
      cases l <;> refine ⟨_, rfl, fun _ => ?_⟩ <;>
        exact (s.messages.messages_append _).symm ▸ by simp
  | supervisorRouter =>
      exact ⟨_, by rw [runNode, nodeSupervisorRouter, hm]; rfl, by rintro ⟨l, hl⟩; cases hl⟩
  | actionTracker =>
      exact ⟨_, by rw [runNode, actionTrackerNode, hm]; rfl, by rintro ⟨l, hl⟩; cases hl⟩
  | tools =>
      obtain ⟨content, calls, hlast⟩ := hc.asked (.inr rfl)
      exact ⟨_, by rw [runNode, toolNode, lastMessage_eq_ok_iff.2 hlast]; rfl,
        by rintro ⟨l, hl⟩; cases hl⟩
  | findingExtractor =>
      exact ⟨_, by rw [runNode, nodeFindingExtractor, hm]; rfl, by rintro ⟨l, hl⟩; cases hl⟩
  | criticAgent =>
      exact ⟨_, by rw [runNode, nodeCriticAgent, hp]; rfl, by rintro ⟨l, hl⟩; cases hl⟩
  | reflectionAgent =>
      exact ⟨_, by rw [runNode, nodeReflectionAgent, hp]; rfl, by rintro ⟨l, hl⟩; cases hl⟩
  | taskManager =>
      by_cases ht : s.tasks = []
      · exact ⟨_, by simp only [runNode, nodeTaskManager, if_pos ht]; rfl,
          by rintro ⟨l, hl⟩; cases hl⟩
      · exact ⟨_, by simp only [runNode, nodeTaskManager, if_neg ht, hp]; rfl,
          by rintro ⟨l, hl⟩; cases hl⟩
  | planner | directExecutorInit | finalSynthesizer =>
      exact ⟨_, rfl, by rintro ⟨l, hl⟩; cases hl⟩

/-- **No superstep of a turn raises**, whatever the outside world answers. -/
theorem Running.progress {rt : Runtime} {c : Config} (hc : Running c) (hne : c.next ≠ none)
    (env : Env) : ∃ c', step rt env c = .ok c' ∧ Step rt c c' := by
  obtain ⟨_ | n, s⟩ := c
  · exact absurd rfl hne
  · obtain ⟨u, hu, hex⟩ := runNode_ok rt env hc
    obtain ⟨nx, hnx⟩ : ∃ nx, (edge rt n).follow (s.merge u) = .ok nx := by
      cases he : edge rt n with
      | direct target => exact ⟨target, rfl⟩
      | conditional router edgeMap =>
          obtain ⟨label, hlabel⟩ := exists_label he fun hl => lastMessage_ok (hex hl)
          obtain ⟨m, hm⟩ := exists_lookup_label he hlabel
          exact ⟨some m, follow_conditional label hlabel hm⟩
    have hstep : step rt env ⟨some n, s⟩ = .ok ⟨nx, s.merge u⟩ :=
      step_eq_ok_iff.2 ⟨u, hu, nx, hnx, rfl⟩
    exact ⟨_, hstep, hne, env, hstep⟩

/-! ### Executor entries -/

/-- One superstep and the iteration counter: the start of a task resets it, an
executor adds one, nothing else touches it. -/
theorem Transition.iterations {rt : Runtime} {c c' : Config} (h : Transition rt c c') :
    (TaskStart c c' ∧ c'.state.iterationCount = 0) ∨
      (¬ TaskStart c c' ∧
        c'.state.iterationCount = c.state.iterationCount + if c.atExecutor then 1 else 0) := by
  cases h with
  | plan | initDirect | advance => exact .inl ⟨⟨rfl, rfl⟩, rfl⟩
  | supervise | dispatch | conclude | track | callTools | extract | criticize | rework | exhaust
  | accept => exact .inr ⟨fun h => Bool.false_ne_true h.1, rfl⟩
  | dismiss | finish | synthesize => exact .inr ⟨fun h => Bool.false_ne_true h.2, rfl⟩

/-- The iteration counter is the number of executor visits since the task start;
the executor about to run has been entered but is not counted yet. -/
theorem executorEntries_eq {rt : Runtime} {thread : AgentState} {request : ChatRequest}
    {c : Config} {h : List Config} (hh : TurnHistory rt thread request (c :: h)) :
    executorEntries (c :: h) = c.state.iterationCount + if c.atExecutor then 1 else 0 := by
  refine hh.rec_head (P := fun c h =>
    executorEntries (c :: h) = c.state.iterationCount + if c.atExecutor then 1 else 0) ?_ ?_
  · rintro _ rfl
    rfl
  · intro c c' h _ ih hR
    rcases hR.transition.iterations with ⟨hm, hi⟩ | ⟨hm, hi⟩
    · rw [executorEntries, sumSince_cons_of_mark hm, hi, Nat.zero_add]
    · rw [executorEntries, sumSince_cons_of_not_mark hm, ← executorEntries, ih, hi]
      omega

/-- How far the iteration and rework counters can be when a node is about to run.
A rework lets the executor run once more after the iterations are used up. -/
def Paced (c : Config) : Prop :=
  match c.next with
  | some .supervisorRouter | some .planner | some .directExecutorInit =>
      c.state.iterationCount = 0
  | some (.executor _) =>
      c.state.iterationCount < maxIterations + c.state.reworkCount ∧
        c.state.reworkCount < maxReworkCycles
  | some .actionTracker | some .tools =>
      c.state.iterationCount < maxIterations ∧ c.state.reworkCount < maxReworkCycles
  | some .findingExtractor | some .criticAgent | some .reflectionAgent =>
      c.state.iterationCount ≤ maxIterations + c.state.reworkCount ∧
        c.state.reworkCount < maxReworkCycles
  | some .taskManager | some .finalSynthesizer | none =>
      c.state.iterationCount < maxIterations + maxReworkCycles

theorem Paced.transition {rt : Runtime} {c c' : Config} (hc : Paced c) (h : Transition rt c c') :
    Paced c' := by
  cases h with
  | supervise s domain complexity agents last hlast =>
      simp only [Paced]
      split_ifs <;> exact hc
  | plan | initDirect | advance =>
      exact ⟨show (0 : ℕ) < 8 + 0 by decide, show (0 : ℕ) < 2 by decide⟩
  | dispatch l s content calls hd => exact ⟨hd.2.1, hc.2⟩
  | conclude l s content calls hd => exact ⟨Nat.succ_le_of_lt hc.1, hc.2⟩
  | track | extract | criticize => exact hc
  | callTools => exact ⟨Nat.lt_add_right _ hc.1, hc.2⟩
  | rework s payload hp advice hr =>
      refine ⟨?_, hr⟩
      have hi : s.iterationCount ≤ maxIterations + s.reworkCount := hc.1
      show s.iterationCount < maxIterations + (s.reworkCount + 1)
      omega
  | exhaust s payload hp advice hr =>
      have hi : s.iterationCount ≤ maxIterations + s.reworkCount := hc.1
      have hw : s.reworkCount < maxReworkCycles := hc.2
      show s.iterationCount < maxIterations + maxReworkCycles
      omega
  | accept s payload hp advice =>
      have hi : s.iterationCount ≤ maxIterations + s.reworkCount := hc.1
      have hw : s.reworkCount < maxReworkCycles := hc.2
      show s.iterationCount < maxIterations + maxReworkCycles
      omega
  | dismiss | finish | synthesize => exact hc

/-- **A task enters its executors at most `maxIterations + maxReworkCycles` times.** -/
theorem executorEntries_le {rt : Runtime} {thread : AgentState} {request : ChatRequest}
    {h : List Config} (hh : TurnHistory rt thread request h) :
    executorEntries h ≤ maxIterations + maxReworkCycles := by
  obtain ⟨c, rest, rfl⟩ := List.exists_cons_of_ne_nil hh.ne_nil
  have hp : Paced c := by
    refine hh.forall_mem ?_ (fun _ _ hc h => hc.transition h.transition) c List.mem_cons_self
    rintro _ rfl
    rfl
  rw [executorEntries_eq hh]
  obtain ⟨next, s⟩ := c
  rcases next with _ | n
  · exact hp.le
  · cases n <;> simp only [Paced] at hp <;>
      simp only [Config.atExecutor, Config.lane?, Node.lane?, Option.bind_some] <;>
      simp only [Option.isSome_some, Option.isSome_none, if_true, Bool.false_eq_true, if_false] <;>
      omega

/-! ### Termination -/

/-- **Every run of a turn reaches `END`.**  From whatever state the thread was in
and for every request: there is no infinite sequence of supersteps; whatever the
models and tools answer, superstep after superstep, the run gets to `END` and
nothing is raised on the way; no router returns a label its edge map does not
have; and between the start of a task and its next visit of `task_manager` the
executors are entered at most `maxIterations + maxReworkCycles` times. -/
theorem every_turn_ends (rt : Runtime) (thread : AgentState) (request : ChatRequest) :
    (¬ ∃ f : ℕ → Config, f 0 = startTurn thread request ∧ ∀ n, Step rt (f n) (f (n + 1))) ∧
    (∀ env : ℕ → Env, ∃ n c,
      runInputs (step rt) env (startTurn thread request) n = .ok c ∧ c.next = none) ∧
    (∀ n router edgeMap, edge rt n = .conditional router edgeMap →
      ∀ s label, router s = .ok label → ∃ m, edgeMap.lookup label = some m) ∧
    ∀ h, TurnHistory rt thread request h →
      executorEntries h ≤ maxIterations + maxReworkCycles := by
  have h₀ : Running (startTurn thread request) := running_startTurn thread request
  refine ⟨?_, ?_, ?_, ?_⟩
  · rintro ⟨f, hf, hR⟩
    refine (turnRanking rt).no_infinite_run ?_ hR
    rw [hf]
    exact h₀
  · intro env
    refine (turnRanking rt).reaches_final ?_ env h₀
    intro c hc hne i
    exact Running.progress hc hne i
  · intro n router edgeMap he s label hl
    exact exists_lookup_label he hl
  · intro h hh
    exact executorEntries_le hh

end Graph
end CognitiveEngine
