/-
# The pending tasks of a registry

`node_task_manager` completes every task with the current id and points to the
first task still pending; the planner and `direct_executor_init` point to the
first task of all.  `Pointed` is what this keeps up, whatever ids the plan has:
the pointer is the id of the first pending task, and no completed task shares its
id with a pending one.

`registryKept_of_history` is what follows for every run of a turn.  A task goes from
pending to completed and never back, the pointer is at the first pending task at
every executor, extractor, critic and reflection, each visit of `task_manager`
completes at least one task, and the synthesizer is entered when none is left.
-/

import CognitiveEngine.Graph.Termination

namespace CognitiveEngine
namespace Graph

open Machine

/-- How many tasks are still pending. -/
def pendingCount (tasks : List Task) : ℕ := tasks.countP fun t => t.status = .pending

/-- What a superstep may do to a task: complete it when it is pending. -/
structure TaskStep (t t' : Task) : Prop where
  id_eq : t'.id = t.id
  desc_eq : t'.desc = t.desc
  status : t'.status = t.status ∨ t.status = .pending ∧ t'.status = .completed

/-- The executors, the extractor, the critic and the reflection. -/
def Node.attends : Node → Bool
  | .executor _ | .findingExtractor | .criticAgent | .reflectionAgent => true
  | _ => false

/-- What a run after `planner` or `direct_executor_init` does to the registry. -/
structure RegistryKept (h : List Config) : Prop where
  /-- Statuses change from pending to completed only. -/
  statuses : ∀ p ∈ steps h, p.1.opening = false →
    List.Forall₂ TaskStep p.1.state.tasks p.2.state.tasks
  /-- The pointer is at the first pending task. -/
  pointer : ∀ c ∈ h, ∀ n, c.next = some n → n.attends →
    c.state.currentTaskId = (nextTask c.state.tasks).map Task.id ∧
      (c.state.currentTaskId = none ↔ c.state.tasks = [])
  /-- `task_manager` completes at least one task. -/
  decreases : ∀ p ∈ steps h, p.1.next = some .taskManager → p.1.state.tasks ≠ [] →
    pendingCount p.2.state.tasks < pendingCount p.1.state.tasks
  /-- Nothing is pending at the synthesizer. -/
  done : ∀ c ∈ h, c.next = some .finalSynthesizer → ∀ t ∈ c.state.tasks, t.status ≠ .pending

/-! ### The pointer -/

theorem TaskStatus.ne_pending_iff {status : TaskStatus} :
    status ≠ .pending ↔ status = .completed := by
  cases status <;> simp

theorem nextTask_eq_none_iff {tasks : List Task} :
    nextTask tasks = none ↔ ∀ t ∈ tasks, t.status = .completed := by
  simp [nextTask, TaskStatus.ne_pending_iff]

/-- The next task is pending, and comes after completed ones. -/
theorem nextTask_eq_some_iff {tasks : List Task} {t : Task} :
    nextTask tasks = some t ↔ t.status = .pending ∧
      ∃ before after, tasks = before ++ t :: after ∧ ∀ t' ∈ before, t'.status = .completed := by
  rw [nextTask, List.find?_eq_some_iff_append, decide_eq_true_eq]
  simp only [Bool.not_eq_eq_eq_not, Bool.not_true, decide_eq_false_iff_not,
    TaskStatus.ne_pending_iff]

/-- In a plan whose tasks are all pending the first one is next. -/
theorem nextTask_of_pending {tasks : List Task} (h : ∀ t ∈ tasks, t.status = .pending) :
    nextTask tasks = tasks.head? := by
  cases tasks with
  | nil => rfl
  | cons t tasks =>
      have ht : t.status = .pending := h t List.mem_cons_self
      rw [nextTask, List.find?_cons_of_pos (by simpa using ht), List.head?_cons]

/-- **The pointer is at the first pending task**, and no completed task has the id of
a pending one. -/
structure Pointed (s : AgentState) : Prop where
  current : s.currentTaskId = (nextTask s.tasks).map Task.id
  pending : s.tasks ≠ [] → nextTask s.tasks ≠ none
  apart : ∀ t ∈ s.tasks, ∀ t' ∈ s.tasks, t.status = .completed → t'.status = .pending →
    t.id ≠ t'.id

/-- The planner and `direct_executor_init` point to the first task. -/
theorem pointed_startTasks (s : AgentState) {tasks : List Task}
    (h : ∀ t ∈ tasks, t.status = .pending) : Pointed (s.startTasks tasks) where
  current := by rw [AgentState.startTasks, nextTask_of_pending h]
  pending hne := by
    show nextTask tasks ≠ none
    rw [nextTask_of_pending h]
    exact fun hnone => hne (List.head?_eq_none_iff.1 hnone)
  apart t ht t' _ hc _ := by
    rw [h t ht] at hc
    cases hc

theorem Pointed.congr {s s' : AgentState} (h : Pointed s) (ht : s'.tasks = s.tasks)
    (hc : s'.currentTaskId = s.currentTaskId) : Pointed s' := by
  obtain ⟨hcur, hpend, hapart⟩ := h
  exact ⟨by rw [hc, hcur, ht], by rwa [ht], by rwa [ht]⟩

/-- With a task on the list the pointer is at a pending one. -/
theorem Pointed.exists_next {s : AgentState} (h : Pointed s) (hne : s.tasks ≠ []) :
    ∃ t, nextTask s.tasks = some t ∧ s.currentTaskId = some t.id := by
  obtain ⟨t, ht⟩ := Option.ne_none_iff_exists'.1 (h.pending hne)
  exact ⟨t, ht, by rw [h.current, ht]; rfl⟩

theorem Pointed.current_eq_none_iff {s : AgentState} (h : Pointed s) :
    s.currentTaskId = none ↔ s.tasks = [] := by
  constructor
  · intro hc
    by_contra hne
    obtain ⟨t, -, ht⟩ := h.exists_next hne
    rw [hc] at ht
    cases ht
  · intro hnil
    rw [h.current, hnil]
    rfl

/-! ### Completing the current task -/

/-- A task of the updated list was on the list before, completed now when it has the
current id. -/
theorem mem_completeCurrent {s : AgentState} {result : String} {t' : Task}
    (h : t' ∈ completeCurrent s result) :
    ∃ t ∈ s.tasks, t'.id = t.id ∧
      (some t.id = s.currentTaskId ∧ t'.status = .completed ∨
        some t.id ≠ s.currentTaskId ∧ t' = t) := by
  obtain ⟨t, ht, rfl⟩ := List.mem_map.1 h
  by_cases hid : some t.id = s.currentTaskId
  · rw [if_pos hid]
    exact ⟨t, ht, rfl, .inl ⟨hid, rfl⟩⟩
  · rw [if_neg hid]
    exact ⟨t, ht, rfl, .inr ⟨hid, rfl⟩⟩

/-- **What is completed and what is pending stay apart.**  A task still pending has
not got the id that was completed. -/
theorem Pointed.apart_completeCurrent {s : AgentState} (h : Pointed s) (result : String) :
    ∀ t ∈ completeCurrent s result, ∀ t' ∈ completeCurrent s result,
      t.status = .completed → t'.status = .pending → t.id ≠ t'.id := by
  intro t ht t' ht' hc hp
  obtain ⟨a, ha, hid, hcase⟩ := mem_completeCurrent ht
  obtain ⟨a', ha', hid', hcase'⟩ := mem_completeCurrent ht'
  rw [hid, hid']
  rcases hcase' with ⟨-, hdone⟩ | ⟨hother, rfl⟩
  · rw [hdone] at hp
    cases hp
  · rcases hcase with ⟨hcur, -⟩ | ⟨-, rfl⟩
    · intro heq
      exact hother (heq ▸ hcur)
    · exact h.apart _ ha _ ha' hc hp

theorem Pointed.advanced {s : AgentState} (h : Pointed s) {result : String} {next : Task}
    (hn : nextTask (completeCurrent s result) = some next) : Pointed (s.advanced result next) where
  current := by
    show some next.id = (nextTask (completeCurrent s result)).map Task.id
    rw [hn]
    rfl
  pending _ := by
    show nextTask (completeCurrent s result) ≠ none
    simp [hn]
  apart := h.apart_completeCurrent result

/-- Completing tasks completes pending ones and leaves the others. -/
theorem taskStep_completeCurrent (s : AgentState) (result : String) :
    List.Forall₂ TaskStep s.tasks (completeCurrent s result) := by
  rw [completeCurrent, List.forall₂_map_right_iff, List.forall₂_same]
  intro t _
  split_ifs
  · refine ⟨rfl, rfl, ?_⟩
    cases ht : t.status with
    | pending => exact .inr ⟨rfl, rfl⟩
    | completed => exact .inl rfl
  · exact ⟨rfl, rfl, .inl rfl⟩

/-- **Completing the current task leaves fewer tasks pending.** -/
theorem Pointed.pendingCount_lt {s : AgentState} (h : Pointed s) (hne : s.tasks ≠ [])
    (result : String) : pendingCount (completeCurrent s result) < pendingCount s.tasks := by
  obtain ⟨t, hnext, hcur⟩ := h.exists_next hne
  obtain ⟨hp, before, after, htasks, -⟩ := nextTask_eq_some_iff.1 hnext
  refine countP_map_lt (a := t) ?_ ?_ (decide_eq_true hp) ?_
  · intro a _ ha
    rw [decide_eq_true_eq] at ha ⊢
    split_ifs at ha
    · cases ha
    · exact ha
  · rw [htasks]
    exact List.mem_append_right _ List.mem_cons_self
  · rw [if_pos hcur.symm]
    exact Bool.false_ne_true

/-! ### Along a run -/

/-- What a configuration knows of the registry. -/
structure Config.Registered (c : Config) : Prop where
  pointed : ∀ n, c.next = some n → n.working → Pointed c.state
  done : c.next = some .finalSynthesizer ∨ c.next = none →
    ∀ t ∈ c.state.tasks, t.status = .completed

/-- A configuration at work on a task. -/
theorem registered_of_pointed {n : Node} {s : AgentState} (hn : n.working) (h : Pointed s) :
    Config.Registered ⟨some n, s⟩ where
  pointed _ _ _ := h
  done hc := by
    rcases hc with hc | hc
    · obtain rfl := Option.some.inj hc
      cases hn
    · cases hc

/-- A configuration after the last task. -/
theorem registered_of_done {c : Config} (hc : c.next = some .finalSynthesizer ∨ c.next = none)
    (h : ∀ t ∈ c.state.tasks, t.status = .completed) : c.Registered where
  pointed n hn hw := by
    rcases hc with hc | hc
    · rw [hc] at hn
      obtain rfl := Option.some.inj hn
      cases hw
    · rw [hc] at hn
      cases hn
  done _ := h

/-- A node at work on a task is not one that comes before the tasks. -/
theorem Config.opening_of_working {c : Config} {n : Node} (hn : c.next = some n)
    (hw : n.working) : c.opening = false := by
  rw [opening, hn]
  cases n with
  | supervisorRouter | planner | directExecutorInit | finalSynthesizer => cases hw
  | executor | actionTracker | tools | findingExtractor | criticAgent | reflectionAgent
  | taskManager => simp

/-- Before the tasks are set up nothing is known. -/
theorem registered_of_opening {c : Config} (hc : c.opening) : c.Registered where
  pointed n hn hw := by
    rw [Config.opening_of_working hn hw] at hc
    cases hc
  done h := by
    rcases h with h | h <;> rw [Config.opening, h] at hc <;> cases hc

/-- **Each superstep keeps the registry.** -/
theorem Transition.registered {rt : Runtime} {c c' : Config} (h : Transition rt c c')
    (hc : c.Registered) : c'.Registered := by
  cases h with
  | supervise =>
      refine registered_of_opening ?_
      split_ifs <;> rfl
  | plan s plan => exact registered_of_pointed rfl (pointed_startTasks s (pending_planTasks s plan))
  | initDirect s => exact registered_of_pointed rfl (pointed_startTasks s (pending_directTasks s))
  | dispatch | conclude | track | callTools | extract | criticize | rework | exhaust | accept =>
      exact registered_of_pointed rfl ((hc.pointed _ rfl rfl).congr rfl rfl)
  | dismiss s ht =>
      refine registered_of_done (.inl rfl) fun t hmem => ?_
      rw [AgentState.dismissed, ht] at hmem
      exact absurd hmem List.not_mem_nil
  | advance s ht result hr next hn =>
      exact registered_of_pointed rfl ((hc.pointed _ rfl rfl).advanced hn)
  | finish s ht result hr hn => exact registered_of_done (.inl rfl) (nextTask_eq_none_iff.1 hn)
  | synthesize s content calls => exact registered_of_done (.inr rfl) (hc.done (.inl rfl))

theorem registered_of_history {rt : Runtime} {thread : AgentState} {request : ChatRequest}
    {h : List Config} (hh : TurnHistory rt thread request h) : ∀ c ∈ h, c.Registered := by
  refine hh.forall_mem ?_ fun _ _ hc hs => hs.transition.registered hc
  rintro _ rfl
  exact registered_of_opening rfl

/-- After the tasks are set up a superstep completes tasks, or leaves them alone. -/
theorem Transition.taskStep {rt : Runtime} {c c' : Config} (h : Transition rt c c')
    (ho : c.opening = false) : List.Forall₂ TaskStep c.state.tasks c'.state.tasks := by
  have hsame : ∀ tasks : List Task, List.Forall₂ TaskStep tasks tasks := by
    intro tasks
    rw [List.forall₂_same]
    exact fun t _ => ⟨rfl, rfl, .inl rfl⟩
  cases h with
  | supervise | plan | initDirect => cases ho
  | dispatch | conclude | track | callTools | extract | criticize | rework | exhaust | accept
  | dismiss | synthesize => exact hsame _
  | advance s ht result hr next hn => exact taskStep_completeCurrent s result
  | finish s ht result hr hn => exact taskStep_completeCurrent s result

/-- **A visit of `task_manager` completes at least one task.** -/
theorem Transition.pendingCount_lt {rt : Runtime} {c c' : Config} (h : Transition rt c c')
    (hc : c.Registered) (hn : c.next = some .taskManager) (hne : c.state.tasks ≠ []) :
    pendingCount c'.state.tasks < pendingCount c.state.tasks := by
  have hp : Pointed c.state := hc.pointed _ hn rfl
  cases h with
  | supervise | plan | initDirect | dispatch | conclude | track | callTools | extract | criticize
  | rework | exhaust | accept | synthesize => cases hn
  | dismiss s ht => exact absurd ht hne
  | advance s ht result hr next _ => exact hp.pendingCount_lt hne result
  | finish s ht result hr _ => exact hp.pendingCount_lt hne result

theorem Node.working_of_attends {n : Node} (h : n.attends) : n.working := by
  cases n <;> first | rfl | cases h

/-- **The registry is kept in every run of a turn**, whatever the plan and its ids. -/
theorem registryKept_of_history {rt : Runtime} {thread : AgentState} {request : ChatRequest}
    {h : List Config} (hh : TurnHistory rt thread request h) : RegistryKept h where
  statuses p hp ho := (hh.rel_of_mem_steps hp).transition.taskStep ho
  pointer c hc n hn ha := by
    have hpointed := (registered_of_history hh c hc).pointed n hn (Node.working_of_attends ha)
    exact ⟨hpointed.current, hpointed.current_eq_none_iff⟩
  decreases p hp hn hne :=
    (hh.rel_of_mem_steps hp).transition.pendingCount_lt
      (registered_of_history hh _ (mem_of_mem_steps hp).1) hn hne
  done c hc hn t ht := by
    rw [TaskStatus.ne_pending_iff]
    exact (registered_of_history hh c hc).done (.inl hn) t ht

/-- The answers of a turn whose planner returns these tasks. -/
def plannedAnswers (items : List TaskItem) : List Env :=
  [.routing ⟨"general_memory", "high", [], ""⟩, .planning (some ⟨items⟩)]

/-- A run of a first turn with this plan. -/
def plannedTurn (items : List TaskItem) (envs : List Env) : List Config :=
  replayTurn .plain ⟨"alice", "s1", "What is new?"⟩ (plannedAnswers items ++ envs)

theorem turnHistory_plannedTurn (items : List TaskItem) (envs : List Env) :
    TurnHistory .plain .empty ⟨"alice", "s1", "What is new?"⟩ (plannedTurn items envs) :=
  history_replay id _ (.start rfl)

/-- Two of three tasks share an id: two visits of `task_manager` complete them. -/
theorem registryKept_repeated_id :
    RegistryKept (plannedTurn [⟨7, "Find the news.", .generalMemory⟩,
      ⟨7, "Sum them up.", .generalMemory⟩, ⟨0, "Say thanks.", .generalMemory⟩]
        (doneOnce ++ doneOnce)) :=
  registryKept_of_history (turnHistory_plannedTurn _ _)

end Graph
end CognitiveEngine
