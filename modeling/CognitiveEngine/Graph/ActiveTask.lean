/-
# The task an executor is told to work on

`_build_task_context` names the active task to the executor, and `task_manager`
completes it later.  They find it by separate tests: the one takes the first task
with the current id, and only when that id is truthy; the other takes every task
with it.

`toldTask_iff` says when they agree.  The pointer is at the first pending task and
no completed one shares its id (`Pointed`), so the first task with the current id
is that task, and the next visit of `task_manager` completes it.  The executor is
told so exactly when the id is not `0`, which Python takes for no id at all.
-/

import CognitiveEngine.Graph.PendingTasks

namespace CognitiveEngine
namespace Graph

open Machine

/-- The lines for the findings of the tasks that are completed, in plan order. -/
def priorFindings (tasks : List Task) : List String :=
  (tasks.filter fun t => t.status = .completed).flatMap fun t => t.findings.map (findingLine t)

/-- A task context that names a task and lists findings. -/
def contextNaming (desc : String) (lines : List String) : String :=
  "CURRENT ACTIVE TASK: " ++ desc ++
    if lines = [] then ""
    else "\n\n" ++ ("PRIOR TASK FINDINGS (for context):\n" ++ String.intercalate "\n" lines)

/-- `m` is the first configuration after `c` at which `task_manager` runs, and `m'`
is what it leaves. -/
def NextVisit (rt : Runtime) (c m m' : Config) : Prop :=
  ∃ between, History (· = c) (Step rt) (m' :: m :: between) ∧ m.next = some .taskManager ∧
    ∀ v ∈ between, v.next ≠ some .taskManager

/-- The task context names a pending task which the next visit of `task_manager`
completes, and lists the findings of the completed ones. -/
def ToldTask (rt : Runtime) (c : Config) : Prop :=
  ∃ (i : ℕ) (t : Task), c.state.tasks[i]? = some t ∧ t.status = .pending ∧
    buildTaskContext c.state = contextNaming t.desc (priorFindings c.state.tasks) ∧
    ∀ m m', NextVisit rt c m m' →
      ∃ t' : Task, m'.state.tasks[i]? = some t' ∧ t'.status = .completed

/-! ### The context -/

theorem completedFindings_eq (tasks : List Task) :
    completedFindings tasks = priorFindings tasks := by
  induction tasks with
  | nil => rfl
  | cons t tasks ih =>
      unfold completedFindings priorFindings at ih ⊢
      by_cases ht : t.status = .completed
      · rw [List.flatMap_cons, if_pos ht, List.filter_cons_of_pos (by simpa using ht),
          List.flatMap_cons, ih]
      · rw [List.flatMap_cons, if_neg ht, List.filter_cons_of_neg (by simpa using ht), ih,
          List.nil_append]

/-- With an active task the context names it. -/
theorem buildTaskContext_of_some {s : AgentState} {t : Task} (ht : activeTask s = some t) :
    buildTaskContext s = contextNaming t.desc (priorFindings s.tasks) := by
  unfold buildTaskContext contextNaming
  simp only [ht, completedFindings_eq]
  by_cases hl : priorFindings s.tasks = []
  · simp only [hl, ne_eq, not_true_eq_false, if_false, if_true, List.append_nil,
      String.intercalate_singleton, String.append_empty]
  · simp only [hl, ne_eq, not_false_eq_true, if_true, if_false, List.singleton_append,
      String.intercalate_cons_cons, String.intercalate_singleton, String.append_assoc]

/-- Without one the context names none: it does not begin like one that does. -/
theorem buildTaskContext_of_none {s : AgentState} (ht : activeTask s = none) (desc : String)
    (lines : List String) : buildTaskContext s ≠ contextNaming desc lines := by
  intro heq
  have hhead := congrArg (fun text => text.toList.head?) heq
  have hnaming : (contextNaming desc lines).toList.head? = some 'C' := by
    unfold contextNaming
    rw [String.toList_append, String.toList_append, List.head?_append,
      List.head?_append, show "CURRENT ACTIVE TASK: ".toList.head? = some 'C' by decide]
    rfl
  unfold buildTaskContext at hhead
  simp only [ht, hnaming, List.nil_append] at hhead
  by_cases hl : completedFindings s.tasks = []
  · rw [if_neg (not_not_intro hl), String.intercalate_nil] at hhead
    exact absurd hhead (by decide)
  · rw [if_pos hl, String.intercalate_singleton, String.toList_append, List.head?_append,
      show "PRIOR TASK FINDINGS (for context):\n".toList.head? = some 'P' by decide] at hhead
    exact absurd hhead (by simp)

/-! ### The active task -/

/-- **The first task with the current id is the first pending one**, when the id is
truthy. -/
theorem Pointed.activeTask {s : AgentState} (h : Pointed s) {t : Task}
    (ht : nextTask s.tasks = some t) (hid : t.id ≠ 0) : activeTask s = some t := by
  obtain ⟨hp, before, after, htasks, hbefore⟩ := nextTask_eq_some_iff.1 ht
  have hcur : s.currentTaskId = some t.id := by
    rw [h.current, ht]
    rfl
  rw [Graph.activeTask, hcur]
  show (if t.id ≠ 0 then _ else _) = _
  rw [if_pos hid, htasks, List.find?_append, List.find?_eq_none.2, Option.none_or,
    List.find?_cons_of_pos (by simp)]
  intro a ha heq
  rw [decide_eq_true_eq] at heq
  refine h.apart a ?_ t ?_ (hbefore a ha) hp heq
  · rw [htasks]
    exact List.mem_append_left _ ha
  · rw [htasks]
    exact List.mem_append_right _ List.mem_cons_self

/-- The id `0` names no task. -/
theorem activeTask_zero {s : AgentState} (h : s.currentTaskId = some 0) : activeTask s = none := by
  rw [activeTask, h]
  rfl

/-! ### Until the next visit -/

/-- Between an executor and `task_manager` the registry stays as it is. -/
theorem Transition.registry {rt : Runtime} {c c' : Config} (h : Transition rt c c') {n : Node}
    (hn : c.next = some n) (hw : n.working) (hm : n ≠ .taskManager) :
    c'.state.tasks = c.state.tasks ∧ c'.state.currentTaskId = c.state.currentTaskId ∧
      ∃ n', c'.next = some n' ∧ n'.working := by
  cases h with
  | supervise | plan | initDirect | synthesize =>
      obtain rfl := Option.some.inj hn
      cases hw
  | dispatch | conclude | track | callTools | extract | criticize | rework | exhaust | accept =>
      exact ⟨rfl, rfl, _, rfl, rfl⟩
  | dismiss | advance | finish => exact absurd (Option.some.inj hn).symm hm

/-- **The next visit finds the registry as the executor found it.** -/
theorem NextVisit.registry {rt : Runtime} {c m m' : Config} (h : NextVisit rt c m m')
    (hc : c.atExecutor) :
    m.state.tasks = c.state.tasks ∧ m.state.currentTaskId = c.state.currentTaskId := by
  obtain ⟨between, hh, hm, hbetween⟩ := h
  have hrun : History (· = c) (Step rt) (m :: between) :=
    hh.of_suffix (List.suffix_cons _ _) (List.cons_ne_nil _ _)
  have hkept := hrun.rec_head (P := fun v before => (∀ u ∈ before, u.next ≠ some .taskManager) →
      v.state.tasks = c.state.tasks ∧ v.state.currentTaskId = c.state.currentTaskId ∧
        ∃ n, v.next = some n ∧ n.working) ?_ ?_
  · exact ⟨(hkept hbetween).1, (hkept hbetween).2.1⟩
  · rintro _ rfl _
    obtain ⟨l, s, rfl⟩ := Config.exists_of_atExecutor hc
    exact ⟨rfl, rfl, _, rfl, rfl⟩
  · intro v v' before _ ih hs hnone
    rw [List.forall_mem_cons] at hnone
    obtain ⟨htasks, hcur, n, hn, hw⟩ := ih hnone.2
    obtain ⟨htasks', hcur', hn'⟩ := hs.transition.registry hn hw fun h => hnone.1 (h ▸ hn)
    exact ⟨htasks'.trans htasks, hcur'.trans hcur, hn'⟩

/-- A visit of `task_manager` completes the tasks with the current id. -/
theorem Transition.completes {rt : Runtime} {m m' : Config} (h : Transition rt m m')
    (hm : m.next = some .taskManager) {i : ℕ} {t : Task} (ht : m.state.tasks[i]? = some t)
    (hid : m.state.currentTaskId = some t.id) :
    ∃ t', m'.state.tasks[i]? = some t' ∧ t'.status = .completed := by
  have hcomplete : ∀ (s : AgentState) (result : String), s.tasks[i]? = some t →
      s.currentTaskId = some t.id →
      ∃ t', (completeCurrent s result)[i]? = some t' ∧ t'.status = .completed := by
    intro s result hs hcur
    refine ⟨t.complete result s.extractedFindings, ?_, rfl⟩
    rw [completeCurrent, List.getElem?_map, hs, Option.map_some, if_pos hcur.symm]
  cases h with
  | supervise | plan | initDirect | dispatch | conclude | track | callTools | extract | criticize
  | rework | exhaust | accept | synthesize => cases hm
  | dismiss s hnil =>
      rw [hnil] at ht
      cases ht
  | advance s hne result hr next hn => exact hcomplete s result ht hid
  | finish s hne result hr hn => exact hcomplete s result ht hid

/-- **An executor is told the task that will be completed exactly when its id is not
`0`.**  At every executor of every run of a turn, with a task on the list, whatever
the plan and its ids. -/
theorem toldTask_iff {rt : Runtime} {thread : AgentState} {request : ChatRequest}
    {h : List Config} (hh : TurnHistory rt thread request h) :
    ∀ c ∈ h, c.atExecutor → c.state.tasks ≠ [] →
      (ToldTask rt c ↔ c.state.currentTaskId ≠ some 0) := by
  intro c hc he hne
  have hp : Pointed c.state := by
    obtain ⟨l, s, rfl⟩ := Config.exists_of_atExecutor he
    exact (registered_of_history hh _ hc).pointed _ rfl rfl
  constructor
  · rintro ⟨i, t, -, -, htext, -⟩ hzero
    exact buildTaskContext_of_none (activeTask_zero hzero) t.desc _ htext
  · intro hnz
    obtain ⟨t, hnext, hcur⟩ := hp.exists_next hne
    have hid : t.id ≠ 0 := fun h0 => hnz (h0 ▸ hcur)
    obtain ⟨hpending, before, after, htasks, -⟩ := nextTask_eq_some_iff.1 hnext
    have hi : c.state.tasks[before.length]? = some t := by
      rw [htasks, List.getElem?_append_right le_rfl, Nat.sub_self]
      rfl
    refine ⟨before.length, t, hi, hpending, buildTaskContext_of_some (hp.activeTask hnext hid), ?_⟩
    intro m m' hvisit
    obtain ⟨htasks', hcur'⟩ := hvisit.registry he
    obtain ⟨between, hrun, hm, -⟩ := hvisit
    cases hrun with
    | next _ hs =>
        exact hs.transition.completes hm (htasks' ▸ hi) (hcur'.trans hcur)

/-- The first executor of a turn whose plan has a task with id `1` is told of it. -/
theorem toldTask_one :
    ∃ c ∈ plannedTurn [⟨1, "Find the news.", .generalMemory⟩] [], c.atExecutor ∧
      ToldTask .plain c := by
  obtain ⟨c, hc, he, hlen, hcur⟩ : ∃ c ∈ plannedTurn [⟨1, "Find the news.", .generalMemory⟩] [],
      c.atExecutor ∧ c.state.tasks.length = 1 ∧ c.state.currentTaskId = some 1 := by
    decide
  have hne : c.state.tasks ≠ [] := by
    intro hnil
    simp [hnil] at hlen
  exact ⟨c, hc, he, (toldTask_iff (turnHistory_plannedTurn _ _) c hc he hne).2 (by simp [hcur])⟩

/-- **The task with id `0` is not named to its executor.** -/
theorem not_toldTask_zero :
    ¬ ∀ rt thread request h, TurnHistory rt thread request h → ∀ c ∈ h, c.atExecutor →
      c.state.tasks ≠ [] → ToldTask rt c := by
  intro hall
  obtain ⟨c, hc, he, hcur⟩ : ∃ c ∈ plannedTurn [⟨0, "Find the news.", .generalMemory⟩] [],
      c.atExecutor ∧ c.state.currentTaskId = some 0 ∧ c.state.tasks.length = 1 := by
    decide
  obtain ⟨i, t, -, -, htext, -⟩ := hall _ _ _ _ (turnHistory_plannedTurn _ _) c hc he (by
    intro hnil
    simp [hnil] at hcur)
  exact buildTaskContext_of_none (activeTask_zero hcur.1) t.desc _ htext

end Graph
end CognitiveEngine
