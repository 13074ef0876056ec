/-
# The task registry

The planner hands the graph a list of tasks, each under an id the model invents.
`node_task_manager` completes the current task, advances to the next pending one,
and the tasks are to be worked on one after the other.  It finds the current task
by its id alone and completes every task that has it, so two tasks with one id are
completed together and the second is never worked on.  It also stores the last
message's text where the extractor's summary is empty.

`plan_complete_iff` says that nothing else goes wrong.  A run that reaches
`final_synthesizer` has given every planned task its own stint, in plan order,
with the result and the findings of that stint's last extraction, exactly when
the ids of the plan are different and `task_manager` never met an empty summary.

The run is cut at its task starts (`Machine.segments`), and `AtWork` is the
invariant: the tasks before the current one are closed, each by its own stint, and
the tasks after it are as the planner left them.
-/

import CognitiveEngine.Graph.Runs

namespace CognitiveEngine
namespace Graph

open Machine

/-- `c` is where the planner hands over after returning the tasks `items`. -/
def PlannedFrom (rt : Runtime) (items : List TaskItem) (c : Config) : Prop :=
  ∃ s env, (env.planner (getLlmInstance 2 (some env.config)) (plannerPrompt s)).output
    = some ⟨items⟩ ∧ step rt env ⟨some .planner, s⟩ = .ok c

/-- The runs of a turn from where the planner has returned the tasks `items`. -/
def PlanHistory (rt : Runtime) (items : List TaskItem) : List Config → Prop :=
  History (PlannedFrom rt items) (Step rt)

/-- The stints of a run: the configurations from one task start to the next, the
first stint first, each with its latest configuration first. -/
def stints (h : List Config) : List (List Config) := (segments TaskStart h).reverse

/-- What the last visit of `finding_extractor` wrote: the configuration it leads
to is the critic's. -/
def lastExtraction (visits : List Config) : Option (Option String × List Finding) :=
  (visits.find? fun c => c.next = some .criticAgent).map fun c =>
    (c.state.rawExecutorOutput, c.state.extractedFindings)

/-- The task is the current one and the only one with the current id, while the
run is at work. -/
def OnTask (item : TaskItem) (c : Config) : Prop :=
  ∀ n, c.next = some n → n.working →
    c.state.currentTaskId = some item.id ∧
      (c.state.tasks.filter fun t => t.id = item.id).length = 1

/-- A planned task with the configurations of its stint and its record at the
end. -/
structure Stint where
  item : TaskItem
  visits : List Config
  record : Task

/-- The stint is the task's own: it is the only task with the current id, an
executor was entered for it, and its record has what the last extraction wrote. -/
structure Stint.Own (σ : Stint) : Prop where
  onTask : ∀ c ∈ σ.visits, OnTask σ.item c
  visited : ∃ c ∈ σ.visits, c.atExecutor
  stored : lastExtraction σ.visits = some (σ.record.result, σ.record.findings)

/-- Every planned task has had its own stint, in plan order. -/
def PlanComplete (items : List TaskItem) (h : List Config) : Prop :=
  ∃ σs : List Stint, σs.map Stint.item = items ∧ σs.map Stint.visits = stints h ∧
    (∀ c ∈ h.head?, c.state.tasks = σs.map Stint.record) ∧ ∀ σ ∈ σs, σ.Own

/-- `task_manager` finds a summary to store: one that is not empty, unless the
text it would be replaced by is empty too. -/
def SummaryKept (c : Config) : Prop :=
  c.state.rawExecutorOutput = some "" → ∀ m ∈ c.state.messages.last?, m.content = ""

instance : DecidablePred SummaryKept := fun c => by unfold SummaryKept; infer_instance

/-- `rawOrLast` keeps the summary exactly when it is not empty, or the text that
would replace it is. -/
theorem rawOrLast_eq_iff {s : AgentState} {summary result : String}
    (hs : s.rawExecutorOutput = some summary) (hr : rawOrLast s = .ok result) :
    result = summary ↔
      (s.rawExecutorOutput = some "" → ∀ m ∈ s.messages.last?, m.content = "") := by
  unfold rawOrLast at hr
  rw [hs] at hr ⊢
  by_cases he : summary = ""
  · subst he
    simp only [ne_eq, not_true_eq_false, if_false] at hr
    obtain ⟨m, hm, rfl⟩ := map_eq_ok_iff.1 hr
    rw [lastMessage_eq_ok_iff] at hm
    constructor
    · intro hempty _ m' hm'
      obtain rfl := Option.some.inj (hm.symm.trans hm')
      exact hempty
    · intro h
      exact h rfl m hm
  · simp only [ne_eq, he, not_false_eq_true, if_true] at hr
    obtain rfl := Except.ok.inj hr
    exact iff_of_true rfl fun h => absurd (Option.some.inj h) he

/-! ### Closed stints -/

/-- What `task_manager` leaves of a stint it has closed, whatever it stored as the
result. -/
structure Stint.Closed (σ : Stint) : Prop where
  onTask : ∀ c ∈ σ.visits, OnTask σ.item c
  visited : ∃ c ∈ σ.visits, c.atExecutor
  id_eq : σ.record.id = σ.item.id
  completed : σ.record.status = .completed
  managed : ∃ c ∈ σ.visits, c.next = some .taskManager
  stored : ∃ summary result, lastExtraction σ.visits = some (some summary, σ.record.findings) ∧
    σ.record.result = some result ∧
      ∀ c ∈ σ.visits, c.next = some .taskManager →
        c.state.rawExecutorOutput = some summary ∧ rawOrLast c.state = .ok result

/-- **A closed stint is the task's own exactly when its summary was kept.** -/
theorem Stint.Closed.own_iff {σ : Stint} (hσ : σ.Closed) :
    σ.Own ↔ ∀ c ∈ σ.visits, c.next = some .taskManager → SummaryKept c := by
  obtain ⟨summary, result, hlast, hresult, hman⟩ := hσ.stored
  constructor
  · intro hown c hc hn
    obtain ⟨hraw, hok⟩ := hman c hc hn
    have heq : result = summary := by
      have hstored := hlast.symm.trans hown.stored
      rw [hresult, Option.some_inj, Prod.mk.injEq, Option.some_inj] at hstored
      exact hstored.1.symm
    exact (rawOrLast_eq_iff hraw hok).1 heq
  · intro hkept
    obtain ⟨c, hc, hn⟩ := hσ.managed
    obtain ⟨hraw, hok⟩ := hman c hc hn
    have heq : result = summary := (rawOrLast_eq_iff hraw hok).2 (hkept c hc hn)
    refine ⟨hσ.onTask, hσ.visited, ?_⟩
    rw [hlast, hresult, heq]

/-- Stints are what they are of tasks, configurations and records. -/
theorem stints_ext {σs τs : List Stint} (hi : σs.map Stint.item = τs.map Stint.item)
    (hv : σs.map Stint.visits = τs.map Stint.visits)
    (hr : σs.map Stint.record = τs.map Stint.record) : σs = τs := by
  induction σs generalizing τs with
  | nil => exact (List.map_eq_nil_iff.1 hi.symm).symm
  | cons σ σs ih =>
      cases τs with
      | nil => cases hi
      | cons τ τs =>
          obtain ⟨hi₀, hi⟩ := List.cons.inj hi
          obtain ⟨hv₀, hv⟩ := List.cons.inj hv
          obtain ⟨hr₀, hr⟩ := List.cons.inj hr
          have heq : σ = τ := by
            cases σ
            cases τ
            exact Stint.mk.injEq .. ▸ ⟨hi₀, hv₀, hr₀⟩
          rw [heq, ih hi hv hr]

/-! ### Completing one of several tasks -/

/-- With different ids, completing the current task changes that task alone. -/
theorem completeCurrent_eq {s : AgentState} {before after : List Task} {t : Task}
    (ht : s.tasks = before ++ t :: after) (hcur : s.currentTaskId = some t.id)
    (hnd : (s.tasks.map Task.id).Nodup) (result : String) :
    completeCurrent s result =
      before ++ t.complete result s.extractedFindings :: after := by
  rw [ht, List.map_append, List.map_cons] at hnd
  have hother : ∀ l : List Task, (∀ a ∈ l, a.id ≠ t.id) →
      l.map (fun a => if some a.id = s.currentTaskId then
        a.complete result s.extractedFindings else a) = l := by
    intro l hl
    refine (List.map_congr_left fun a ha => ?_).trans (List.map_id l)
    rw [if_neg, id]
    rw [hcur, Option.some_inj]
    exact hl a ha
  unfold completeCurrent
  rw [ht, List.map_append, List.map_cons, if_pos hcur.symm, hother before, hother after]
  · intro a ha heq
    exact (List.nodup_cons.1 (List.nodup_append.1 hnd).2.1).1 (heq ▸ List.mem_map_of_mem ha)
  · intro a ha heq
    exact (List.nodup_append.1 hnd).2.2 a.id (List.mem_map_of_mem ha) t.id
      List.mem_cons_self heq

/-- The next task is the first one after the closed ones. -/
theorem nextTask_append {closed : List Task} (hc : ∀ t ∈ closed, t.status = .completed)
    (post : List TaskItem) :
    nextTask (closed ++ post.map TaskItem.toTask) = post.head?.map TaskItem.toTask := by
  have hnone : closed.find? (fun t => t.status = .pending) = none := by
    refine List.find?_eq_none.2 fun t ht => ?_
    rw [hc t ht]
    decide
  rw [nextTask, List.find?_append, hnone, Option.none_or]
  cases post with
  | nil => rfl
  | cons item post => rfl

/-! ### The invariant -/

section Work

variable {items : List TaskItem}

/-- The run is at work on `item`: the tasks before it are closed by the stints
`σs`, the tasks after it, `post`, are as planned, and `seg` is its stint so far,
up to the configuration `c`. -/
structure AtWork (items : List TaskItem) (σs : List Stint) (item : TaskItem)
    (post : List TaskItem) (seg : List Config) (c : Config) (h : List Config) : Prop where
  plan : items = σs.map Stint.item ++ item :: post
  cut : segments TaskStart (c :: h) = seg :: (σs.map Stint.visits).reverse
  tasks : c.state.tasks = σs.map Stint.record ++ item.toTask :: post.map TaskItem.toTask
  current : c.state.currentTaskId = some item.id
  closed : ∀ σ ∈ σs, σ.Closed
  here : c ∈ seg
  onTask : ∀ c' ∈ seg, OnTask item c'
  visited : ∃ c' ∈ seg, c'.atExecutor
  managed : ∀ c' ∈ seg, c'.next = some .taskManager → c' = c
  extracted : c.next = some .criticAgent ∨ c.next = some .reflectionAgent ∨
      c.next = some .taskManager →
    ∃ summary, c.state.rawExecutorOutput = some summary ∧
      lastExtraction seg = some (some summary, c.state.extractedFindings)

/-- The ids of closed records are those planned. -/
theorem map_id_records {σs : List Stint} (hσs : ∀ σ ∈ σs, σ.Closed) :
    (σs.map Stint.record).map Task.id = (σs.map Stint.item).map TaskItem.id := by
  rw [List.map_map, List.map_map]
  exact List.map_congr_left fun σ hσ => (hσs σ hσ).id_eq

/-- The registry has the ids of the plan all along. -/
theorem AtWork.map_id {σs : List Stint} {item : TaskItem} {post : List TaskItem}
    {seg : List Config} {c : Config} {h : List Config} (w : AtWork items σs item post seg c h) :
    c.state.tasks.map Task.id = items.map TaskItem.id := by
  have hpost : (post.map TaskItem.toTask).map Task.id = post.map TaskItem.id := by
    rw [List.map_map]
    rfl
  rw [w.tasks, w.plan, List.map_append, List.map_append, map_id_records w.closed, List.map_cons,
    List.map_cons, hpost]
  rfl

/-- Completing tasks keeps their ids. -/
theorem map_id_completeCurrent (s : AgentState) (result : String) :
    (completeCurrent s result).map Task.id = s.tasks.map Task.id := by
  rw [completeCurrent, List.map_map]
  refine List.map_congr_left fun t _ => ?_
  rw [Function.comp]
  split_ifs <;> rfl

/-- The tasks with an id, counted in the list of ids. -/
theorem length_filter_id (tasks : List Task) (id : ℤ) :
    (tasks.filter fun t => t.id = id).length = (tasks.map Task.id).count id := by
  rw [List.count, List.countP_map, List.countP_eq_length_filter]
  refine congrArg List.length (List.filter_congr fun t _ => ?_)
  rw [Function.comp, Bool.eq_iff_iff, decide_eq_true_eq, beq_iff_eq]

/-- With different ids the current task is the only one with the current id. -/
theorem onTask_of_current (hnd : (items.map TaskItem.id).Nodup) {c : Config} {item : TaskItem}
    (hitem : item ∈ items) (hids : c.state.tasks.map Task.id = items.map TaskItem.id)
    (hcur : c.state.currentTaskId = some item.id) : OnTask item c := by
  intro n _ _
  refine ⟨hcur, ?_⟩
  rw [length_filter_id, hids]
  exact List.count_eq_one_of_mem hnd (List.mem_map_of_mem hitem)

/-- A superstep inside a stint goes on with it. -/
theorem AtWork.keep (hnd : (items.map TaskItem.id).Nodup) {σs : List Stint} {item : TaskItem}
    {post : List TaskItem} {seg : List Config} {c c' : Config} {h : List Config}
    (w : AtWork items σs item post seg c h) (hm : ¬ TaskStart c c')
    (hn : c.next ≠ some .taskManager) (ht : c'.state.tasks = c.state.tasks)
    (hcur : c'.state.currentTaskId = c.state.currentTaskId)
    (hex : c'.next = some .criticAgent ∨ c'.next = some .reflectionAgent ∨
        c'.next = some .taskManager →
      ∃ summary, c'.state.rawExecutorOutput = some summary ∧
        lastExtraction (c' :: seg) = some (some summary, c'.state.extractedFindings)) :
    AtWork items σs item post (c' :: seg) c' (c :: h) where
  plan := w.plan
  cut := segments_cons_of_not_mark hm w.cut
  tasks := ht.trans w.tasks
  current := hcur.trans w.current
  closed := w.closed
  here := List.mem_cons_self
  onTask := by
    have hitem : item ∈ items := by
      rw [w.plan]
      exact List.mem_append_right _ List.mem_cons_self
    refine List.forall_mem_cons.2 ⟨onTask_of_current hnd hitem ?_ (hcur.trans w.current), w.onTask⟩
    rw [ht, w.map_id]
  visited := by
    obtain ⟨v, hv, he⟩ := w.visited
    exact ⟨v, List.mem_cons_of_mem _ hv, he⟩
  managed := by
    intro v hv hvn
    rcases List.mem_cons.1 hv with rfl | hv
    · rfl
    · rw [w.managed v hv hvn] at hvn
      exact absurd hvn hn
  extracted := hex

/-- A configuration that is not the critic's leaves the last extraction. -/
theorem lastExtraction_cons {c : Config} (hc : c.next ≠ some .criticAgent) (seg : List Config) :
    lastExtraction (c :: seg) = lastExtraction seg := by
  simp [lastExtraction, hc]

/-- After the extractor a stint keeps its last extraction, up to its end. -/
theorem AtWork.carry (hnd : (items.map TaskItem.id).Nodup) {σs : List Stint} {item : TaskItem}
    {post : List TaskItem} {seg : List Config} {c c' : Config} {h : List Config}
    (w : AtWork items σs item post seg c h) (hm : ¬ TaskStart c c')
    (hc : c.next = some .criticAgent ∨ c.next = some .reflectionAgent)
    (hc' : c'.next ≠ some .criticAgent) (ht : c'.state.tasks = c.state.tasks)
    (hcur : c'.state.currentTaskId = c.state.currentTaskId)
    (hraw : c'.state.rawExecutorOutput = c.state.rawExecutorOutput)
    (hfindings : c'.state.extractedFindings = c.state.extractedFindings) :
    AtWork items σs item post (c' :: seg) c' (c :: h) := by
  refine w.keep hnd hm ?_ ht hcur fun _ => ?_
  · rcases hc with hc | hc <;> simp [hc]
  · rw [lastExtraction_cons hc', hraw, hfindings]
    exact w.extracted (hc.imp_right .inl)

/-- **`task_manager` closes the stint**, `passed` being what the run passes through
after it before the next one. -/
theorem AtWork.close {σs : List Stint} {item : TaskItem} {post : List TaskItem}
    {seg : List Config} {s : AgentState} {h : List Config}
    (w : AtWork items σs item post seg ⟨some .taskManager, s⟩ h) {result : String}
    (hr : rawOrLast s = .ok result) (passed : List Config)
    (hpassed : ∀ c ∈ passed, c.next = some .finalSynthesizer) :
    (⟨item, passed ++ seg, item.toTask.complete result s.extractedFindings⟩ : Stint).Closed := by
  obtain ⟨summary, hraw, hlast⟩ := w.extracted (.inr (.inr rfl))
  have hskip : ∀ l : List Config, (∀ c ∈ l, c.next = some .finalSynthesizer) →
      lastExtraction (l ++ seg) = lastExtraction seg := by
    intro l hl
    induction l with
    | nil => rfl
    | cons c l ih =>
        rw [List.cons_append, lastExtraction_cons (by simp [hl c List.mem_cons_self])]
        exact ih fun c' hc' => hl c' (List.mem_cons_of_mem _ hc')
  refine ⟨?_, ?_, rfl, rfl, ⟨_, List.mem_append_right _ w.here, rfl⟩,
    ⟨summary, result, (hskip passed hpassed).trans hlast, rfl, ?_⟩⟩
  · intro c hc
    rcases List.mem_append.1 hc with hc | hc
    · intro n hn hw
      rw [hpassed c hc] at hn
      obtain rfl := Option.some.inj hn
      cases hw
    · exact w.onTask c hc
  · obtain ⟨v, hv, he⟩ := w.visited
    exact ⟨v, List.mem_append_right _ hv, he⟩
  · intro c hc hn
    rcases List.mem_append.1 hc with hc | hc
    · rw [hpassed c hc] at hn
      cases hn
    · obtain rfl := w.managed c hc hn
      exact ⟨hraw, hr⟩

/-- How far a run has come: it is at work on a task, or every task is closed. -/
def Progress (items : List TaskItem) (c : Config) (h : List Config) : Prop :=
  match c.next with
  | some (.executor _) | some .actionTracker | some .tools | some .findingExtractor
  | some .criticAgent | some .reflectionAgent | some .taskManager =>
      ∃ σs item post seg, AtWork items σs item post seg c h
  | some .finalSynthesizer =>
      ∃ σs : List Stint, σs.map Stint.item = items ∧ σs.map Stint.visits = stints (c :: h) ∧
        c.state.tasks = σs.map Stint.record ∧ ∀ σ ∈ σs, σ.Closed
  | some .supervisorRouter | some .planner | some .directExecutorInit => False
  | none => True

/-- The planner hands over with every task as planned, the first one current. -/
theorem PlannedFrom.eq {rt : Runtime} {c : Config} (hc : PlannedFrom rt items c) :
    ∃ l s, c = ⟨some (.executor l), s⟩ ∧ s.tasks = items.map TaskItem.toTask ∧
      s.currentTaskId = items.head?.map TaskItem.id := by
  obtain ⟨s, env, hplan, hstep⟩ := hc
  obtain ⟨u, hu, nx, hnx, rfl⟩ := step_eq_ok_iff.1 hstep
  obtain rfl := Except.ok.inj hu
  obtain rfl := Except.ok.inj (hnx.symm.trans
    (follow_laneMap (congrArg Except.ok (routeFromPlanner_eq _)) []))
  have htasks : planTasks s
      (env.planner (getLlmInstance 2 (some env.config)) (plannerPrompt s)).output
        = items.map TaskItem.toTask := by
    rw [hplan]
    rfl
  refine ⟨_, _, rfl, htasks, ?_⟩
  show (planTasks s _).head?.map Task.id = _
  rw [htasks, List.head?_map, Option.map_map]
  rfl

theorem progress_planned {rt : Runtime} (hnd : (items.map TaskItem.id).Nodup) (hne : items ≠ [])
    {c : Config} (hc : PlannedFrom rt items c) : Progress items c [] := by
  obtain ⟨l, s, rfl, htasks, hcur⟩ := hc.eq
  obtain ⟨item, post, rfl⟩ := List.exists_cons_of_ne_nil hne
  refine ⟨[], item, post, [⟨some (.executor l), s⟩], rfl, rfl, htasks, hcur, by simp,
    List.mem_cons_self, ?_, ⟨_, List.mem_cons_self, rfl⟩, ?_, ?_⟩
  · intro c hc
    rw [List.mem_singleton.1 hc]
    refine onTask_of_current hnd List.mem_cons_self ?_ hcur
    show s.tasks.map Task.id = _
    rw [htasks, List.map_map]
    rfl
  · intro c hc _
    exact List.mem_singleton.1 hc
  · rintro (h | h | h) <;> cases h

/-- **Closing a task leads to the next one of the plan**, or to the end of it. -/
theorem AtWork.completed (hnd : (items.map TaskItem.id).Nodup) {σs : List Stint}
    {item : TaskItem} {post : List TaskItem} {seg : List Config} {s : AgentState}
    {h : List Config} (w : AtWork items σs item post seg ⟨some .taskManager, s⟩ h)
    (result : String) :
    completeCurrent s result = σs.map Stint.record ++
        item.toTask.complete result s.extractedFindings :: post.map TaskItem.toTask ∧
      nextTask (completeCurrent s result) = post.head?.map TaskItem.toTask := by
  have hids : s.tasks.map Task.id = items.map TaskItem.id := w.map_id
  have heq := completeCurrent_eq w.tasks w.current (hids ▸ hnd) result
  refine ⟨heq, ?_⟩
  rw [heq, List.append_cons]
  refine nextTask_append ?_ post
  intro t ht
  rcases List.mem_append.1 ht with ht | ht
  · obtain ⟨σ, hσ, rfl⟩ := List.mem_map.1 ht
    exact (w.closed σ hσ).completed
  · rw [List.mem_singleton.1 ht]
    rfl

/-- `task_manager` goes on with the next task of the plan. -/
theorem AtWork.advance (hnd : (items.map TaskItem.id).Nodup) {σs : List Stint}
    {item : TaskItem} {post : List TaskItem} {seg : List Config} {s : AgentState}
    {h : List Config} (w : AtWork items σs item post seg ⟨some .taskManager, s⟩ h)
    {result : String} (hr : rawOrLast s = .ok result) {next : Task}
    (hn : nextTask (completeCurrent s result) = some next) {l : Lane} :
    ∃ σs item post seg, AtWork items σs item post seg ⟨some (.executor l), s.advanced result next⟩
      (⟨some .taskManager, s⟩ :: h) := by
  obtain ⟨hcomp, hnext⟩ := w.completed hnd result
  rw [hnext] at hn
  cases post with
  | nil => cases hn
  | cons item' post =>
      obtain rfl := Option.some.inj hn
      have hclosed := w.close hr [] (by simp)
      obtain ⟨σ, hσ⟩ : ∃ σ : Stint,
          σ = ⟨item, seg, item.toTask.complete result s.extractedFindings⟩ := ⟨_, rfl⟩
      have hplan : items = (σs ++ [σ]).map Stint.item ++ item' :: post := by
        rw [w.plan, hσ, List.map_append, List.append_assoc]
        rfl
      refine ⟨σs ++ [σ], item', post, [⟨some (.executor l), s.advanced result item'.toTask⟩],
        hplan, ?_, ?_, rfl, ?_, List.mem_cons_self, ?_, ⟨_, List.mem_cons_self, rfl⟩, ?_, ?_⟩
      · rw [segments_cons_of_mark ⟨rfl, rfl⟩, w.cut, hσ, List.map_append, List.reverse_append]
        rfl
      · show completeCurrent s result = _
        rw [hcomp, hσ, List.map_append, List.append_assoc]
        rfl
      · intro τ hτ
        rcases List.mem_append.1 hτ with hτ | hτ
        · exact w.closed τ hτ
        · rw [List.mem_singleton.1 hτ, hσ]
          exact hclosed
      · intro c hc
        rw [List.mem_singleton.1 hc]
        refine onTask_of_current hnd ?_ ?_ rfl
        · rw [hplan]
          exact List.mem_append_right _ List.mem_cons_self
        · rw [← w.map_id]
          exact map_id_completeCurrent s result
      · intro c hc _
        exact List.mem_singleton.1 hc
      · rintro (h | h | h) <;> cases h

/-- `task_manager` goes on to the synthesizer when the plan is at its end. -/
theorem AtWork.finish (hnd : (items.map TaskItem.id).Nodup) {σs : List Stint}
    {item : TaskItem} {post : List TaskItem} {seg : List Config} {s : AgentState}
    {h : List Config} (w : AtWork items σs item post seg ⟨some .taskManager, s⟩ h)
    {result : String} (hr : rawOrLast s = .ok result)
    (hn : nextTask (completeCurrent s result) = none) :
    Progress items ⟨some .finalSynthesizer, s.finished result⟩ (⟨some .taskManager, s⟩ :: h) := by
  obtain ⟨hcomp, hnext⟩ := w.completed hnd result
  have hpost : post = [] := by
    rw [hnext] at hn
    exact List.head?_eq_none_iff.1 (Option.map_eq_none_iff.1 hn)
  subst hpost
  have hclosed := w.close hr [⟨some .finalSynthesizer, s.finished result⟩] (by simp)
  refine ⟨σs ++ [⟨item, ⟨some .finalSynthesizer, s.finished result⟩ :: seg,
    item.toTask.complete result s.extractedFindings⟩], ?_, ?_, ?_, ?_⟩
  · rw [List.map_append, w.plan]
    rfl
  · have hm : ¬ TaskStart ⟨some .taskManager, s⟩
        ⟨some .finalSynthesizer, s.finished result⟩ := fun h => Bool.false_ne_true h.2
    rw [stints, segments_cons_of_not_mark hm w.cut, List.reverse_cons, List.reverse_reverse,
      List.map_append]
    rfl
  · show completeCurrent s result = _
    rw [hcomp, List.map_append]
    rfl
  · intro σ hσ
    rcases List.mem_append.1 hσ with hσ | hσ
    · exact w.closed σ hσ
    · rw [List.mem_singleton.1 hσ]
      exact hclosed

/-- **Each superstep makes progress in the plan.** -/
theorem Progress.transition {rt : Runtime} (hnd : (items.map TaskItem.id).Nodup)
    {c c' : Config} {h : List Config} (hp : Progress items c h) (ht : Transition rt c c') :
    Progress items c' (c :: h) := by
  cases ht with
  | supervise | plan | initDirect => exact hp.elim
  | dispatch | conclude | track | callTools | rework =>
      obtain ⟨σs, item, post, seg, w⟩ := hp
      exact ⟨σs, item, post, _, w.keep hnd (fun h => Bool.false_ne_true h.1) (by simp) rfl rfl
        (by rintro (h | h | h) <;> cases h)⟩
  | extract s last hlast summary findings =>
      obtain ⟨σs, item, post, seg, w⟩ := hp
      exact ⟨σs, item, post, _, w.keep hnd (fun h => Bool.false_ne_true h.1) (by simp) rfl rfl
        fun _ => ⟨summary, rfl, rfl⟩⟩
  | criticize =>
      obtain ⟨σs, item, post, seg, w⟩ := hp
      exact ⟨σs, item, post, _,
        w.carry hnd (fun h => Bool.false_ne_true h.1) (.inl rfl) (by simp) rfl rfl rfl rfl⟩
  | exhaust | accept =>
      obtain ⟨σs, item, post, seg, w⟩ := hp
      exact ⟨σs, item, post, _,
        w.carry hnd (fun h => Bool.false_ne_true h.1) (.inr rfl) (by simp) rfl rfl rfl rfl⟩
  | dismiss s hnil =>
      obtain ⟨σs, item, post, seg, w⟩ := hp
      have htasks : s.tasks = σs.map Stint.record ++ item.toTask :: post.map TaskItem.toTask :=
        w.tasks
      rw [hnil] at htasks
      exact absurd htasks.symm (by simp)
  | advance s hne result hr next hn =>
      obtain ⟨σs, item, post, seg, w⟩ := hp
      exact w.advance hnd hr hn
  | finish s hne result hr hn =>
      obtain ⟨σs, item, post, seg, w⟩ := hp
      exact w.finish hnd hr hn
  | synthesize => trivial

theorem progress_of_history {rt : Runtime} (hnd : (items.map TaskItem.id).Nodup)
    (hne : items ≠ []) {c : Config} {h : List Config} (hh : PlanHistory rt items (c :: h)) :
    Progress items c h :=
  hh.rec_head (fun _ hc => progress_planned hnd hne hc)
    fun _ _ _ _ hp hs => hp.transition hnd hs.transition

end Work

/-! ### Plan completeness -/

/-- A configuration of a run belongs to one of its stints. -/
theorem exists_stint_of_mem {h : List Config} {c : Config} (hc : c ∈ h) :
    ∃ visits ∈ stints h, c ∈ visits := by
  rw [← flatten_segments TaskStart h] at hc
  obtain ⟨visits, hv, hcv⟩ := List.mem_flatten.1 hc
  exact ⟨visits, List.mem_reverse.2 hv, hcv⟩

theorem mem_of_mem_stint {h visits : List Config} (hv : visits ∈ stints h) {c : Config}
    (hc : c ∈ visits) : c ∈ h := by
  rw [← flatten_segments TaskStart h]
  exact List.mem_flatten.2 ⟨visits, List.mem_reverse.1 hv, hc⟩

/-- No superstep after the planner changes the ids in the registry. -/
theorem map_id_tasks {rt : Runtime} {items : List TaskItem} {h : List Config}
    (hh : PlanHistory rt items h) :
    ∀ c ∈ h, c.opening = false ∧ c.state.tasks.map Task.id = items.map TaskItem.id := by
  refine hh.forall_mem ?_ ?_
  · intro c hc
    obtain ⟨l, s, rfl, htasks, _⟩ := hc.eq
    refine ⟨rfl, ?_⟩
    show s.tasks.map Task.id = _
    rw [htasks, List.map_map]
    rfl
  · rintro c c' ⟨ho, hids⟩ hs
    cases hs.transition with
    | supervise | plan | initDirect => cases ho
    | dispatch | conclude | track | callTools | extract | criticize | rework | exhaust | accept
    | dismiss | synthesize => exact ⟨rfl, hids⟩
    | advance s ht result hr next hn => exact ⟨rfl, (map_id_completeCurrent s result).trans hids⟩
    | finish s ht result hr hn => exact ⟨rfl, (map_id_completeCurrent s result).trans hids⟩

/-- An own stint counts its task's id once in the plan. -/
theorem Stint.Own.count_eq_one {rt : Runtime} {items : List TaskItem} {h : List Config}
    (hh : PlanHistory rt items h) {σ : Stint} (hσ : σ.Own) (hv : σ.visits ∈ stints h) :
    (items.map TaskItem.id).count σ.item.id = 1 := by
  obtain ⟨c, hc, he⟩ := hσ.visited
  obtain ⟨_, hids⟩ := map_id_tasks hh c (mem_of_mem_stint hv hc)
  obtain ⟨l, s, rfl⟩ := Config.exists_of_atExecutor he
  obtain ⟨_, hone⟩ := hσ.onTask _ hc _ rfl rfl
  rw [← hids, ← length_filter_id]
  exact hone

/-- With different ids, a run that reaches `final_synthesizer` has closed every
task in a stint of its own. -/
theorem exists_closed {rt : Runtime} {items : List TaskItem} {h : List Config}
    (hne : items ≠ []) (hh : PlanHistory rt items h)
    (hn : currentNode h = some .finalSynthesizer) (hnd : (items.map TaskItem.id).Nodup) :
    ∃ σs : List Stint, σs.map Stint.item = items ∧ σs.map Stint.visits = stints h ∧
      (∀ c ∈ h.head?, c.state.tasks = σs.map Stint.record) ∧ ∀ σ ∈ σs, σ.Closed := by
  obtain ⟨c, rest, rfl⟩ := List.exists_cons_of_ne_nil hh.ne_nil
  have hp := progress_of_history hnd hne hh
  have hc : c.next = some .finalSynthesizer := hn
  rw [Progress, hc] at hp
  obtain ⟨σs, hitem, hvisits, hrecord, hclosed⟩ := hp
  refine ⟨σs, hitem, hvisits, ?_, hclosed⟩
  intro c' hc'
  obtain rfl := Option.some.inj hc'
  exact hrecord

/-- **The plan is completed task by task exactly when the ids are different and no
summary is empty.**  Take any run from a planner that returned the tasks `items`
to `final_synthesizer`.  Every planned task has had its own stint, in plan order,
as the only task with the current id, with an executor visited, and with the
result and findings of the stint's last extraction in its record, if and only if
the ids of the plan are pairwise different and each visit of `task_manager` found
a summary to store. -/
theorem plan_complete_iff {rt : Runtime} {items : List TaskItem} {h : List Config}
    (hne : items ≠ []) (hh : PlanHistory rt items h)
    (hn : currentNode h = some .finalSynthesizer) :
    PlanComplete items h ↔
      (items.map TaskItem.id).Nodup ∧ ∀ c ∈ h, c.next = some .taskManager → SummaryKept c := by
  constructor
  · rintro ⟨σs, hitem, hvisits, hrecord, hown⟩
    have hmem : ∀ σ ∈ σs, σ.visits ∈ stints h := fun σ hσ =>
      hvisits ▸ List.mem_map_of_mem hσ
    have hnd : (items.map TaskItem.id).Nodup := by
      refine List.nodup_iff_count_eq_one.2 fun id hid => ?_
      obtain ⟨item, hi, rfl⟩ := List.mem_map.1 hid
      rw [← hitem] at hi
      obtain ⟨σ, hσ, rfl⟩ := List.mem_map.1 hi
      exact (hown σ hσ).count_eq_one hh (hmem σ hσ)
    refine ⟨hnd, fun c hc hcn => ?_⟩
    obtain ⟨τs, hitem', hvisits', hrecord', hclosed⟩ := exists_closed hne hh hn hnd
    have heq : σs = τs := by
      obtain ⟨c₀, rest, rfl⟩ := List.exists_cons_of_ne_nil hh.ne_nil
      exact stints_ext (hitem.trans hitem'.symm) (hvisits.trans hvisits'.symm)
        ((hrecord c₀ rfl).symm.trans (hrecord' c₀ rfl))
    subst heq
    obtain ⟨visits, hv, hcv⟩ := exists_stint_of_mem hc
    rw [← hvisits] at hv
    obtain ⟨σ, hσ, rfl⟩ := List.mem_map.1 hv
    exact (hclosed σ hσ).own_iff.1 (hown σ hσ) c hcv hcn
  · rintro ⟨hnd, hkept⟩
    obtain ⟨σs, hitem, hvisits, hrecord, hclosed⟩ := exists_closed hne hh hn hnd
    refine ⟨σs, hitem, hvisits, hrecord, fun σ hσ => ?_⟩
    refine (hclosed σ hσ).own_iff.2 fun c hc hcn => hkept c ?_ hcn
    exact mem_of_mem_stint (hvisits ▸ List.mem_map_of_mem hσ) hc

/-- The state after the planner has returned `items` for a first prompt. -/
def plannedState (items : List TaskItem) : AgentState :=
  let s := (startTurn .empty ⟨"alice", "s1", "What is new?"⟩).state
  s.startTasks (planTasks s (some ⟨items⟩))

/-- A run from where the planner has returned `items`. -/
def registryRun (items : List TaskItem) (envs : List Env) : List Config :=
  replay .plain [⟨some (.executor (firstLane (plannedState items))), plannedState items⟩] envs

theorem planHistory_registryRun (items : List TaskItem) (envs : List Env) :
    PlanHistory .plain items (registryRun items envs) := by
  refine history_replay id envs (.start
    ⟨(startTurn .empty ⟨"alice", "s1", "What is new?"⟩).state, .planning (some ⟨items⟩), rfl, ?_⟩)
  exact step_eq_ok_iff.2 ⟨_, rfl, _,
    follow_laneMap (congrArg Except.ok (routeFromPlanner_eq _)) [], rfl⟩

/-- A plan of two tasks with different ids is completed. -/
theorem plan_complete_two :
    PlanComplete [⟨1, "Find the news.", .generalMemory⟩, ⟨2, "Sum them up.", .generalMemory⟩]
      (registryRun [⟨1, "Find the news.", .generalMemory⟩, ⟨2, "Sum them up.", .generalMemory⟩]
        (doneOnce ++ doneOnce)) := by
  exact (plan_complete_iff (by simp) (planHistory_registryRun _ _) (by decide)).2
    ⟨by decide, by decide⟩

/-- **Two tasks with one id get one stint between them.** -/
theorem plan_incomplete_repeated_id :
    ¬ ∀ rt items h, items ≠ [] → PlanHistory rt items h →
      currentNode h = some .finalSynthesizer → PlanComplete items h := by
  intro hall
  obtain ⟨σs, hitem, hvisits, _⟩ := hall .plain
    [⟨1, "Find the news.", .generalMemory⟩, ⟨1, "Sum them up.", .generalMemory⟩] _ (by simp)
    (planHistory_registryRun _ doneOnce) (by decide)
  have htwo : σs.length = 2 := by
    rw [← List.length_map Stint.item, hitem]
    rfl
  have hone : σs.length = 1 := by
    rw [← List.length_map Stint.visits, hvisits]
    decide
  omega

end Graph
end CognitiveEngine
