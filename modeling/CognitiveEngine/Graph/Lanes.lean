/-
# Which executor a task is sent to

Four routers choose an executor.  `route_from_planner` and
`route_from_task_manager` read the `target_agent` of the task record;
`route_back_to_agent` and `route_from_reflection` read `current_domain`, which the
supervisor sets once per turn and no planned task changes.  A task of another
lane is therefore dispatched to its own executor first and sent to the executor of
`current_domain` by its first tool call or rework.

`lanes_kept_iff` says this is all that can go wrong: in every run the executors
entered are those of their tasks, and tool results go back to the executor that
asked, exactly when each return from the tools and each rework happens with a
`current_domain` of the current task's lane.
-/

import CognitiveEngine.Graph.Runs

namespace CognitiveEngine
namespace Graph

open Machine

namespace AgentState

/-- The current task: the first record with the current id. -/
def currentTask (s : AgentState) : Option Task :=
  match s.currentTaskId with
  | some id => s.tasks.find? fun t => t.id = id
  | none => none

/-- `current_domain` is of the lane the current task names, if it names one. -/
def DomainAgrees (s : AgentState) : Prop :=
  ∀ t ∈ s.currentTask, t.targetAgent ∈ laneNames → laneOf s.domain = laneOf t.targetAgent

instance (s : AgentState) : Decidable s.DomainAgrees := by unfold DomainAgrees; infer_instance

end AgentState

/-- The executor about to run, if one is, is the one the current task names, if it
names one. -/
def LaneKept (c : Config) : Prop :=
  ∀ l ∈ c.lane?, ∀ t ∈ c.state.currentTask, t.targetAgent ∈ laneNames → l.name = t.targetAgent

/-- The lane of the executor a run has entered last. -/
def lastLane (h : List Config) : Option Lane := (h.find? Config.atExecutor).bind Config.lane?

/-- Lane fidelity of the latest superstep: the executor entered is the current
task's, and when it is entered from the tools node it is the one that issued the
calls. -/
def LaneFaithful : List Config → Prop
  | c' :: c :: h =>
      LaneKept c' ∧ (c.next = some .tools → c'.atExecutor → c'.lane? = lastLane h)
  | [c] => LaneKept c
  | [] => True

/-! ### The first dispatch of a task -/

/-- A task that names a lane is found by the manager's search if it is the first
with its id. -/
theorem managerLane_of_find {s : AgentState} {id : ℤ} {t : Task}
    (ht : s.tasks.find? (fun t => t.id = id) = some t) (hl : t.targetAgent ∈ laneNames) :
    managerLane s id = laneOf t.targetAgent := by
  obtain ⟨hid, before, after, htasks, hbefore⟩ := List.find?_eq_some_iff_append.1 ht
  have hfind : s.tasks.find? (fun t => t.id = id ∧ t.targetAgent ∈ laneNames) = some t := by
    refine List.find?_eq_some_iff_append.2 ⟨?_, before, after, htasks, ?_⟩
    · rw [decide_eq_true_eq] at hid ⊢
      exact ⟨hid, hl⟩
    · intro a ha
      have hne := hbefore a ha
      simp only [Bool.not_eq_true', decide_eq_false_iff_not] at hne ⊢
      exact fun h => hne h.1
  simp only [managerLane, hfind]

/-- **The planner and `direct_executor_init` enter the first task's executor.** -/
theorem laneKept_startTasks (s : AgentState) (tasks : List Task) :
    LaneKept ⟨some (.executor (firstLane (s.startTasks tasks))), s.startTasks tasks⟩ := by
  intro l hl t ht hlane
  obtain rfl := Option.some.inj hl
  cases tasks with
  | nil => cases ht
  | cons t₀ rest =>
      have ht₀ : (s.startTasks (t₀ :: rest)).currentTask = some t₀ := by
        simp [AgentState.currentTask, AgentState.startTasks]
      obtain rfl := Option.some.inj (ht₀.symm.trans ht)
      exact name_laneOf hlane

/-- **`task_manager` enters the next task's executor.** -/
theorem laneKept_advanced (s : AgentState) (result : String) (next : Task) :
    LaneKept ⟨some (.executor (managerLane (s.advanced result next) next.id)),
      s.advanced result next⟩ := by
  intro l hl t ht hlane
  obtain rfl := Option.some.inj hl
  rw [managerLane_of_find ht hlane]
  exact name_laneOf hlane

/-! ### Returns and reworks -/

/-- A return to the executor of `current_domain` is to the task's executor exactly
when the two agree. -/
theorem laneKept_return_iff (s : AgentState) :
    LaneKept ⟨some (.executor (laneOf s.domain)), s⟩ ↔ s.DomainAgrees := by
  constructor
  · intro hk t ht hlane
    have hname : (laneOf s.domain).name = t.targetAgent := hk _ rfl t ht hlane
    rw [← hname, laneOf_name]
  · intro ha l hl t ht hlane
    obtain rfl := Option.some.inj hl
    rw [ha t ht hlane]
    exact name_laneOf hlane

/-- A node that is not an executor enters none. -/
theorem laneKept_of_not_executor {c : Config} (hc : c.atExecutor = false) : LaneKept c := by
  intro l hl
  rw [Config.atExecutor, Option.mem_def.1 hl] at hc
  exact absurd hc.symm Bool.false_ne_true

/-! ### Tasks that name no lane -/

/-- The tasks of a turn: every one names a lane, or there is the synthetic task
alone, which has `current_domain` for its target. -/
def TaskLanes (c : Config) : Prop :=
  (∀ t ∈ c.state.tasks, t.targetAgent ∈ laneNames) ∨
    c.next ≠ some .supervisorRouter ∧ ∃ t, c.state.tasks = [t] ∧
      t.targetAgent = c.state.domain ∧
        ∀ n, c.next = some n → n.working → c.state.currentTaskId = some t.id

/-- Completing tasks changes neither their ids nor their targets. -/
theorem exists_of_mem_completeCurrent {s : AgentState} {result : String} {t : Task}
    (ht : t ∈ completeCurrent s result) :
    ∃ t₀ ∈ s.tasks, t.id = t₀.id ∧ t.targetAgent = t₀.targetAgent := by
  obtain ⟨t₀, ht₀, rfl⟩ := List.mem_map.1 ht
  refine ⟨t₀, ht₀, ?_⟩
  split_ifs <;> exact ⟨rfl, rfl⟩

/-- The synthetic task is the last one. -/
theorem nextTask_completeCurrent_single {s : AgentState} {t : Task} (ht : s.tasks = [t])
    (hid : s.currentTaskId = some t.id) (result : String) :
    nextTask (completeCurrent s result) = none := by
  simp [nextTask, completeCurrent, ht, hid, Task.complete]

theorem taskLanes_startTurn (thread : AgentState) (request : ChatRequest) :
    TaskLanes (startTurn thread request) :=
  .inl fun _ ht => absurd ht List.not_mem_nil

theorem taskLanes_synthetic (s : AgentState) (desc : String) (n : Node)
    (hn : n ≠ .supervisorRouter) :
    TaskLanes ⟨some n, s.startTasks [syntheticTask desc s.domain]⟩ :=
  .inr ⟨fun h => hn (Option.some.inj h), _, rfl, rfl, fun _ _ _ => rfl⟩

theorem TaskLanes.transition {rt : Runtime} {c c' : Config} (hc : TaskLanes c)
    (h : Transition rt c c') : TaskLanes c' := by
  cases h with
  | supervise s =>
      rcases hc with hc | ⟨hne, _⟩
      · exact .inl hc
      · exact absurd rfl hne
  | plan s plan =>
      cases plan with
      | none => exact taskLanes_synthetic s _ _ (by simp)
      | some plan =>
          refine .inl fun t ht => ?_
          obtain ⟨item, _, rfl⟩ := List.mem_map.1 ht
          exact item.targetAgent.name_mem_laneNames
  | initDirect s => exact taskLanes_synthetic s _ _ (by simp)
  | dispatch | conclude | track | callTools | extract | criticize | rework | exhaust | accept =>
      rcases hc with hc | ⟨_, t, ht, hd, hid⟩
      · exact .inl hc
      · exact .inr ⟨by simp, t, ht, hd, fun _ _ _ => hid _ rfl rfl⟩
  | dismiss s ht =>
      refine .inl fun t ht' => ?_
      have hnil : s.dismissed.tasks = [] := ht
      rw [hnil] at ht'
      exact absurd ht' List.not_mem_nil
  | advance s ht result hr next hn =>
      rcases hc with hc | ⟨_, t, ht', _, hid⟩
      · refine .inl fun t ht' => ?_
        obtain ⟨t₀, ht₀, _, heq⟩ := exists_of_mem_completeCurrent ht'
        exact heq ▸ hc t₀ ht₀
      · rw [nextTask_completeCurrent_single ht' (hid _ rfl rfl)] at hn
        cases hn
  | finish s ht result hr hn =>
      rcases hc with hc | ⟨_, t, ht', hd, hid⟩
      · refine .inl fun t ht' => ?_
        obtain ⟨t₀, ht₀, _, heq⟩ := exists_of_mem_completeCurrent ht'
        exact heq ▸ hc t₀ ht₀
      · refine .inr ⟨by simp, t.complete result s.extractedFindings, ?_, hd, ?_⟩
        · have hid' : s.currentTaskId = some t.id := hid _ rfl rfl
          have ht'' : s.tasks = [t] := ht'
          simp [AgentState.finished, completeCurrent, ht'', hid']
        · intro n hn hw
          obtain rfl := Option.some.inj hn
          cases hw
  | synthesize s content calls =>
      rcases hc with hc | ⟨_, t, ht, hd, _⟩
      · exact .inl hc
      · exact .inr ⟨by simp, t, ht, hd, fun n hn => by cases hn⟩

theorem taskLanes_of_history {rt : Runtime} {h : List Config} (hh : ThreadHistory rt h) :
    ∀ c ∈ h, TaskLanes c := by
  refine hh.forall_mem ?_ ?_
  · rintro _ ⟨request, rfl⟩
    exact taskLanes_startTurn _ _
  · rintro c c' hc (hs | request)
    · exact hc.transition hs.transition
    · exact taskLanes_startTurn _ _

/-- **While the current task names no lane, the executors entered are those of
`current_domain`.** -/
theorem Transition.unnamed {rt : Runtime} {c c' : Config} (hc : TaskLanes c)
    (h : Transition rt c c') {l : Lane} (hl : c'.lane? = some l)
    (hno : ∀ t, c'.state.currentTask = some t → t.targetAgent ∉ laneNames) :
    l = laneOf c'.state.domain := by
  cases h with
  | plan s plan =>
      obtain rfl := Option.some.inj hl
      cases plan with
      | none => rfl
      | some plan =>
          obtain ⟨tasks⟩ := plan
          cases tasks with
          | nil => rfl
          | cons item rest =>
              have hcur : (s.startTasks (planTasks s (some ⟨item :: rest⟩))).currentTask =
                  some item.toTask := by
                simp [AgentState.currentTask, AgentState.startTasks, planTasks]
              exact absurd item.targetAgent.name_mem_laneNames (hno _ hcur)
  | initDirect s => exact (Option.some.inj hl).symm
  | callTools s content calls hlast result => exact (Option.some.inj hl).symm
  | rework s payload hp advice hr => exact (Option.some.inj hl).symm
  | advance s ht result hr next hn =>
      rcases hc with hc | ⟨_, t, ht', _, hid⟩
      · -- every task names a lane, and the current one is among them
        have hnext := List.mem_of_find?_eq_some hn
        obtain ⟨t, hcur⟩ : ∃ t, (s.advanced result next).currentTask = some t := by
          refine Option.isSome_iff_exists.1 ?_
          show ((completeCurrent s result).find? fun t => t.id = next.id).isSome
          exact List.find?_isSome.2 ⟨next, hnext, by simp⟩
        have hmem : t ∈ completeCurrent s result := List.mem_of_find?_eq_some hcur
        obtain ⟨t₀, ht₀, _, heq⟩ := exists_of_mem_completeCurrent hmem
        exact absurd (heq ▸ hc t₀ ht₀) (hno t hcur)
      · rw [nextTask_completeCurrent_single ht' (hid _ rfl rfl)] at hn
        cases hn
  | supervise => split_ifs at hl <;> cases hl
  | dispatch | conclude | track | extract | criticize | exhaust | accept | dismiss | finish
  | synthesize => cases hl

theorem unnamed_of_history {rt : Runtime} {c : Config} {h : List Config}
    (hh : ThreadHistory rt (c :: h)) {l : Lane} (hl : c.lane? = some l)
    (hno : ∀ t, c.state.currentTask = some t → t.targetAgent ∉ laneNames) :
    l = laneOf c.state.domain := by
  obtain ⟨c₀, h₀, rfl, hh₀, hs⟩ := hh.exists_step fun hsup => by
    rw [Config.lane?, hsup] at hl
    cases hl
  exact hs.unnamed (taskLanes_of_history hh₀ _ List.mem_cons_self) hl hno

/-! ### Lane fidelity -/

/-- The tools node is two supersteps after the executor that issued the calls, and
the tasks, the current id and `current_domain` are those the executor had. -/
theorem exists_issuer {rt : Runtime} {s : AgentState} {h : List Config}
    (hh : ThreadHistory rt (⟨some .tools, s⟩ :: h)) :
    ∃ l s₁ c₀ h₁, h = c₀ :: ⟨some (.executor l), s₁⟩ :: h₁ ∧ lastLane h = some l ∧
      s₁.currentTask = s.currentTask ∧ s₁.domain = s.domain := by
  obtain ⟨c₀, h₀, rfl, hh₀, hs⟩ := hh.exists_step (by simp)
  obtain ⟨s₀, last, _, rfl, rfl⟩ := hs.of_tools
  obtain ⟨c₁, h₁, rfl, _, hs⟩ := hh₀.exists_step (by simp)
  obtain ⟨l, s₁, content, calls, _, rfl, rfl⟩ := hs.of_actionTracker
  exact ⟨l, s₁, _, h₁, rfl, rfl, rfl, rfl⟩

/-- **Tool results go back to the executor that asked**, as long as the lanes were
kept before and the return is to the current task's lane. -/
theorem lastLane_of_agrees {rt : Runtime} {s : AgentState} {h : List Config}
    (hh : ThreadHistory rt (⟨some .tools, s⟩ :: h))
    (hkept : Throughout LaneFaithful (⟨some .tools, s⟩ :: h)) (ha : s.DomainAgrees) :
    some (laneOf s.domain) = lastLane h := by
  obtain ⟨l, s₁, c₀, h₁, rfl, hlast, hcur, hdom⟩ := exists_issuer hh
  have hh₁ : ThreadHistory rt (⟨some (.executor l), s₁⟩ :: h₁) :=
    hh.of_suffix ((List.suffix_cons _ _).trans (List.suffix_cons _ _)) (by simp)
  have hk : LaneKept ⟨some (.executor l), s₁⟩ := by
    have hf : LaneFaithful (⟨some (.executor l), s₁⟩ :: h₁) :=
      hkept _ _ ((List.suffix_cons _ _).trans (List.suffix_cons _ _))
    cases h₁ with
    | nil => exact hf
    | cons c h₁ => exact hf.1
  rw [hlast, Option.some_inj]
  by_cases hnamed : ∃ t, s.currentTask = some t ∧ t.targetAgent ∈ laneNames
  · obtain ⟨t, ht, hlane⟩ := hnamed
    have hname : l.name = t.targetAgent := hk l rfl t (hcur.trans ht) hlane
    rw [ha t ht hlane, ← hname, laneOf_name]
  · rw [← hdom]
    refine (unnamed_of_history hh₁ rfl fun t ht hlane => hnamed ⟨t, ?_, hlane⟩).symm
    rw [← hcur]
    exact ht

/-- The supersteps whose router reads `current_domain` for an executor to enter. -/
def ReturnAgrees (c c' : Config) : Prop :=
  (c.next = some .tools ∨ c.next = some .reflectionAgent) → c'.atExecutor → c.state.DomainAgrees

instance : DecidableRel ReturnAgrees := fun c c' => by unfold ReturnAgrees; infer_instance

/-- **Lane fidelity holds exactly while `current_domain` is of the task's lane.**
In every run of a thread, each executor is entered for a task of its own lane and
each tool result goes back to the executor that asked, at every state reached, if
and only if every return from the tools and every rework finds `current_domain` of
the lane the current task names. -/
theorem lanes_kept_iff {rt : Runtime} {h : List Config} (hh : ThreadHistory rt h) :
    Throughout LaneFaithful h ↔ ∀ p ∈ steps h, ReturnAgrees p.1 p.2 := by
  refine hh.throughout_iff_steps ?_ ?_
  · rintro c ⟨request, rfl⟩
    exact laneKept_of_not_executor rfl
  · rintro c c' h hc hR hkept
    have hquiet : c'.atExecutor = false → (LaneFaithful (c' :: c :: h) ↔ ReturnAgrees c c') := by
      intro hex
      have hne : ¬ c'.atExecutor = true := by rw [hex]; exact Bool.false_ne_true
      exact iff_of_true ⟨laneKept_of_not_executor hex, fun _ he => absurd he hne⟩
        fun _ he => absurd he hne
    cases hR with
    | turn request => exact hquiet rfl
    | step hs =>
        cases hs.transition with
        | supervise => exact hquiet (by split_ifs <;> rfl)
        | dispatch | conclude | track | extract | criticize | exhaust | accept | dismiss | finish
        | synthesize => exact hquiet rfl
        | plan s plan =>
            exact iff_of_true ⟨laneKept_startTasks s _, fun h => by cases h⟩
              fun h => by rcases h with h | h <;> cases h
        | initDirect s =>
            exact iff_of_true ⟨laneKept_startTasks s _, fun h => by cases h⟩
              fun h => by rcases h with h | h <;> cases h
        | advance s ht result hr next hn =>
            exact iff_of_true ⟨laneKept_advanced s result next, fun h => by cases h⟩
              fun h => by rcases h with h | h <;> cases h
        | rework s payload hp advice hr =>
            have hiff := laneKept_return_iff (s.reflected true advice)
            exact ⟨fun hf _ _ => hiff.1 hf.1, fun ha => ⟨hiff.2 (ha (.inr rfl) rfl),
              fun h => by cases h⟩⟩
        | callTools s content calls hlast result =>
            have hiff := laneKept_return_iff (s.toolsAnswered calls result)
            refine ⟨fun hf _ _ => hiff.1 hf.1, fun ha => ?_⟩
            have hagrees : s.DomainAgrees := ha (.inl rfl) rfl
            exact ⟨hiff.2 hagrees, fun _ _ => lastLane_of_agrees hc hkept hagrees⟩

/-- A run of a planned turn up to the return from the tools: the supervisor names
`domain`, the plan has one task for the research lane, whose executor searches. -/
def searchRun (domain : String) : List Config :=
  replayTurn .plain ⟨"alice", "s1", "Summarise the paper."⟩
    [.routing ⟨domain, "high", ["research_papers"], "Summarise"⟩,
      .planning (some ⟨[⟨1, "Read the paper.", .researchPapers⟩]⟩),
      .saying "" [⟨"search_web", [("query", .str "paper")], "1"⟩], .silent, .silent]

/-- With the domain of the task, the results go back to the research lane. -/
theorem lanes_kept_same_domain : Throughout LaneFaithful (searchRun "research_papers") :=
  (lanes_kept_iff (threadHistory_replayTurn _ _ _)).2 (by decide)

/-- **A research task's tool results go to the general executor**, when the
supervisor named the general domain for the turn. -/
theorem lane_lost_after_tools : ¬ ∀ rt h, ThreadHistory rt h → Throughout LaneFaithful h := by
  intro hall
  have hkept := hall .plain (searchRun "general_memory") (threadHistory_replayTurn _ _ _)
  have hlane : LaneKept _ := (hkept _ _ List.suffix_rfl).1
  exact absurd (hlane .generalMemory rfl _ rfl (by decide)) (by decide)

end Graph
end CognitiveEngine
