/-
# What a superstep can do

`Transition` lists the edges of the workflow graph with the state each leaves
behind, one constructor for every way a node can hand over.  `step_iff` says
these are exactly the supersteps of the graph: whatever the outside world
answers, `step` takes one of them, and every one of them is taken for some
answers.  Every invariant of the graph is a case analysis over `Transition`; no
later proof unfolds a node.

The lane a router picks is `laneOf` of a string; that the label is then found in
the edge map is `lookup_laneOrGeneral`.
-/

import CognitiveEngine.Graph.Workflow
import CognitiveEngine.Machine.Fallible

namespace CognitiveEngine
namespace Graph

/-! ### Lanes and labels -/

/-- The lane a domain string is routed to. -/
def laneOf (d : String) : Lane :=
  if d = "research_papers" then .researchPapers
  else if d = "vision_detection" then .visionDetection
  else .generalMemory

@[simp] theorem laneOf_name (l : Lane) : laneOf l.name = l := by
  cases l <;> decide

theorem name_laneOf {d : String} (h : d ∈ laneNames) : (laneOf d).name = d := by
  obtain ⟨l, rfl⟩ := exists_lane_of_mem_laneNames h
  rw [laneOf_name]

theorem laneOf_of_not_mem {d : String} (h : d ∉ laneNames) : laneOf d = .generalMemory := by
  simp only [laneNames, List.mem_cons, List.not_mem_nil, or_false, not_or] at h
  simp [laneOf, h.2.1, h.2.2]

/-- What a router returns for a domain is the name of its lane. -/
theorem laneOrGeneral_eq (d : String) : laneOrGeneral d = (laneOf d).name := by
  unfold laneOrGeneral
  split_ifs with h
  · exact (name_laneOf h).symm
  · rw [laneOf_of_not_mem h]
    rfl

/-- The lane map finds every lane under its name, whatever is appended to it. -/
theorem lookup_laneMap (l : Lane) (rest : List (String × Node)) :
    (laneMap ++ rest).lookup l.name = some (.executor l) := by
  cases l <;> rfl

theorem lookup_laneOrGeneral (d : String) (rest : List (String × Node)) :
    (laneMap ++ rest).lookup (laneOrGeneral d) = some (.executor (laneOf d)) := by
  rw [laneOrGeneral_eq, lookup_laneMap]

/-- The lane `route_from_planner` sends the run to. -/
def firstLane (s : AgentState) : Lane :=
  match s.tasks with
  | t :: _ => laneOf t.targetAgent
  | [] => laneOf s.domain

theorem routeFromPlanner_eq (s : AgentState) : routeFromPlanner s = (firstLane s).name := by
  unfold routeFromPlanner firstLane
  cases s.tasks <;> exact laneOrGeneral_eq _

/-- The lane `route_from_task_manager` sends the run to for the task `id`. -/
def managerLane (s : AgentState) (id : ℤ) : Lane :=
  match s.tasks.find? fun t => t.id = id ∧ t.targetAgent ∈ laneNames with
  | some t => laneOf t.targetAgent
  | none => laneOf s.domain

theorem routeFromTaskManager_eq {s : AgentState} {id : ℤ} (h : s.currentTaskId = some id) :
    routeFromTaskManager s = (managerLane s id).name := by
  simp only [routeFromTaskManager, managerLane, h]
  cases hf : s.tasks.find? fun t => t.id = id ∧ t.targetAgent ∈ laneNames with
  | none => exact laneOrGeneral_eq _
  | some t =>
      have ht := List.find?_some hf
      rw [decide_eq_true_eq] at ht
      exact (name_laneOf ht.2).symm

/-- The executor's last message is handed to the tools: it has tool calls, none
of the three safeguards trips. -/
def Dispatches (rt : Runtime) (s : AgentState) (calls : List ToolCall) : Prop :=
  calls ≠ [] ∧ s.iterationCount < maxIterations ∧ s.toolCallCount < maxToolCalls ∧
    ∀ tc ∈ calls, tc.hash rt ∉ s.actionHistory

instance (rt : Runtime) (s : AgentState) (calls : List ToolCall) :
    Decidable (Dispatches rt s calls) := by
  unfold Dispatches; infer_instance

theorem toolHooks_eq (rt : Runtime) (s : AgentState) (last : Message) :
    toolHooks rt s last =
      if Dispatches rt s last.toolCalls then "execute_tools" else "finding_extractor" := by
  unfold toolHooks Dispatches
  by_cases h₁ : last.toolCalls = []
  · simp [h₁]
  · by_cases h₂ : maxIterations ≤ s.iterationCount
    · simp [h₁, h₂, Nat.not_lt.2 h₂]
    · by_cases h₃ : maxToolCalls ≤ s.toolCallCount
      · simp [h₁, h₂, h₃, Nat.not_lt.2 h₃]
      · have hany : (last.toolCalls.any fun tc => tc.hash rt ∈ s.actionHistory) = true ↔
            ¬ ∀ tc ∈ last.toolCalls, tc.hash rt ∉ s.actionHistory := by
          simp
        simp only [h₁, h₂, h₃, hany, Nat.not_le.1 h₂, Nat.not_le.1 h₃, if_false, ne_eq,
          not_false_eq_true, true_and]
        split_ifs <;> rfl

/-! ### The states the nodes leave behind -/

namespace AgentState

/-- After `node_supervisor_router`. -/
def routed (s : AgentState) (domain complexity : String) (agents : List String) : AgentState :=
  { s with
    currentDomain := some domain
    complexity := some complexity
    requiredAgents := some agents }

/-- After `node_planner_agent` or `node_direct_executor_init` set up the tasks. -/
def startTasks (s : AgentState) (tasks : List Task) : AgentState :=
  { s with
    tasks := tasks
    currentTaskId := tasks.head?.map Task.id
    iterationCount := 0
    toolCallCount := 0
    actionHistory := []
    reworkCount := 0 }

/-- After an executor appended its answer. -/
def answered (s : AgentState) (m : Message) : AgentState :=
  { s with
    messages := s.messages.append m
    iterationCount := s.iterationCount + 1 }

/-- After `action_tracker_node` recorded the calls. -/
def tracked (rt : Runtime) (s : AgentState) (calls : List ToolCall) : AgentState :=
  { s with
    actionHistory := s.actionHistory ++ calls.map (ToolCall.hash rt)
    toolCallCount := s.toolCallCount + calls.length }

/-- After the tools node answered the calls. -/
def toolsAnswered (s : AgentState) (calls : List ToolCall) (result : ToolCall → String) :
    AgentState :=
  { s with
    messages := s.messages.addMessages
      (calls.map fun tc => .append (.tool (result tc) tc.id)) }

/-- After `node_finding_extractor`. -/
def extracted (s : AgentState) (summary : String) (findings : List Finding) : AgentState :=
  { s with
    rawExecutorOutput := some summary
    extractedFindings := findings }

/-- After `node_critic_agent`. -/
def criticized (s : AgentState) (feedback : String) : AgentState :=
  { s with criticFeedback := some feedback }

/-- After `node_reflection_agent`. -/
def reflected (s : AgentState) (verdict : Bool) (advice : String) : AgentState :=
  { s with
    reflectionNotes := some advice
    needsRework := some verdict
    reworkCount := if verdict then s.reworkCount + 1 else s.reworkCount }

/-- After `node_task_manager` completed the current task and went on to `next`. -/
def advanced (s : AgentState) (result : String) (next : Task) : AgentState :=
  { s with
    tasks := completeCurrent s result
    currentTaskId := some next.id
    iterationCount := 0
    toolCallCount := 0
    reworkCount := 0
    rawExecutorOutput := none
    extractedFindings := []
    messages := s.messages.addMessages (s.messages.entries.tail.map fun e => .remove e.id) }

/-- After `node_task_manager` completed the last task. -/
def finished (s : AgentState) (result : String) : AgentState :=
  { s with
    tasks := completeCurrent s result
    currentTaskId := none }

/-- After `node_task_manager` on an empty registry. -/
def dismissed (s : AgentState) : AgentState := { s with currentTaskId := none }

/-- After `node_final_synthesizer`. -/
def synthesized (s : AgentState) (m : Message) : AgentState :=
  { s with messages := s.messages.append m }

@[simp] theorem messages_answered (s : AgentState) (m : Message) :
    (s.answered m).messages.messages = s.messages.messages ++ [m] :=
  s.messages.messages_append m

@[simp] theorem last?_answered (s : AgentState) (m : Message) :
    (s.answered m).messages.last? = some m :=
  s.messages.last?_append m

/-- The tools node appends one tool message per call, in order. -/
theorem messages_toolsAnswered (s : AgentState) (calls : List ToolCall)
    (result : ToolCall → String) :
    (s.toolsAnswered calls result).messages.messages =
      s.messages.messages ++ calls.map fun tc => .tool (result tc) tc.id := by
  rw [toolsAnswered, ← MessageLog.messages_addMessages_append, List.map_map]
  rfl

/-- The next task starts with the first message alone. -/
theorem messages_advanced (s : AgentState) (result : String) (next : Task) :
    (s.advanced result next).messages.messages = s.messages.messages.take 1 :=
  s.messages.messages_addMessages_remove_tail

end AgentState

/-! ### The transitions -/

/-- The tasks the direct path sets up. -/
def directTasks (s : AgentState) : List Task := [syntheticTask s.userInitialPrompt s.domain]

/-- The supersteps of the graph, one constructor for each way a node hands over. -/
inductive Transition (rt : Runtime) : Config → Config → Prop
  | supervise (s : AgentState) (domain complexity : String) (agents : List String)
      (last : Message) (hlast : s.messages.last? = some last) :
      Transition rt ⟨some .supervisorRouter, s⟩
        ⟨some (if complexity = "low" then .directExecutorInit else .planner),
          s.routed domain complexity agents⟩
  | plan (s : AgentState) (plan : Option PlannerOutput) :
      Transition rt ⟨some .planner, s⟩
        ⟨some (.executor (firstLane (s.startTasks (planTasks s plan)))),
          s.startTasks (planTasks s plan)⟩
  | initDirect (s : AgentState) :
      Transition rt ⟨some .directExecutorInit, s⟩
        ⟨some (.executor (firstLane (s.startTasks (directTasks s)))),
          s.startTasks (directTasks s)⟩
  | dispatch (l : Lane) (s : AgentState) (content : String) (calls : List ToolCall)
      (hd : Dispatches rt (s.answered (.ai content calls)) calls) :
      Transition rt ⟨some (.executor l), s⟩
        ⟨some .actionTracker, s.answered (.ai content calls)⟩
  | conclude (l : Lane) (s : AgentState) (content : String) (calls : List ToolCall)
      (hd : ¬ Dispatches rt (s.answered (.ai content calls)) calls) :
      Transition rt ⟨some (.executor l), s⟩
        ⟨some .findingExtractor, s.answered (.ai content calls)⟩
  | track (s : AgentState) (last : Message) (hlast : s.messages.last? = some last) :
      Transition rt ⟨some .actionTracker, s⟩ ⟨some .tools, s.tracked rt last.toolCalls⟩
  | callTools (s : AgentState) (content : String) (calls : List ToolCall)
      (hlast : s.messages.last? = some (.ai content calls)) (result : ToolCall → String) :
      Transition rt ⟨some .tools, s⟩
        ⟨some (.executor (laneOf s.domain)), s.toolsAnswered calls result⟩
  | extract (s : AgentState) (last : Message) (hlast : s.messages.last? = some last)
      (summary : String) (findings : List Finding) :
      Transition rt ⟨some .findingExtractor, s⟩
        ⟨some .criticAgent, s.extracted summary findings⟩
  | criticize (s : AgentState) (payload : String) (hp : rawOrLast s = .ok payload)
      (feedback : String) :
      Transition rt ⟨some .criticAgent, s⟩ ⟨some .reflectionAgent, s.criticized feedback⟩
  | rework (s : AgentState) (payload : String) (hp : rawOrLast s = .ok payload)
      (advice : String) (hr : s.reworkCount + 1 < maxReworkCycles) :
      Transition rt ⟨some .reflectionAgent, s⟩
        ⟨some (.executor (laneOf s.domain)), s.reflected true advice⟩
  | exhaust (s : AgentState) (payload : String) (hp : rawOrLast s = .ok payload)
      (advice : String) (hr : maxReworkCycles ≤ s.reworkCount + 1) :
      Transition rt ⟨some .reflectionAgent, s⟩ ⟨some .taskManager, s.reflected true advice⟩
  | accept (s : AgentState) (payload : String) (hp : rawOrLast s = .ok payload)
      (advice : String) :
      Transition rt ⟨some .reflectionAgent, s⟩ ⟨some .taskManager, s.reflected false advice⟩
  | dismiss (s : AgentState) (ht : s.tasks = []) :
      Transition rt ⟨some .taskManager, s⟩ ⟨some .finalSynthesizer, s.dismissed⟩
  | advance (s : AgentState) (ht : s.tasks ≠ []) (result : String)
      (hr : rawOrLast s = .ok result) (next : Task)
      (hn : nextTask (completeCurrent s result) = some next) :
      Transition rt ⟨some .taskManager, s⟩
        ⟨some (.executor (managerLane (s.advanced result next) next.id)), s.advanced result next⟩
  | finish (s : AgentState) (ht : s.tasks ≠ []) (result : String)
      (hr : rawOrLast s = .ok result) (hn : nextTask (completeCurrent s result) = none) :
      Transition rt ⟨some .taskManager, s⟩ ⟨some .finalSynthesizer, s.finished result⟩
  | synthesize (s : AgentState) (content : String) (calls : List ToolCall) :
      Transition rt ⟨some .finalSynthesizer, s⟩ ⟨none, s.synthesized (.ai content calls)⟩

/-! ### Supersteps are transitions -/

/-- A superstep runs the node, applies its update and follows its edge. -/
theorem step_eq_ok_iff {rt : Runtime} {env : Env} {n : Node} {s : AgentState} {c' : Config} :
    step rt env ⟨some n, s⟩ = .ok c' ↔
      ∃ u, runNode rt env n s = .ok u ∧
        ∃ next, (edge rt n).follow (s.merge u) = .ok next ∧ c' = ⟨next, s.merge u⟩ := by
  simp only [step, Machine.bind_eq_ok_iff]
  constructor
  · rintro ⟨u, hu, next, hnext, hc⟩
    exact ⟨u, hu, next, hnext, (Except.ok.inj hc).symm⟩
  · rintro ⟨u, hu, next, hnext, rfl⟩
    exact ⟨u, hu, next, hnext, rfl⟩

theorem lastMessage_eq_ok_iff {s : AgentState} {m : Message} :
    lastMessage s = .ok m ↔ s.messages.last? = some m := by
  unfold lastMessage
  cases s.messages.last? <;> simp

/-- A conditional edge whose router returns a label of its map. -/
theorem follow_conditional {router : AgentState → Except PyError String}
    {edgeMap : List (String × Node)} {s : AgentState} {n : Node} (label : String)
    (hr : router s = .ok label) (hn : edgeMap.lookup label = some n) :
    (Edge.conditional router edgeMap).follow s = .ok (some n) := by
  simp only [Edge.follow, hr, hn, Machine.ok_bind]
  rfl

theorem follow_laneMap {router : AgentState → Except PyError String} {s : AgentState} {l : Lane}
    (hr : router s = .ok l.name) (rest : List (String × Node)) :
    (Edge.conditional router (laneMap ++ rest)).follow s = .ok (some (.executor l)) :=
  follow_conditional l.name hr (lookup_laneMap l rest)

/-- The node every lane's executor hands over to. -/
theorem follow_executor {rt : Runtime} {l : Lane} {s : AgentState} {m : Message}
    (hm : s.messages.last? = some m) :
    (edge rt (.executor l)).follow s =
      .ok (some (if Dispatches rt s m.toolCalls then .actionTracker else .findingExtractor)) := by
  refine follow_conditional (toolHooks rt s m) ?_ ?_
  · rw [evaluateToolHooks, lastMessage_eq_ok_iff.2 hm]
    rfl
  · rw [toolHooks_eq]
    split_ifs <;> rfl

section Inversion

variable {rt : Runtime} {env : Env} {s : AgentState} {c' : Config}

theorem transition_supervisorRouter (h : step rt env ⟨some .supervisorRouter, s⟩ = .ok c') :
    Transition rt ⟨some .supervisorRouter, s⟩ c' := by
  obtain ⟨u, hu, nx, hnx, rfl⟩ := step_eq_ok_iff.1 h
  obtain ⟨last, hlast, hu⟩ := Machine.bind_eq_ok_iff.1 hu
  rw [lastMessage_eq_ok_iff] at hlast
  obtain rfl := Except.ok.inj hu
  generalize (env.router _ _).output = decision at hnx ⊢
  have hnx' : nx = some (if (s.merge (supervisorUpdate decision)).complexity.getD "medium" = "low"
      then .directExecutorInit else .planner) := by
    refine Except.ok.inj (hnx.symm.trans (follow_conditional _ rfl ?_))
    unfold routeFromSupervisor
    split_ifs <;> rfl
  rw [hnx']
  cases decision with
  | some d => exact .supervise s d.targetAgent d.complexity d.requiredAgents last hlast
  | none => exact .supervise s "general_memory" "low" [] last hlast

theorem transition_planner (h : step rt env ⟨some .planner, s⟩ = .ok c') :
    Transition rt ⟨some .planner, s⟩ c' := by
  obtain ⟨u, hu, nx, hnx, rfl⟩ := step_eq_ok_iff.1 h
  obtain rfl := Except.ok.inj hu
  obtain rfl := Except.ok.inj (hnx.symm.trans
    (follow_laneMap (congrArg Except.ok (routeFromPlanner_eq _)) []))
  exact .plan s _

theorem transition_directExecutorInit (h : step rt env ⟨some .directExecutorInit, s⟩ = .ok c') :
    Transition rt ⟨some .directExecutorInit, s⟩ c' := by
  obtain ⟨u, hu, nx, hnx, rfl⟩ := step_eq_ok_iff.1 h
  obtain rfl := Except.ok.inj hu
  obtain rfl := Except.ok.inj (hnx.symm.trans
    (follow_laneMap (congrArg Except.ok (routeFromPlanner_eq _)) []))
  exact .initDirect s

theorem transition_executor {l : Lane} (h : step rt env ⟨some (.executor l), s⟩ = .ok c') :
    Transition rt ⟨some (.executor l), s⟩ c' := by
  obtain ⟨u, hu, nx, hnx, rfl⟩ := step_eq_ok_iff.1 h
  obtain ⟨r, rfl⟩ : ∃ r : ChatReply, u = executorUpdate s r := by
    cases l <;> exact ⟨_, (Except.ok.inj hu).symm⟩
  have hs : s.merge (executorUpdate s r) = s.answered r.message := rfl
  rw [hs] at hnx ⊢
  have hm : (s.answered r.message).messages.last? = some r.message := by
    simp [AgentState.answered]
  obtain rfl := Except.ok.inj (hnx.symm.trans (follow_executor hm))
  split_ifs with hd
  · exact .dispatch l s r.content r.toolCalls hd
  · exact .conclude l s r.content r.toolCalls hd

theorem transition_actionTracker (h : step rt env ⟨some .actionTracker, s⟩ = .ok c') :
    Transition rt ⟨some .actionTracker, s⟩ c' := by
  obtain ⟨u, hu, nx, hnx, rfl⟩ := step_eq_ok_iff.1 h
  obtain ⟨last, hlast, hu⟩ := Machine.bind_eq_ok_iff.1 hu
  obtain rfl := Except.ok.inj hu
  obtain rfl := Except.ok.inj hnx
  exact .track s last (lastMessage_eq_ok_iff.1 hlast)

theorem transition_tools (h : step rt env ⟨some .tools, s⟩ = .ok c') :
    Transition rt ⟨some .tools, s⟩ c' := by
  obtain ⟨u, hu, nx, hnx, rfl⟩ := step_eq_ok_iff.1 h
  obtain ⟨last, hlast, hu⟩ := Machine.bind_eq_ok_iff.1 hu
  rw [lastMessage_eq_ok_iff] at hlast
  split at hu
  · obtain rfl := Except.ok.inj hu
    obtain rfl := Except.ok.inj (hnx.symm.trans
      (follow_laneMap (congrArg Except.ok (laneOrGeneral_eq _)) []))
    exact .callTools s _ _ hlast env.callTool
  · cases hu

theorem transition_findingExtractor (h : step rt env ⟨some .findingExtractor, s⟩ = .ok c') :
    Transition rt ⟨some .findingExtractor, s⟩ c' := by
  obtain ⟨u, hu, nx, hnx, rfl⟩ := step_eq_ok_iff.1 h
  obtain ⟨last, hlast, hu⟩ := Machine.bind_eq_ok_iff.1 hu
  rw [lastMessage_eq_ok_iff] at hlast
  obtain rfl := Except.ok.inj hu
  obtain rfl := Except.ok.inj hnx
  cases (env.extractor (getLlmInstance 1 (some env.config)) (extractionPrompt last.content)).output
    with
  | some e => exact .extract s last hlast e.resultSummary e.findings
  | none => exact .extract s last hlast last.content []

theorem transition_criticAgent (h : step rt env ⟨some .criticAgent, s⟩ = .ok c') :
    Transition rt ⟨some .criticAgent, s⟩ c' := by
  obtain ⟨u, hu, nx, hnx, rfl⟩ := step_eq_ok_iff.1 h
  obtain ⟨payload, hp, hu⟩ := Machine.bind_eq_ok_iff.1 hu
  obtain rfl := Except.ok.inj hu
  obtain rfl := Except.ok.inj hnx
  exact .criticize s payload hp _

/-- The rework counter decides on the verdict it has just counted. -/
theorem transition_reflectionAgent (h : step rt env ⟨some .reflectionAgent, s⟩ = .ok c') :
    Transition rt ⟨some .reflectionAgent, s⟩ c' := by
  obtain ⟨u, hu, nx, hnx, rfl⟩ := step_eq_ok_iff.1 h
  obtain ⟨payload, hp, hu⟩ := Machine.bind_eq_ok_iff.1 hu
  obtain rfl := Except.ok.inj hu
  generalize (env.reflection _ _).output.getD reflectionFallback = v at hnx ⊢
  obtain ⟨verdict, advice⟩ := v
  have hs : s.merge (reflectionUpdate s ⟨verdict, advice⟩) = s.reflected verdict advice := rfl
  rw [hs] at hnx ⊢
  cases verdict with
  | false =>
      obtain rfl := Except.ok.inj (hnx.symm.trans
        (follow_conditional "task_manager" rfl rfl))
      exact .accept s payload hp advice
  | true =>
      rcases Nat.lt_or_ge (s.reworkCount + 1) maxReworkCycles with hr | hr
      · have hroute : routeFromReflection (s.reflected true advice) = (laneOf s.domain).name := by
          rw [← laneOrGeneral_eq]
          simp [routeFromReflection, AgentState.reflected, Nat.not_le.2 hr, AgentState.domain]
        obtain rfl := Except.ok.inj (hnx.symm.trans
          (follow_laneMap (congrArg Except.ok hroute) _))
        exact .rework s payload hp advice hr
      · have hroute : routeFromReflection (s.reflected true advice) = "task_manager" := by
          simp [routeFromReflection, AgentState.reflected, hr]
        obtain rfl := Except.ok.inj (hnx.symm.trans
          (follow_conditional _ (congrArg Except.ok hroute) rfl))
        exact .exhaust s payload hp advice hr

theorem transition_taskManager (h : step rt env ⟨some .taskManager, s⟩ = .ok c') :
    Transition rt ⟨some .taskManager, s⟩ c' := by
  obtain ⟨u, hu, nx, hnx, rfl⟩ := step_eq_ok_iff.1 h
  simp only [runNode, nodeTaskManager] at hu
  split_ifs at hu with ht
  · obtain rfl := Except.ok.inj hu
    obtain rfl := Except.ok.inj (hnx.symm.trans
      (follow_conditional "final_synthesizer" rfl rfl))
    exact .dismiss s ht
  · obtain ⟨result, hr, hu⟩ := Machine.bind_eq_ok_iff.1 hu
    obtain rfl := Except.ok.inj hu
    unfold taskManagerUpdate at hnx ⊢
    cases hn : nextTask (completeCurrent s result) with
    | some next =>
        simp only [hn] at hnx ⊢
        obtain rfl := Except.ok.inj (hnx.symm.trans
          (follow_laneMap (congrArg Except.ok (routeFromTaskManager_eq rfl)) _))
        exact .advance s ht result hr next hn
    | none =>
        simp only [hn] at hnx ⊢
        obtain rfl := Except.ok.inj (hnx.symm.trans
          (follow_conditional "final_synthesizer" rfl rfl))
        exact .finish s ht result hr hn

theorem transition_finalSynthesizer (h : step rt env ⟨some .finalSynthesizer, s⟩ = .ok c') :
    Transition rt ⟨some .finalSynthesizer, s⟩ c' := by
  obtain ⟨u, hu, nx, hnx, rfl⟩ := step_eq_ok_iff.1 h
  obtain rfl := Except.ok.inj hu
  obtain rfl := Except.ok.inj hnx
  exact .synthesize s _ _

end Inversion

/-- **Whatever the outside world answers, a superstep is a transition.** -/
theorem Step.transition {rt : Runtime} {c c' : Config} (h : Step rt c c') :
    Transition rt c c' := by
  obtain ⟨hne, env, h⟩ := h
  obtain ⟨next, s⟩ := c
  cases next with
  | none => exact absurd rfl hne
  | some n =>
      cases n with
      | supervisorRouter => exact transition_supervisorRouter h
      | planner => exact transition_planner h
      | directExecutorInit => exact transition_directExecutorInit h
      | executor l => exact transition_executor h
      | actionTracker => exact transition_actionTracker h
      | tools => exact transition_tools h
      | findingExtractor => exact transition_findingExtractor h
      | criticAgent => exact transition_criticAgent h
      | reflectionAgent => exact transition_reflectionAgent h
      | taskManager => exact transition_taskManager h
      | finalSynthesizer => exact transition_finalSynthesizer h

/-! ### Transitions are supersteps -/

/-- An outside world that streams nothing, calls no tool and in which every
structured call raises. -/
def Env.silent : Env where
  config := ⟨none, none⟩
  chat := fun _ _ => ⟨[], []⟩
  router := fun _ _ => ⟨[], none⟩
  planner := fun _ _ => ⟨[], none⟩
  extractor := fun _ _ => ⟨[], none⟩
  critic := fun _ _ => ⟨[], none⟩
  reflection := fun _ _ => ⟨[], none⟩
  retrieve := fun _ _ _ => ""
  callTool := fun _ => ""

namespace Env

/-- The supervisor decides `decision`. -/
def routing (decision : SupervisorRouterOutput) : Env :=
  { silent with router := fun _ _ => ⟨[], some decision⟩ }

/-- The planner returns `plan`, or raises. -/
def planning (plan : Option PlannerOutput) : Env :=
  { silent with planner := fun _ _ => ⟨[], plan⟩ }

/-- Every chat model answers `content` with `calls`. -/
def saying (content : String) (calls : List ToolCall) : Env :=
  { silent with chat := fun _ _ => ⟨[content], calls⟩ }

/-- The tools answer `result`. -/
def answering (result : ToolCall → String) : Env := { silent with callTool := result }

/-- The extractor returns `summary` and `findings`. -/
def extracting (summary : String) (findings : List Finding) : Env :=
  { silent with extractor := fun _ _ => ⟨[], some ⟨summary, findings⟩⟩ }

/-- The critic says `feedback`. -/
def criticizing (feedback : String) : Env :=
  { silent with critic := fun _ _ => ⟨[], some ⟨feedback⟩⟩ }

/-- The reflection gives its verdict. -/
def reflecting (verdict : Bool) (advice : String) : Env :=
  { silent with reflection := fun _ _ => ⟨[], some ⟨verdict, advice⟩⟩ }

end Env

@[simp] theorem message_saying (content : String) (calls : List ToolCall) (m : ChatModel)
    (p : List Message) : ((Env.saying content calls).chat m p).message = .ai content calls := by
  simp [Env.saying, ChatReply.message, ChatReply.content]

theorem runNode_executor_saying (rt : Runtime) (l : Lane) (s : AgentState) (content : String)
    (calls : List ToolCall) :
    ∃ u, runNode rt (.saying content calls) (.executor l) s = .ok u ∧
      s.merge u = s.answered (.ai content calls) := by
  cases l <;>
    exact ⟨_, rfl, by simp [executorUpdate, AgentState.merge, AgentState.answered,
      MessageLog.addMessages, nodeGeneralAgent, nodeResearchPaperAgent,
      nodeVisionDetectionAgent, executorNode]⟩

/-- A superstep put together from the update of its node and its edge. -/
theorem Step.of_run {rt : Runtime} (env : Env) {n : Node} {s s' : AgentState} {u : StateUpdate}
    {nx : Option Node} (hu : runNode rt env n s = .ok u) (hs : s.merge u = s')
    (hnx : (edge rt n).follow s' = .ok nx) : Step rt ⟨some n, s⟩ ⟨nx, s'⟩ := by
  subst hs
  exact ⟨by simp, env, step_eq_ok_iff.2 ⟨u, hu, nx, hnx, rfl⟩⟩

/-- **Every transition is taken for some answers of the outside world.** -/
theorem Transition.step {rt : Runtime} {c c' : Config} (h : Transition rt c c') :
    Step rt c c' := by
  cases h with
  | supervise s domain complexity agents last hlast =>
      refine Step.of_run (.routing ⟨domain, complexity, agents, ""⟩)
        (u := supervisorUpdate (some ⟨domain, complexity, agents, ""⟩)) ?_ rfl ?_
      · rw [runNode, nodeSupervisorRouter, lastMessage_eq_ok_iff.2 hlast]
        rfl
      · refine follow_conditional _ rfl ?_
        show List.lookup (if complexity = "low" then _ else _) _ = _
        split_ifs <;> rfl
  | plan s plan =>
      exact Step.of_run (.planning plan) rfl rfl
        (follow_laneMap (congrArg Except.ok (routeFromPlanner_eq _)) [])
  | initDirect s =>
      exact Step.of_run Env.silent rfl rfl
        (follow_laneMap (congrArg Except.ok (routeFromPlanner_eq _)) [])
  | dispatch l s content calls hd =>
      obtain ⟨u, hu, hs⟩ := runNode_executor_saying rt l s content calls
      refine Step.of_run _ hu hs ?_
      rw [follow_executor (m := .ai content calls) (by simp [AgentState.answered]), if_pos]
      exact hd
  | conclude l s content calls hd =>
      obtain ⟨u, hu, hs⟩ := runNode_executor_saying rt l s content calls
      refine Step.of_run _ hu hs ?_
      rw [follow_executor (m := .ai content calls) (by simp [AgentState.answered]), if_neg]
      exact hd
  | track s last hlast =>
      refine Step.of_run Env.silent (u := {
        actionHistory := some (s.actionHistory ++ last.toolCalls.map (ToolCall.hash rt))
        toolCallCount := some (s.toolCallCount + last.toolCalls.length) }) ?_ rfl rfl
      rw [runNode, actionTrackerNode, lastMessage_eq_ok_iff.2 hlast]
      rfl
  | callTools s content calls hlast result =>
      refine Step.of_run (.answering result)
        (u := { messages := calls.map fun tc => .append (.tool (result tc) tc.id) }) ?_ rfl
        (follow_laneMap (congrArg Except.ok (laneOrGeneral_eq _)) [])
      rw [runNode, toolNode, lastMessage_eq_ok_iff.2 hlast]
      rfl
  | extract s last hlast summary findings =>
      refine Step.of_run (.extracting summary findings)
        (u := extractionUpdate last.content (some ⟨summary, findings⟩)) ?_ rfl rfl
      rw [runNode, nodeFindingExtractor, lastMessage_eq_ok_iff.2 hlast]
      rfl
  | criticize s payload hp feedback =>
      refine Step.of_run (.criticizing feedback)
        (u := { criticFeedback := some feedback }) ?_ rfl rfl
      rw [runNode, nodeCriticAgent, hp]
      rfl
  | rework s payload hp advice hr =>
      refine Step.of_run (.reflecting true advice)
        (u := reflectionUpdate s ⟨true, advice⟩) ?_ rfl ?_
      · rw [runNode, nodeReflectionAgent, hp]
        rfl
      · refine follow_laneMap (congrArg Except.ok ?_) _
        rw [← laneOrGeneral_eq]
        simp [routeFromReflection, AgentState.reflected, Nat.not_le.2 hr, AgentState.domain]
  | exhaust s payload hp advice hr =>
      refine Step.of_run (.reflecting true advice)
        (u := reflectionUpdate s ⟨true, advice⟩) ?_ rfl ?_
      · rw [runNode, nodeReflectionAgent, hp]
        rfl
      · refine follow_conditional "task_manager" ?_ rfl
        simp [routeFromReflection, AgentState.reflected, hr]
  | accept s payload hp advice =>
      refine Step.of_run (.reflecting false advice)
        (u := reflectionUpdate s ⟨false, advice⟩) ?_ rfl
        (follow_conditional "task_manager" rfl rfl)
      rw [runNode, nodeReflectionAgent, hp]
      rfl
  | dismiss s ht =>
      refine Step.of_run Env.silent (u := { currentTaskId := some none }) ?_ rfl
        (follow_conditional "final_synthesizer" rfl rfl)
      simp only [runNode, nodeTaskManager, if_pos ht]
      rfl
  | advance s ht result hr next hn =>
      refine Step.of_run Env.silent (u := taskManagerUpdate s (completeCurrent s result)) ?_ ?_
        (follow_laneMap (congrArg Except.ok (routeFromTaskManager_eq rfl)) _)
      · simp only [runNode, nodeTaskManager, if_neg ht, hr, Machine.ok_bind]
        rfl
      · simp only [taskManagerUpdate, hn]
        rfl
  | finish s ht result hr hn =>
      refine Step.of_run Env.silent (u := taskManagerUpdate s (completeCurrent s result)) ?_ ?_
        (follow_conditional "final_synthesizer" rfl rfl)
      · simp only [runNode, nodeTaskManager, if_neg ht, hr, Machine.ok_bind]
        rfl
      · simp only [taskManagerUpdate, hn]
        rfl
  | synthesize s content calls =>
      refine Step.of_run (.saying content calls)
        (u := { messages := [.append (.ai content calls)] }) ?_ rfl rfl
      simp only [runNode, nodeFinalSynthesizer, message_saying]

/-- **The supersteps of the graph are the transitions.** -/
theorem step_iff {rt : Runtime} {c c' : Config} : Step rt c c' ↔ Transition rt c c' :=
  ⟨Step.transition, Transition.step⟩

/-! ### Into the tool loop -/

/-- The tools node runs after the tracker. -/
theorem Transition.of_tools {rt : Runtime} {c : Config} {s : AgentState}
    (h : Transition rt c ⟨some .tools, s⟩) :
    ∃ s₀ last, s₀.messages.last? = some last ∧ c = ⟨some .actionTracker, s₀⟩ ∧
      s = s₀.tracked rt last.toolCalls := by
  generalize hc : (⟨some .tools, s⟩ : Config) = c' at h
  cases h with
  | track s₀ last hlast =>
      obtain ⟨_, rfl⟩ := Config.mk.inj hc
      exact ⟨s₀, last, hlast, rfl, rfl⟩
  | supervise => split_ifs at hc <;> cases hc
  | plan | initDirect | dispatch | conclude | callTools | extract | criticize | rework | exhaust
  | accept | dismiss | advance | finish | synthesize => cases hc

/-- The tracker runs after an executor whose message is dispatched. -/
theorem Transition.of_actionTracker {rt : Runtime} {c : Config} {s : AgentState}
    (h : Transition rt c ⟨some .actionTracker, s⟩) :
    ∃ l s₀ content calls, Dispatches rt (s₀.answered (.ai content calls)) calls ∧
      c = ⟨some (.executor l), s₀⟩ ∧ s = s₀.answered (.ai content calls) := by
  generalize hc : (⟨some .actionTracker, s⟩ : Config) = c' at h
  cases h with
  | dispatch l s₀ content calls hd =>
      obtain ⟨_, rfl⟩ := Config.mk.inj hc
      exact ⟨l, s₀, content, calls, hd, rfl, rfl⟩
  | supervise => split_ifs at hc <;> cases hc
  | plan | initDirect | conclude | track | callTools | extract | criticize | rework | exhaust
  | accept | dismiss | advance | finish | synthesize => cases hc

end Graph
end CognitiveEngine
