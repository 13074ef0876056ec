/-
# The nodes of the graph

The node functions of `app/graph/nodes.py`, and the two nodes `workflow.py` adds,
`action_tracker_node` and the tools node.  Each takes the state and returns the
keys it writes; the outside world of the superstep is its `Env`.

A node whose structured call raises goes on with what its `except` branch
returns.  What a node can still raise by itself is an index into an empty message
list (`PyError`).  Logging is not part of the model; the Prometheus counters are in
`SafeguardMetrics`.
-/

import CognitiveEngine.Graph.Prompts

namespace CognitiveEngine
namespace Graph

/-! ### Routing and planning -/

/-- What `node_supervisor_router` returns for a decision, and when the call
raises. -/
def supervisorUpdate : Option SupervisorRouterOutput → StateUpdate
  | some decision => {
      currentDomain := some decision.targetAgent
      complexity := some decision.complexity
      requiredAgents := some decision.requiredAgents
      objective := some decision.objective }
  | none => {
      currentDomain := some "general_memory"
      complexity := some "low"
      requiredAgents := some [] }

/-- `node_supervisor_router`. -/
def nodeSupervisorRouter (rt : Runtime) (env : Env) (s : AgentState) :
    Except PyError StateUpdate := do
  let latest ← lastMessage s
  let decision := env.router (getLlmInstance 1 (some env.config)) (supervisorPrompt rt latest)
  return supervisorUpdate decision.output

/-- The task dictionary of a planned task. -/
def TaskItem.toTask (t : TaskItem) : Task where
  id := t.id
  desc := t.description
  status := .pending
  targetAgent := t.targetAgent.name
  result := none
  findings := []

/-- The single task the planner falls back to and `direct_executor_init` creates. -/
def syntheticTask (desc targetAgent : String) : Task where
  id := 1
  desc := desc
  status := .pending
  targetAgent := targetAgent
  result := none
  findings := []

/-- `tasks_state` of `node_planner_agent`: the planned tasks, or the synthetic
one when the structured call raises. -/
def planTasks (s : AgentState) (plan : Option PlannerOutput) : List Task :=
  match plan with
  | some plan => plan.tasks.map TaskItem.toTask
  | none => [syntheticTask s.userInitialPrompt (s.currentDomain.getD "general_memory")]

/-- `node_planner_agent`. -/
def nodePlannerAgent (env : Env) (s : AgentState) : StateUpdate :=
  let tasks :=
    planTasks s (env.planner (getLlmInstance 2 (some env.config)) (plannerPrompt s)).output
  { tasks := some tasks
    currentTaskId := some (tasks.head?.map Task.id)
    iterationCount := some 0
    toolCallCount := some 0
    actionHistory := some []
    reworkCount := some 0 }

/-- `node_direct_executor_init`. -/
def nodeDirectExecutorInit (s : AgentState) : StateUpdate where
  tasks := some [syntheticTask (s.getObjective s.userInitialPrompt)
    (s.currentDomain.getD "general_memory")]
  currentTaskId := some (some 1)
  iterationCount := some 0
  toolCallCount := some 0
  actionHistory := some []
  reworkCount := some 0

/-! ### Executors -/

/-- What an executor returns: the answer of its model, and one more iteration. -/
def executorUpdate (s : AgentState) (response : ChatReply) : StateUpdate where
  messages := [.append response.message]
  iterationCount := some (s.iterationCount + 1)

/-- The body the three executor nodes share: call the model on the pruned messages
and append its answer. -/
def executorNode (p : ExecutorProfile) (rt : Runtime) (env : Env) (s : AgentState) :
    StateUpdate :=
  executorUpdate s (env.chat (p.model env s) (p.prompt rt env s))

/-- `node_general_agent`. -/
def nodeGeneralAgent : Runtime → Env → AgentState → StateUpdate := executorNode generalProfile

/-- `node_research_paper_agent`. -/
def nodeResearchPaperAgent : Runtime → Env → AgentState → StateUpdate := executorNode researchProfile

/-- `node_vision_detection_agent`. -/
def nodeVisionDetectionAgent : Runtime → Env → AgentState → StateUpdate := executorNode visionProfile

/-! ### Tools -/

/-- The text `generate_tool_hash` hashes: the name and the sorted arguments. -/
def toolHashText (rt : Runtime) (name : String) (args : List (String × Json)) : String :=
  name ++ "_" ++ rt.strItems (args.insertionSort fun a b => a.1 ≤ b.1)

/-- `generate_tool_hash`. -/
def generateToolHash (rt : Runtime) (name : String) (args : List (String × Json)) : String :=
  rt.md5Hexdigest (toolHashText rt name args)

/-- The hash of a tool call. -/
def ToolCall.hash (rt : Runtime) (tc : ToolCall) : String := generateToolHash rt tc.name tc.args

/-- `action_tracker_node`. -/
def actionTrackerNode (rt : Runtime) (s : AgentState) : Except PyError StateUpdate := do
  let last ← lastMessage s
  return {
    actionHistory := some (s.actionHistory ++ last.toolCalls.map (ToolCall.hash rt))
    toolCallCount := some (s.toolCallCount + last.toolCalls.length) }

/-- The tools node: one tool message for each tool call of the last message. -/
def toolNode (env : Env) (s : AgentState) : Except PyError StateUpdate := do
  match ← lastMessage s with
  | .ai _ calls =>
      return { messages := calls.map fun tc => .append (.tool (env.callTool tc) tc.id) }
  | _ => .error .valueError

/-! ### Extraction and evaluation -/

/-- What `node_finding_extractor` returns for an extraction, and when the call
raises: the raw text of the executor and no findings. -/
def extractionUpdate (executorRaw : String) : Option ExecutorOutput → StateUpdate
  | some extraction => {
      rawExecutorOutput := some (some extraction.resultSummary)
      extractedFindings := some extraction.findings }
  | none => {
      rawExecutorOutput := some (some executorRaw)
      extractedFindings := some [] }

/-- `node_finding_extractor`. -/
def nodeFindingExtractor (env : Env) (s : AgentState) : Except PyError StateUpdate := do
  let last ← lastMessage s
  let extraction :=
    env.extractor (getLlmInstance 1 (some env.config)) (extractionPrompt last.content)
  return extractionUpdate last.content extraction.output

/-- What `node_critic_agent` goes on with when the structured call raises. -/
def criticFallback : CriticOutput where
  feedback := "[Fallback] Parsing failed, proceeding automatically."

/-- `node_critic_agent`. -/
def nodeCriticAgent (rt : Runtime) (env : Env) (s : AgentState) : Except PyError StateUpdate := do
  let payload ← rawOrLast s
  let evaluation := env.critic (getLlmInstance 2 (some env.config)) (criticPrompt rt s payload)
  return { criticFeedback := some (evaluation.output.getD criticFallback).feedback }

/-- What `node_reflection_agent` goes on with when the structured call raises. -/
def reflectionFallback : ReflectionOutput where
  needsRework := false
  actionableAdvice := "[Fallback] Parsing failed, proceeding without rework."

/-- What `node_reflection_agent` returns for a verdict; the rework counter moves
only when the verdict demands rework. -/
def reflectionUpdate (s : AgentState) (reflection : ReflectionOutput) : StateUpdate where
  reflectionNotes := some reflection.actionableAdvice
  needsRework := some reflection.needsRework
  reworkCount := some (if reflection.needsRework then s.reworkCount + 1 else s.reworkCount)

/-- `node_reflection_agent`. -/
def nodeReflectionAgent (env : Env) (s : AgentState) : Except PyError StateUpdate := do
  let payload ← rawOrLast s
  let reflection :=
    env.reflection (getLlmInstance 2 (some env.config)) (reflectionPrompt s payload)
  return reflectionUpdate s (reflection.output.getD reflectionFallback)

/-! ### Task registry and synthesis -/

/-- `t` as `node_task_manager` leaves it when it completes it. -/
def Task.complete (t : Task) (result : String) (findings : List Finding) : Task :=
  { t with status := .completed, result := some result, findings := findings }

/-- `updated_tasks` of `node_task_manager`: every task with the current id is
completed. -/
def completeCurrent (s : AgentState) (result : String) : List Task :=
  s.tasks.map fun t =>
    if some t.id = s.currentTaskId then t.complete result s.extractedFindings else t

/-- `next_task`: the first task still pending. -/
def nextTask (tasks : List Task) : Option Task := tasks.find? fun t => t.status = .pending

/-- What `node_task_manager` returns once the current task is completed: the next
task and reset counters, or no task when none is pending. -/
def taskManagerUpdate (s : AgentState) (updated : List Task) : StateUpdate :=
  match nextTask updated with
  | some next => {
      tasks := some updated
      currentTaskId := some (some next.id)
      iterationCount := some 0
      toolCallCount := some 0
      reworkCount := some 0
      rawExecutorOutput := some none
      extractedFindings := some []
      -- context sandboxing: every message but the first is removed
      messages := s.messages.entries.tail.map fun e => .remove e.id }
  | none => {
      tasks := some updated
      currentTaskId := some none }

/-- `node_task_manager`. -/
def nodeTaskManager (s : AgentState) : Except PyError StateUpdate :=
  if s.tasks = [] then return { currentTaskId := some none }
  else do
    let result ← rawOrLast s
    return taskManagerUpdate s (completeCurrent s result)

/-- `node_final_synthesizer`. -/
def nodeFinalSynthesizer (env : Env) (s : AgentState) : StateUpdate where
  messages := [.append (env.chat (getLlmInstance 2 (some env.config)) (synthesisPrompt s)).message]

end Graph
end CognitiveEngine
