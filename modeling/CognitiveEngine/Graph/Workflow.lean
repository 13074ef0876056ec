/-
# The workflow graph

`app/graph/workflow.py`: the registered nodes, the routers, the edges with their
maps, and one superstep of the compiled graph.

A router returns a label, a string; the edge map of the node turns the label into
the next node, and a label the map does not have is a `KeyError`.  A
configuration is the node about to run, `none` at `END`, with the state it is
handed.  `step` runs that node in an `Env`, applies what it returns and follows
its edge; `Step` is one such superstep in some `Env`, and `ThreadStep` adds the
turns of a conversation: a new request may come in at any point, after `END` or
after a turn that was cut off, and is merged into the state the checkpointer has.
-/

import CognitiveEngine.Graph.Nodes
import CognitiveEngine.Machine.History

namespace CognitiveEngine
namespace Graph

/-- The nodes registered with `add_node`. -/
inductive Node where
  | supervisorRouter
  | planner
  | directExecutorInit
  | executor (lane : Lane)
  | actionTracker
  | tools
  | findingExtractor
  | criticAgent
  | reflectionAgent
  | taskManager
  | finalSynthesizer
  deriving DecidableEq

/-! ### Phase 1: routing -/

/-- `route_from_supervisor`. -/
def routeFromSupervisor (s : AgentState) : String :=
  if s.complexity.getD "medium" = "low" then "direct_executor_init" else "planner"

/-- `d` if it is one of the three lanes, `general_memory` otherwise. -/
def laneOrGeneral (d : String) : String := if d ∈ laneNames then d else "general_memory"

/-- `state.get("current_domain", "general_memory")`. -/
def AgentState.domain (s : AgentState) : String := s.currentDomain.getD "general_memory"

/-- `route_from_planner`, also the router of `direct_executor_init`. -/
def routeFromPlanner (s : AgentState) : String :=
  match s.tasks with
  | t :: _ => laneOrGeneral t.targetAgent
  | [] => laneOrGeneral s.domain

/-! ### Phase 2: hard limits -/

/-- `MAX_ITERATIONS`. -/
def maxIterations : ℕ := 8

/-- `MAX_TOOL_CALLS`. -/
def maxToolCalls : ℕ := 10

/-- `MAX_REWORK_CYCLES`. -/
def maxReworkCycles : ℕ := 2

/-- `evaluate_tool_hooks` on the last message: no tool calls, then the iteration
cap, the tool budget and the duplicate check, in this order. -/
def toolHooks (rt : Runtime) (s : AgentState) (last : Message) : String :=
  if last.toolCalls = [] then "finding_extractor"
  else if maxIterations ≤ s.iterationCount then "finding_extractor"
  else if maxToolCalls ≤ s.toolCallCount then "finding_extractor"
  else if last.toolCalls.any fun tc => tc.hash rt ∈ s.actionHistory then "finding_extractor"
  else "execute_tools"

/-- `evaluate_tool_hooks`. -/
def evaluateToolHooks (rt : Runtime) (s : AgentState) : Except PyError String :=
  (lastMessage s).map (toolHooks rt s)

/-- `route_back_to_agent`. -/
def routeBackToAgent (s : AgentState) : String := laneOrGeneral s.domain

/-! ### Phase 3: evaluation and synthesis -/

/-- `route_from_reflection`. -/
def routeFromReflection (s : AgentState) : String :=
  if s.needsRework = some true then
    if maxReworkCycles ≤ s.reworkCount then "task_manager" else laneOrGeneral s.domain
  else "task_manager"

/-- `route_from_task_manager`: the lane of the first task with the current id
whose `target_agent` is a lane, else the lane of `current_domain`. -/
def routeFromTaskManager (s : AgentState) : String :=
  match s.currentTaskId with
  | some id =>
      match s.tasks.find? fun t => t.id = id ∧ t.targetAgent ∈ laneNames with
      | some t => t.targetAgent
      | none => laneOrGeneral s.domain
  | none => "final_synthesizer"

/-! ### Edges -/

/-- An edge out of a node: `add_edge`, whose target `none` is `END`, or
`add_conditional_edges` with its map. -/
inductive Edge where
  | direct (target : Option Node)
  | conditional (router : AgentState → Except PyError String) (edgeMap : List (String × Node))

/-- The three executor lanes, mapped to themselves. -/
def laneMap : List (String × Node) :=
  [("general_memory", .executor .generalMemory),
    ("research_papers", .executor .researchPapers),
    ("vision_detection", .executor .visionDetection)]

/-- `executor_map`. -/
def executorMap : List (String × Node) :=
  [("execute_tools", .actionTracker), ("finding_extractor", .findingExtractor)]

/-- The edges of the graph. -/
def edge (rt : Runtime) : Node → Edge
  | .supervisorRouter => .conditional (fun s => .ok (routeFromSupervisor s))
      [("direct_executor_init", .directExecutorInit), ("planner", .planner)]
  | .planner => .conditional (fun s => .ok (routeFromPlanner s)) laneMap
  | .directExecutorInit => .conditional (fun s => .ok (routeFromPlanner s)) laneMap
  | .executor _ => .conditional (evaluateToolHooks rt) executorMap
  | .actionTracker => .direct (some .tools)
  | .tools => .conditional (fun s => .ok (routeBackToAgent s)) laneMap
  | .findingExtractor => .direct (some .criticAgent)
  | .criticAgent => .direct (some .reflectionAgent)
  | .reflectionAgent => .conditional (fun s => .ok (routeFromReflection s))
      (laneMap ++ [("task_manager", .taskManager)])
  | .taskManager => .conditional (fun s => .ok (routeFromTaskManager s))
      (laneMap ++ [("final_synthesizer", .finalSynthesizer)])
  | .finalSynthesizer => .direct none

/-- The node an edge leads to from a state. -/
def Edge.follow (e : Edge) (s : AgentState) : Except PyError (Option Node) :=
  match e with
  | .direct target => .ok target
  | .conditional router edgeMap => do
      let label ← router s
      match edgeMap.lookup label with
      | some n => return some n
      | none => .error (.keyError label)

/-! ### Supersteps -/

/-- What a node writes. -/
def runNode (rt : Runtime) (env : Env) : Node → AgentState → Except PyError StateUpdate
  | .supervisorRouter, s => nodeSupervisorRouter rt env s
  | .planner, s => .ok (nodePlannerAgent env s)
  | .directExecutorInit, s => .ok (nodeDirectExecutorInit s)
  | .executor .generalMemory, s => .ok (nodeGeneralAgent rt env s)
  | .executor .researchPapers, s => .ok (nodeResearchPaperAgent rt env s)
  | .executor .visionDetection, s => .ok (nodeVisionDetectionAgent rt env s)
  | .actionTracker, s => actionTrackerNode rt s
  | .tools, s => toolNode env s
  | .findingExtractor, s => nodeFindingExtractor env s
  | .criticAgent, s => nodeCriticAgent rt env s
  | .reflectionAgent, s => nodeReflectionAgent env s
  | .taskManager, s => nodeTaskManager s
  | .finalSynthesizer, s => .ok (nodeFinalSynthesizer env s)

/-- A configuration of a run: the node about to run (`none` at `END`) and the
state. -/
structure Config where
  next : Option Node
  state : AgentState

/-- One superstep: run the node, apply its update, follow its edge.  `END` stays
where it is. -/
def step (rt : Runtime) (env : Env) (c : Config) : Except PyError Config :=
  match c.next with
  | none => .ok c
  | some n => do
      let update ← runNode rt env n c.state
      let state := c.state.merge update
      let next ← (edge rt n).follow state
      return ⟨next, state⟩

/-- The nodes that call `get_llm_instance` with the configuration outside a `try`. -/
def callsUnguarded : Node → Bool
  | .executor _ | .finalSynthesizer => true
  | _ => false

/-- One superstep of a run that is not at `END`, in some outside world. -/
def Step (rt : Runtime) (c c' : Config) : Prop :=
  c.next ≠ none ∧ ∃ env, step rt env c = .ok c'

/-- Where a turn starts: the request is merged into the state of its thread, and
the entry point runs. -/
def startTurn (thread : AgentState) (request : ChatRequest) : Config where
  next := some .supervisorRouter
  state := thread.merge (initialState request)

/-- A superstep of the current turn, or the start of the next one on the state
the thread has, wherever the current turn is. -/
inductive ThreadStep (rt : Runtime) : Config → Config → Prop
  | step {c c' : Config} (h : Step rt c c') : ThreadStep rt c c'
  | turn (c : Config) (request : ChatRequest) : ThreadStep rt c (startTurn c.state request)

/-- The first turn of a thread. -/
def FirstTurn (c : Config) : Prop := ∃ request, c = startTurn .empty request

/-- A run of a thread, any number of turns long: the configurations it has gone
through, the latest first. -/
def ThreadHistory (rt : Runtime) : List Config → Prop :=
  Machine.History FirstTurn (ThreadStep rt)

end Graph
end CognitiveEngine
