/-
# The shared state of the workflow graph

`AgentState` (`app/graph/state.py`), the partial updates its nodes return, and
the `initial_state` a chat request feeds in.

The state is a `TypedDict` whose keys may be absent.  A channel nobody has
written yet is read through `state.get(key, default)`: where every reader of a
key passes the same default the field below simply starts at that default
(`tasks`, the counters, `extracted_findings`, and the keys read as `None` when
absent); the other keys are options, `none` for an absent key.

`objective` is written by the supervisor but is not a key of `AgentState`, so the
graph has no channel for it and the write is dropped: `state.get("objective", d)`
is always `d`.  `final_answer` is a key that no node reads or writes, and has no
field.
-/

import CognitiveEngine.Graph.Messages

namespace CognitiveEngine
namespace Graph

/-- The three executor lanes of the graph. -/
inductive Lane where
  | generalMemory
  | researchPapers
  | visionDetection
  deriving DecidableEq

/-- The name under which a lane is registered as a node. -/
def Lane.name : Lane → String
  | .generalMemory => "general_memory"
  | .researchPapers => "research_papers"
  | .visionDetection => "vision_detection"

/-- `["general_memory", "research_papers", "vision_detection"]`, the list every
router tests a domain against. -/
def laneNames : List String := ["general_memory", "research_papers", "vision_detection"]

theorem Lane.name_mem_laneNames (l : Lane) : l.name ∈ laneNames := by
  cases l <;> decide

/-- Every name on the list is the name of a lane. -/
theorem exists_lane_of_mem_laneNames {d : String} (h : d ∈ laneNames) : ∃ l : Lane, l.name = d := by
  simp only [laneNames, List.mem_cons, List.not_mem_nil, or_false] at h
  rcases h with rfl | rfl | rfl
  · exact ⟨.generalMemory, rfl⟩
  · exact ⟨.researchPapers, rfl⟩
  · exact ⟨.visionDetection, rfl⟩

/-- `Finding`, as `model_dump` writes it into the state.  `confidence` is the
exact value of the float. -/
structure Finding where
  statement : String
  evidence : Option String
  confidence : ℚ

/-- The `status` of a task. -/
inductive TaskStatus where
  | pending
  | completed
  deriving DecidableEq

/-- One task dictionary of `state["tasks"]`. -/
structure Task where
  id : ℤ
  desc : String
  status : TaskStatus
  targetAgent : String
  result : Option String
  findings : List Finding

/-- The shared state. -/
structure AgentState where
  messages : MessageLog
  userId : Option String
  sessionId : Option String
  currentDomain : Option String
  complexity : Option String
  requiredAgents : Option (List String)
  tasks : List Task
  currentTaskId : Option ℤ
  iterationCount : ℕ
  toolCallCount : ℕ
  actionHistory : List String
  reworkCount : ℕ
  criticFeedback : Option String
  reflectionNotes : Option String
  needsRework : Option Bool
  rawExecutorOutput : Option String
  extractedFindings : List Finding

/-- The state of a thread before its first request: no channel is written. -/
def AgentState.empty : AgentState where
  messages := .empty
  userId := none
  sessionId := none
  currentDomain := none
  complexity := none
  requiredAgents := none
  tasks := []
  currentTaskId := none
  iterationCount := 0
  toolCallCount := 0
  actionHistory := []
  reworkCount := 0
  criticFeedback := none
  reflectionNotes := none
  needsRework := none
  rawExecutorOutput := none
  extractedFindings := []

/-- The dictionary a node returns: the keys it writes.  `objective` is here
because the supervisor returns it. -/
structure StateUpdate where
  messages : List MessageUpdate := []
  userId : Option String := none
  sessionId : Option String := none
  currentDomain : Option String := none
  complexity : Option String := none
  requiredAgents : Option (List String) := none
  objective : Option String := none
  tasks : Option (List Task) := none
  currentTaskId : Option (Option ℤ) := none
  iterationCount : Option ℕ := none
  toolCallCount : Option ℕ := none
  actionHistory : Option (List String) := none
  reworkCount : Option ℕ := none
  criticFeedback : Option String := none
  reflectionNotes : Option String := none
  needsRework : Option Bool := none
  rawExecutorOutput : Option (Option String) := none
  extractedFindings : Option (List Finding) := none

namespace AgentState

/-- How the graph merges what a node returned: `messages` goes through
`add_messages`, every other key that has a channel is overwritten. -/
def merge (s : AgentState) (u : StateUpdate) : AgentState where
  messages := s.messages.addMessages u.messages
  userId := u.userId.or s.userId
  sessionId := u.sessionId.or s.sessionId
  currentDomain := u.currentDomain.or s.currentDomain
  complexity := u.complexity.or s.complexity
  requiredAgents := u.requiredAgents.or s.requiredAgents
  tasks := u.tasks.getD s.tasks
  currentTaskId := u.currentTaskId.getD s.currentTaskId
  iterationCount := u.iterationCount.getD s.iterationCount
  toolCallCount := u.toolCallCount.getD s.toolCallCount
  actionHistory := u.actionHistory.getD s.actionHistory
  reworkCount := u.reworkCount.getD s.reworkCount
  criticFeedback := u.criticFeedback.or s.criticFeedback
  reflectionNotes := u.reflectionNotes.or s.reflectionNotes
  needsRework := u.needsRework.or s.needsRework
  rawExecutorOutput := u.rawExecutorOutput.getD s.rawExecutorOutput
  extractedFindings := u.extractedFindings.getD s.extractedFindings

/-- `state.get("objective", default)`; the key has no channel. -/
def getObjective (_ : AgentState) (default : String) : String := default

/-- `state["messages"][0].content if state["messages"] else ""`. -/
def userInitialPrompt (s : AgentState) : String :=
  match s.messages.head? with
  | some m => m.content
  | none => ""

end AgentState

/-- A chat request, as both endpoints receive it. -/
structure ChatRequest where
  userId : String
  sessionId : String
  prompt : String

/-- `initial_state`, the same dictionary in `StreamChat` and in
`chat_stream_endpoint`. -/
def initialState (request : ChatRequest) : StateUpdate where
  messages := [.append (.human request.prompt)]
  userId := some request.userId
  sessionId := some request.sessionId
  currentDomain := some "general_memory"
  complexity := some "medium"
  requiredAgents := some []
  iterationCount := some 0
  toolCallCount := some 0
  actionHistory := some []
  reworkCount := some 0
  tasks := some []
  currentTaskId := some none

/-! ### What the chat models return -/

/-- `SupervisorRouterOutput`, without the `rationale` nobody reads. -/
structure SupervisorRouterOutput where
  targetAgent : String
  complexity : String
  requiredAgents : List String
  objective : String

/-- `TaskItem`; the schema restricts `target_agent` to the three lanes. -/
structure TaskItem where
  id : ℤ
  description : String
  targetAgent : Lane

/-- `PlannerOutput`. -/
structure PlannerOutput where
  tasks : List TaskItem

/-- `ExecutorOutput`, the schema of `node_finding_extractor`. -/
structure ExecutorOutput where
  resultSummary : String
  findings : List Finding

/-- `CriticOutput`, without the scores, which are only logged. -/
structure CriticOutput where
  feedback : String

/-- `ReflectionOutput`. -/
structure ReflectionOutput where
  needsRework : Bool
  actionableAdvice : String

end Graph
end CognitiveEngine
