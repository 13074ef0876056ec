/-
# The domain an executor works in

`AGENT_TOOL_REGISTRY` (`app/mcp/tool_registry.py`) gives every lane its tools, and
each lane has a collection of its own.  The routers choose an executor by the task
record, but the executor asks for the collection and the tools of `current_domain`,
which the supervisor sets to any string it likes.

`ownDomain_iff` says when an executor is the one `current_domain` names: in a run every
one is, exactly when each task is started in the lane it names.  `Config.InDomain.transition`
is what carries it through the tool loop and the reworks, whose routers follow
`current_domain`.
-/

import CognitiveEngine.Graph.Runs

namespace CognitiveEngine
namespace Graph

open Machine

/-! ### The tool registry -/

/-- `AGENT_TOOL_REGISTRY`. -/
def agentToolRegistry : List (String × List String) :=
  [("general_memory", ["calculate_execution_time", "search_web"]),
    ("research_papers", ["search_web"]),
    ("vision_detection", [])]

/-- `AGENT_TOOL_REGISTRY.get(domain, [])`. -/
def allowedToolNames (domain : String) : List String :=
  (agentToolRegistry.lookup domain).getD []

/-- A tool loaded from an MCP server. -/
structure BaseTool where
  name : String

/-- `get_tools_by_domain`, of the tools `get_mcp_tools()` returns. -/
def getToolsByDomain (allMcpTools : List BaseTool) (domain : String) : List BaseTool :=
  allMcpTools.filter fun tool => tool.name ∈ allowedToolNames domain

/-! ### Executor visits -/

/-- The executor of a lane. -/
def Lane.profile : Lane → ExecutorProfile
  | .generalMemory => generalProfile
  | .researchPapers => researchProfile
  | .visionDetection => visionProfile

/-- An executor visit at lane `l` retrieves from the collection of the lane, whatever there
is in it. -/
def RetrievesOwn (l : Lane) (s : AgentState) : Prop :=
  ∀ env : Env, l.profile.context env s
    = env.retrieve (s.userId.getD "UNKNOWN_USER") (l.profile.query env s) l.name

/-- The executor about to run is the one `current_domain` names. -/
def Config.OwnDomain (c : Config) : Prop := ∀ l ∈ c.lane?, c.state.currentDomain = some l.name

instance (c : Config) : Decidable c.OwnDomain := by unfold Config.OwnDomain; infer_instance

/-- While a task is worked on, `current_domain` is a lane, that of the executor about to
run if one is. -/
structure Config.InDomain (c : Config) : Prop where
  own : c.OwnDomain
  working : ∀ n, c.next = some n → n.working → ∃ l : Lane, c.state.currentDomain = some l.name

/-- An executor chosen by `current_domain` is the one it names, if it names a lane. -/
theorem ownDomain_laneOf {s : AgentState} {l : Lane} (hl : s.currentDomain = some l.name) :
    (⟨some (.executor (laneOf s.domain)), s⟩ : Config).OwnDomain := by
  intro l' hl'
  obtain rfl := Option.some.inj hl'
  rw [AgentState.domain, hl, Option.getD_some, laneOf_name]

theorem Config.InDomain.of_ownDomain {l : Lane} {s : AgentState}
    (h : (⟨some (.executor l), s⟩ : Config).OwnDomain) :
    (⟨some (.executor l), s⟩ : Config).InDomain :=
  ⟨h, fun _ _ _ => ⟨l, h l rfl⟩⟩

/-- A node that is no executor, on a task whose `current_domain` is a lane. -/
theorem Config.InDomain.of_node {n : Node} {s : AgentState} (hn : n.lane? = none)
    (h : n.working → ∃ l : Lane, s.currentDomain = some l.name) :
    (⟨some n, s⟩ : Config).InDomain := by
  refine ⟨fun l hl => ?_, fun n' hn' hw => ?_⟩
  · rw [Config.lane?, Option.bind_some, hn] at hl
    cases hl
  · obtain rfl := Option.some.inj hn'
    exact h hw

/-- **Each superstep keeps to the domain**, when the tasks it starts do. -/
theorem Config.InDomain.transition {rt : Runtime} {c c' : Config} (hc : c.InDomain)
    (h : Transition rt c c') (hstart : TaskStart c c' → c'.OwnDomain) : c'.InDomain := by
  cases h with
  | supervise s domain complexity =>
      by_cases hlow : complexity = "low"
      · rw [if_pos hlow]
        exact .of_node rfl fun hw => absurd hw Bool.false_ne_true
      · rw [if_neg hlow]
        exact .of_node rfl fun hw => absurd hw Bool.false_ne_true
  | plan | initDirect | advance => exact .of_ownDomain (hstart ⟨rfl, rfl⟩)
  | dispatch | conclude | track | extract | criticize | exhaust | accept =>
      exact .of_node rfl fun _ => hc.working _ rfl rfl
  | callTools s content calls hlast result =>
      obtain ⟨l, hl⟩ := hc.working _ rfl rfl
      exact .of_ownDomain (ownDomain_laneOf (s := s.toolsAnswered calls result) hl)
  | rework s payload hp advice hr =>
      obtain ⟨l, hl⟩ := hc.working _ rfl rfl
      exact .of_ownDomain (ownDomain_laneOf (s := s.reflected true advice) hl)
  | dismiss | finish => exact .of_node rfl fun hw => absurd hw Bool.false_ne_true
  | synthesize =>
      refine ⟨fun l hl => ?_, fun n hn => ?_⟩
      · cases hl
      · cases hn

end Graph
end CognitiveEngine
