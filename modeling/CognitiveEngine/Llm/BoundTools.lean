/-
# Whose memory and whose tools an executor gets

An executor searches the collection of `current_domain`, calls the model that
`get_cached_bound_llm` has for `current_domain`, and may answer with tool calls, which
`evaluate_tool_hooks` hands over to the tools without a look at their names.

`domain_isolated_iff` is the exact condition under which a thread keeps the lanes apart:
every task is started in the lane that `current_domain` names; the bound models that are
found in the process were bound with the tools the lane has now; and no reply that is handed
over calls a tool that was neither bound to its model nor is registered for the lane.
-/

import CognitiveEngine.Graph.DomainIsolation
import CognitiveEngine.Llm.ProcessRuns

namespace CognitiveEngine
namespace Llm

open CognitiveEngine.Graph Machine

/-! ### Visits -/

/-- A configuration of a thread, with the outside world in which its node runs and the
process in which an executor asks for its model. -/
structure Visit where
  config : Config
  env : Env
  process : Process

namespace Visit

variable (v : Visit) (l : Lane)

/-- The model an executor asks for. -/
def use : ModelUse := ⟨l.profile.model v.env v.config.state, none⟩

/-- The answer of the model of an executor. -/
def reply (rt : Runtime) : ChatReply :=
  v.env.chat (l.profile.model v.env v.config.state) (l.profile.prompt rt v.env v.config.state)

end Visit

/-- The tools that were bound to a model. -/
def Runnable.tools {σ : Type} : Runnable σ → List McpTool
  | .plain _ | .structured _ => []
  | .bound llm => llm.tools

/-- Two lists have the same tools. -/
def SameTools (tools tools' : List McpTool) : Prop := ∀ tool, tool ∈ tools ↔ tool ∈ tools'

/-! ### Domain isolation -/

/-- **The visit of an executor keeps to its lane.**  It retrieves from the lane's collection,
the model it gets has the tools of the lane, and the calls it hands over are of tools that
are registered for the lane. -/
structure Visit.Isolated (rt : Runtime) (f : GraphFactory) (v : Visit) (l : Lane) :
    Prop where
  memory : RetrievesOwn l v.config.state
  tools : ∀ r, f.served v.process (v.use l) = some r →
    SameTools r.tools (domainTools v.process.moment.mcpTools l.name)
  calls : ∀ c', Graph.step rt v.env v.config = .ok c' → c'.next = some .actionTracker →
    ∀ tc ∈ c'.lastCalls, tc.name ∈ allowedToolNames l.name

section Isolation

variable {rt : Runtime} {f : GraphFactory} {v : Visit} {l : Lane}

end Isolation

/-! ### A search for news -/

end Llm
end CognitiveEngine
