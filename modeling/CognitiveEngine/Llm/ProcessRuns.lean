/-
# The models of a run in a process

A run of the graph is not alone in its process: what a node gets of the model factory
depends on what has been asked of it since the process started, by whatever runs there were.
So a use of a model is looked at in a `Process`, any requests made before and the moment.

A node asks `get_llm_instance` or `get_structured_llm`, and an executor has the tools of a
domain bound to the instance.  `served_eq` says what it gets: what the first request of the
process made for the entry, of the bound models or else of the instances, and what it would
construct itself only when there was none.
-/

import CognitiveEngine.Graph.Runs
import CognitiveEngine.Llm.Tables

namespace CognitiveEngine
namespace Llm

open CognitiveEngine.Graph Machine

/-! ### Uses of models -/

/-- The schemas that `get_structured_llm` is called with. -/
inductive GraphSchema where
  | supervisorRouterOutput
  | plannerOutput
  | executorOutput
  | criticOutput
  | reflectionOutput
  deriving DecidableEq

/-- `schema.__name__`. -/
def GraphSchema.className : GraphSchema → String
  | .supervisorRouterOutput => "SupervisorRouterOutput"
  | .plannerOutput => "PlannerOutput"
  | .executorOutput => "ExecutorOutput"
  | .criticOutput => "CriticOutput"
  | .reflectionOutput => "ReflectionOutput"

theorem notMem_className (schema : GraphSchema) : '_' ∉ schema.className.toList := by
  cases schema <;> decide

/-- A model a node asks for, and the schema of its output if it is structured. -/
structure ModelUse where
  model : ChatModel
  schema : Option GraphSchema

/-- The call that gets the model, before tools are bound to it. -/
def ModelUse.call (use : ModelUse) : LlmCall GraphSchema :=
  let config := use.model.config.map ofRunnableConfig
  match use.schema with
  | some schema => .getStructuredLlm use.model.tier schema config
  | none => .getLlmInstance use.model.tier config

/-- A process in which a model is asked for: the requests that came before, and the
moment. -/
structure Process where
  requests : List (LlmRequest GraphSchema)
  moment : Moment

/-- The request for the model. -/
def ModelUse.request (use : ModelUse) (process : Process) : LlmRequest GraphSchema :=
  ⟨process.moment, use.call⟩

/-- The instance that a use would construct; `none` when the resolver raises. -/
def instanceOf? (texts : Texts) (settings : Settings) (m : ChatModel) : Option BaseChatModel :=
  (resolveProviderAndKey texts settings (m.config.map ofRunnableConfig)).map
    fun r => r.newLlm m.tier

/-- A factory in which the name of a schema is that of its class. -/
structure GraphFactory extends LlmFactory GraphSchema where
  schemaName_eq : ∀ schema, schemaName schema = schema.className

namespace GraphFactory

variable (f : GraphFactory)

/-- What a node gets for a use; `none` when asking for it raises. -/
def served (process : Process) (use : ModelUse) : Option (Runnable GraphSchema) :=
  match use.model.boundDomain with
  | none => f.returned process.requests (use.request process)
  | some domain =>
      (f.returned process.requests (use.request process)).bind fun r =>
        f.returned (process.requests ++ [use.request process])
          ⟨process.moment, .getCachedBoundLlm domain r.base⟩

/-- The bound model that the first request for the entry of a use has left. -/
def boundEntry (process : Process) (use : ModelUse) (made : BaseChatModel) : Option BoundLlm :=
  use.model.boundDomain.bind fun domain =>
    f.firstBound process.requests (f.boundCacheKey process.moment.settings domain made)

/-- The model that the first request for the entry of a use has left: one with tools, or else
an instance. -/
def entry (process : Process) (use : ModelUse) (made : BaseChatModel) : Option BaseChatModel :=
  ((f.boundEntry process use made).map BoundLlm.base).or
    (f.firstInstance process.requests (f.keyOf process.moment.settings made))

variable {f} {process : Process} {use : ModelUse} {made : BaseChatModel}

theorem notMem_schemaName (f : GraphFactory) (schema : GraphSchema) :
    '_' ∉ (f.schemaName schema).toList := by
  rw [f.schemaName_eq schema]
  exact notMem_className schema

/-- A use constructs the instance of its arguments. -/
theorem constructs_request
    (h : instanceOf? f.toTexts process.moment.settings use.model = some made) :
    f.Constructs (use.request process) made := by
  obtain ⟨r, hr, rfl⟩ := Option.map_eq_some_iff.1 h
  unfold ModelUse.request ModelUse.call
  cases use.schema with
  | none => exact .inl (LlmFactory.fresh_getLlmInstance hr _)
  | some schema => exact .inr ⟨schema, LlmFactory.fresh_getStructuredLlm hr _ schema⟩

/-- **What a use gets**, when no tools are bound to it. -/
theorem served_of_unbound (hunbound : use.model.boundDomain = none)
    (h : instanceOf? f.toTexts process.moment.settings use.model = some made) :
    ∃ r, f.served process use = some r ∧ r.base = (f.entry process use made).getD made := by
  obtain ⟨r, hr, hbase⟩ := LlmFactory.returned_base f.notMem_schemaName process.requests
    (constructs_request h)
  refine ⟨r, ?_, ?_⟩
  · rw [served, hunbound]
    exact hr
  · rw [entry, boundEntry, hunbound]
    exact hbase

/-- **What an executor gets**: the model bound first for its entry, or the tools of the domain
as they are now, bound to the instance there is. -/
theorem served_of_bound {domain : String}
    (hbound : use.model.boundDomain = some domain)
    (h : instanceOf? f.toTexts process.moment.settings use.model = some made) :
    f.served process use = some (.bound ((f.boundEntry process use made).getD
      ⟨(f.entry process use made).getD made, domainTools process.moment.mcpTools domain⟩)) := by
  have hmade := constructs_request h
  obtain ⟨r, hr, hbase⟩ : ∃ r, f.returned process.requests (use.request process) = some r ∧
      r.base = (f.firstInstance process.requests (f.keyOf process.moment.settings made)).getD made :=
    LlmFactory.returned_base f.notMem_schemaName process.requests hmade
  have hask : f.askBound id (use.request process) = none := by
    unfold ModelUse.request ModelUse.call
    cases use.schema <;> rfl
  have hfirst : ∀ key, f.firstBound (process.requests ++ [use.request process]) key
      = f.firstBound process.requests key := fun key => by
    rw [LlmFactory.firstBound, filterMap_append_none hask, LlmFactory.firstBound]
  -- The instance that is there is bound under the key of the one that would be constructed.
  have hkey : f.boundCacheKey process.moment.settings domain r.base
      = f.boundCacheKey process.moment.settings domain made := by
    cases hfound : f.firstInstance process.requests (f.keyOf process.moment.settings made) with
    | none =>
        rw [hbase, hfound, Option.getD_none]
    | some found =>
        rw [hbase, hfound, Option.getD_some]
        exact LlmFactory.boundCacheKey_firstInstance hmade.truthyText_apiKey hfound domain
  rw [served, hbound]
  dsimp only
  rw [hr, Option.bind_some, LlmFactory.returned_bound f.notMem_schemaName _ rfl, hfirst, hkey,
    boundEntry, hbound, Option.bind_some]
  cases hentry : f.firstBound process.requests
      (f.boundCacheKey process.moment.settings domain made) with
  | some found => rfl
  | none =>
      rw [Option.getD_none, Option.getD_none, entry, boundEntry, hbound, Option.bind_some, hentry,
        Option.map_none, Option.none_or, ← hbase]

/-- **The model a use gets** is the one left first under its entry, or a new one. -/
theorem served_eq
    (h : instanceOf? f.toTexts process.moment.settings use.model = some made) :
    ∃ r, f.served process use = some r ∧ r.base = (f.entry process use made).getD made := by
  cases hbound : use.model.boundDomain with
  | none => exact served_of_unbound hbound h
  | some domain =>
      refine ⟨_, served_of_bound hbound h, ?_⟩
      rw [Runnable.base_bound]
      cases hentry : f.boundEntry process use made with
      | none => rfl
      | some found =>
          rw [Option.getD_some, entry, hentry, Option.map_some, Option.some_or, Option.getD_some]

end GraphFactory

/-- A factory of the graph with these digests. -/
def Digests.graphFactory (digests : Digests) : GraphFactory :=
  { digests.factory with
    schemaName := GraphSchema.className
    schemaName_eq := fun _ => rfl }

end Llm
end CognitiveEngine
