/-
# What a superstep streams

The chunks the chat models of a node stream, as `run_stream` and
`run_graph_stream` see them: the `on_chat_model_stream` events of every node but
`supervisor_router`, without the empty ones.

The endpoints hand the graph a configuration whose `llm_provider` may be `None`.
`get_llm_instance` then raises on its `.lower()`: a structured call turns that into
its fallback, an executor and the final synthesizer raise.

`superstep_congr` and `streamed_congr` say what a superstep depends on: nothing that
is retrieved for a user other than the one of the state.
-/

import CognitiveEngine.Graph.Transitions

namespace CognitiveEngine
namespace Server

open CognitiveEngine.Graph

/-! ### Chunks -/

/-- A structured call under a configuration. -/
def structuredCall {α : Type} (config : RunnableConfig) (answer : Structured α) : Structured α :=
  if knowsProvider config then answer else ⟨[], none⟩

/-- The chunks of the model an executor calls. -/
def executorChunks (p : ExecutorProfile) (rt : Runtime) (env : Env) (s : AgentState) :
    List String :=
  if knowsProvider env.config then (env.chat (p.model env s) (p.prompt rt env s)).chunks else []

/-- What the chat models stream while a node runs. -/
def nodeChunks (rt : Runtime) (env : Env) : Node → AgentState → List String
  | .supervisorRouter, s =>
      match s.messages.last? with
      | some latest =>
          (env.router (getLlmInstance 1 (some env.config)) (supervisorPrompt rt latest)).chunks
      | none => []
  | .planner, s => (env.planner (getLlmInstance 2 (some env.config)) (plannerPrompt s)).chunks
  | .executor .generalMemory, s => executorChunks generalProfile rt env s
  | .executor .researchPapers, s =>
      (env.chat transformModel (transformPrompt s.userInitialPrompt)).chunks ++
        executorChunks researchProfile rt env s
  | .executor .visionDetection, s => executorChunks visionProfile rt env s
  | .findingExtractor, s =>
      match s.messages.last? with
      | some last =>
          (env.extractor (getLlmInstance 1 (some env.config)) (extractionPrompt last.content)).chunks
      | none => []
  | .criticAgent, s =>
      match rawOrLast s with
      | .ok payload =>
          (env.critic (getLlmInstance 2 (some env.config)) (criticPrompt rt s payload)).chunks
      | .error _ => []
  | .reflectionAgent, s =>
      match rawOrLast s with
      | .ok payload =>
          (env.reflection (getLlmInstance 2 (some env.config)) (reflectionPrompt s payload)).chunks
      | .error _ => []
  | .finalSynthesizer, s =>
      if knowsProvider env.config then
        (env.chat (getLlmInstance 2 (some env.config)) (synthesisPrompt s)).chunks
      else []
  | .directExecutorInit, _ | .actionTracker, _ | .tools, _ | .taskManager, _ => []

/-- The chunks the endpoints pass on while a node runs. -/
def streamed (rt : Runtime) (env : Env) (n : Node) (s : AgentState) : List String :=
  if n = .supervisorRouter then [] else (nodeChunks rt env n s).filter fun chunk => chunk ≠ ""

/-! ### Supersteps -/

/-- A superstep as the endpoints run it; `none` when it raises. -/
def superstep (rt : Runtime) (env : Env) (n : Node) (s : AgentState) : Option Config :=
  if callsUnguarded n && !knowsProvider env.config then none
  else (step rt env ⟨some n, s⟩).toOption

theorem step_of_superstep {rt : Runtime} {env : Env} {n : Node} {s : AgentState} {c' : Config}
    (h : superstep rt env n s = some c') : Step rt ⟨some n, s⟩ c' := by
  unfold superstep at h
  split_ifs at h
  cases hstep : step rt env ⟨some n, s⟩ with
  | error e => rw [hstep] at h; exact absurd h nofun
  | ok c₁ =>
      rw [hstep] at h
      obtain rfl := Option.some.inj h
      exact ⟨nofun, env, hstep⟩

/-! ### A superstep reads the memory of its own user only -/

/-- The two worlds retrieve the same for a user. -/
def SameFor (userId : String) (env : Env)
    (retrieve : String → String → String → String) : Prop :=
  ∀ query collection, env.retrieve userId query collection = retrieve userId query collection

section SameFor

variable {rt : Runtime} {env : Env} {retrieve : String → String → String → String}
  {userId : String} {s : AgentState}

theorem compiledMessages_congr (p : ExecutorProfile)
    (hquery : p.query { env with retrieve := retrieve } s = p.query env s)
    (hs : s.userId = some userId) (hr : SameFor userId env retrieve) :
    p.compiledMessages rt { env with retrieve := retrieve } s = p.compiledMessages rt env s := by
  have hcontext : p.context { env with retrieve := retrieve } s = p.context env s := by
    simp only [ExecutorProfile.context, hs, Option.getD_some, hquery]
    exact (hr _ _).symm
  simp only [ExecutorProfile.compiledMessages, hcontext]

theorem executorNode_congr (p : ExecutorProfile)
    (hquery : p.query { env with retrieve := retrieve } s = p.query env s)
    (hs : s.userId = some userId) (hr : SameFor userId env retrieve) :
    executorNode p rt { env with retrieve := retrieve } s = executorNode p rt env s := by
  simp only [executorNode, ExecutorProfile.prompt, compiledMessages_congr p hquery hs hr]
  rfl

theorem executorChunks_congr (p : ExecutorProfile)
    (hquery : p.query { env with retrieve := retrieve } s = p.query env s)
    (hs : s.userId = some userId) (hr : SameFor userId env retrieve) :
    executorChunks p rt { env with retrieve := retrieve } s = executorChunks p rt env s := by
  simp only [executorChunks, ExecutorProfile.prompt, compiledMessages_congr p hquery hs hr]
  rfl

theorem runNode_congr (hs : s.userId = some userId) (hr : SameFor userId env retrieve) (n : Node) :
    runNode rt { env with retrieve := retrieve } n s = runNode rt env n s := by
  cases n with
  | executor l =>
      cases l with
      | generalMemory => exact congrArg Except.ok (executorNode_congr generalProfile rfl hs hr)
      | researchPapers => exact congrArg Except.ok (executorNode_congr researchProfile rfl hs hr)
      | visionDetection => exact congrArg Except.ok (executorNode_congr visionProfile rfl hs hr)
  | supervisorRouter | planner | directExecutorInit | actionTracker | tools | findingExtractor
  | criticAgent | reflectionAgent | taskManager | finalSynthesizer => rfl

theorem streamed_congr (hs : s.userId = some userId) (hr : SameFor userId env retrieve) (n : Node) :
    streamed rt { env with retrieve := retrieve } n s = streamed rt env n s := by
  have hchunks : nodeChunks rt { env with retrieve := retrieve } n s = nodeChunks rt env n s := by
    cases n with
    | executor l =>
        cases l with
        | generalMemory => exact executorChunks_congr generalProfile rfl hs hr
        | researchPapers =>
            exact congrArg (_ ++ ·) (executorChunks_congr researchProfile rfl hs hr)
        | visionDetection => exact executorChunks_congr visionProfile rfl hs hr
    | supervisorRouter | planner | directExecutorInit | actionTracker | tools | findingExtractor
    | criticAgent | reflectionAgent | taskManager | finalSynthesizer => rfl
  unfold streamed
  rw [hchunks]

theorem superstep_congr (hs : s.userId = some userId) (hr : SameFor userId env retrieve) (n : Node) :
    superstep rt { env with retrieve := retrieve } n s = superstep rt env n s := by
  have hstep : step rt { env with retrieve := retrieve } ⟨some n, s⟩ = step rt env ⟨some n, s⟩ := by
    simp only [step, runNode_congr hs hr]
  unfold superstep
  rw [hstep]

end SameFor

/-- No node changes the user. -/
theorem userId_of_step {rt : Runtime} {c c' : Config} (h : Step rt c c') :
    c'.state.userId = c.state.userId := by
  cases h.transition <;> rfl

end Server
end CognitiveEngine
