/-
# What the graph calls outside itself

`Runtime` is what stays the same while the process lives: the standard-library
functions the graph's texts and keys go through (`hashlib.md5`, `str` and `repr`
of Python values), the tokenizer, the cached manifest and the settings.

`Env` is the outside world as one superstep of the graph meets it: the answer of
every chat model to every list of messages, the retriever and the tools.  A run
is fed one `Env` per superstep, so nothing is assumed about how two answers of
the same model relate; a deterministic world is a constant sequence.

What is called here is taken to return.  For the tokenizer that is `Runtime.encodes`, for
the models `Env.Returns`: the superstep of the endpoints, which is `Server.superstep`,
raises in a world that does not.

A chat model that streams hands its answer over in chunks; the content of the
message it returns is their concatenation.  A structured call may also raise (a
refused or unparsable answer), which is `none` here.
-/

import CognitiveEngine.Graph.State

namespace CognitiveEngine
namespace Graph

/-- The settings `app/graph/nodes.py` reads. -/
structure GraphSettings where
  maxContextTokens : ℕ
  tier1FastModel : String
  tier2BalancedModel : String
  tier3ReasoningModel : String

/-- The part of the process that does not change between supersteps. -/
structure Runtime where
  /-- `hashlib.md5(x.encode()).hexdigest()`. -/
  md5Hexdigest : String → String
  /-- `str` of a list of `(key, value)` pairs. -/
  strItems : List (String × Json) → String
  /-- `str` of a list of finding dictionaries. -/
  strFindings : List Finding → String
  /-- `str` of a list of strings. -/
  strStrings : List String → String
  /-- `encoding.encode(text)`, for the encoding of a model name; `none` when it raises. -/
  encode : String → String → Option (List ℕ)
  /-- It is taken to return; the real one refuses a text that spells one of its special
  tokens. -/
  encodes : ∀ modelName text, (encode modelName text).isSome
  /-- `load_agent_manifest_instructions()`. -/
  manifest : String
  settings : GraphSettings

/-- `len(encoding.encode(text))`. -/
def Runtime.tokenCount (rt : Runtime) (modelName text : String) : ℕ :=
  ((rt.encode modelName text).get (rt.encodes modelName text)).length

/-- The part of `config["configurable"]` that selects a chat model. -/
structure RunnableConfig where
  llmProvider : Option String
  apiKey : Option String

/-- The arguments that select a chat model: the tier and the configuration given
to `get_llm_instance`, and the domain whose tools are bound to it, if any. -/
structure ChatModel where
  tier : ℕ
  config : Option RunnableConfig
  boundDomain : Option String

/-- `get_llm_instance(tier, config)`. -/
def getLlmInstance (tier : ℕ) (config : Option RunnableConfig) : ChatModel :=
  ⟨tier, config, none⟩

/-- `get_cached_bound_llm(domain, base_llm)`. -/
def getCachedBoundLlm (domain : String) (base : ChatModel) : ChatModel :=
  { base with boundDomain := some domain }

/-- The answer of a chat model: the chunks it streams and the tools it calls. -/
structure ChatReply where
  chunks : List String
  toolCalls : List ToolCall

/-- `response.content`. -/
def ChatReply.content (r : ChatReply) : String := String.join r.chunks

/-- The `AIMessage` the answer is. -/
def ChatReply.message (r : ChatReply) : Message := .ai r.content r.toolCalls

/-- The answer to a structured call: the chunks it streams, and the parsed
output, or `none` when the call raises. -/
structure Structured (α : Type) where
  chunks : List String
  output : Option α

/-- The outside world during one superstep. -/
structure Env where
  /-- The configuration the run was started with. -/
  config : RunnableConfig
  chat : ChatModel → List Message → ChatReply
  router : ChatModel → List Message → Structured SupervisorRouterOutput
  planner : ChatModel → List Message → Structured PlannerOutput
  extractor : ChatModel → List Message → Structured ExecutorOutput
  critic : ChatModel → List Message → Structured CriticOutput
  reflection : ChatModel → List Message → Structured ReflectionOutput
  /-- `container.hybrid_search.retrieve(user_id, query, collection)`. -/
  retrieve : String → String → String → String
  /-- The text of the `ToolMessage` a tool call is answered with. -/
  callTool : ToolCall → String

/-- `configurable.get("llm_provider", "").lower()` does not raise. -/
def knowsProvider (config : RunnableConfig) : Bool := config.llmProvider.isSome

/-- The exceptions a node or router of the graph can raise by itself. -/
inductive PyError where
  /-- `state["messages"][-1]` on an empty list. -/
  | indexError
  /-- A router's label that the edge map does not have. -/
  | keyError (label : String)
  /-- The tools node found no AI message to answer. -/
  | valueError
  deriving DecidableEq

end Graph
end CognitiveEngine
