/-
# The chat endpoints

`AgentServiceServicer.StreamChat` (`app/grpc_server.py`) and `chat_stream_endpoint`
(`app/api/routes/chat.py`).  Both look the prompt up in the semantic cache, read the
user's provider configuration, run the graph on the thread of the conversation,
stream what its models say, and store the text of a finished answer in the cache.
They differ in where the configuration comes from and in how a piece of text is
sent: the second one writes it as a server-sent event.

Requests are served at the same time.  What happens between two of their awaits is
one action here: the lookup, the start on the thread, a superstep of the graph, the
end.  A history is any order of such actions; `World.handle` says what each does.

`World` is the deployment: the chat models as functions of their messages, the
retriever and the cache.  The signed receipt, the metrics and the publication of the
extraction task do not touch what is modelled here.  What is called of libraries before
the graph runs is taken to return: `compile` of the compiled graph, and the tracers that
`chat_stream_endpoint` makes (`CallbackHandler`, `LangChainTracer`).
-/

import CognitiveEngine.Server.Conversations
import CognitiveEngine.Server.SemanticCache
import CognitiveEngine.Server.Streaming

namespace CognitiveEngine
namespace Server

open CognitiveEngine.Graph Machine

variable {V : Type}

/-! ### Calls and their configuration -/

/-- What Redis has under `user_config:{user_id}`: nothing, bytes that are no JSON object,
or a record. -/
inductive UserConfig where
  | absent
  | unreadable
  | stored (llmProvider apiKey : Option String) (useDefaultKey : Bool)

/-- `a or b`. -/
def firstTruthy (a b : Option String) : Option String :=
  match a with
  | some x => if x = "" then b else some x
  | none => b

/-- The configuration of `StreamChat`; the headers come first.  `use_default_key` is
assigned only when a record was read, and the expression that reads it raises
otherwise: `none`. -/
def streamChatConfig (providerHeader keyHeader : Option String) :
    UserConfig → Option RunnableConfig
  | .absent | .unreadable => none
  | .stored llmProvider apiKey useDefaultKey => some {
      llmProvider := firstTruthy providerHeader llmProvider
      apiKey := if useDefaultKey then none else firstTruthy keyHeader apiKey }

/-- The configuration of `chat_stream_endpoint`.  What it cannot read makes it raise: its
handler calls `error` of the module `app.core.logger`, which has none. -/
def chatStreamConfig : UserConfig → Option RunnableConfig
  | .absent => some ⟨none, none⟩
  | .unreadable => none
  | .stored llmProvider apiKey useDefaultKey =>
      some ⟨llmProvider, if useDefaultKey then none else apiKey⟩

/-- A chat request at an endpoint, with the configuration stored for its user. -/
structure Call where
  endpoint : Endpoint
  request : ChatRequest
  /-- `x-llm-provider` and `x-api-key` of the gRPC metadata. -/
  providerHeader : Option String
  keyHeader : Option String
  userConfig : UserConfig

/-- What a call sends to its user: pieces of reply text in order, and whether it
fails there. -/
structure Sent where
  userId : String
  pieces : List String
  failed : Bool
  deriving DecidableEq

namespace Call

/-- The configuration its run gets; `none` when reading it raises. -/
def config (x : Call) : Option RunnableConfig :=
  match x.endpoint with
  | .streamChat => streamChatConfig x.providerHeader x.keyHeader x.userConfig
  | .chatStream => chatStreamConfig x.userConfig

/-- How a piece of the reply text is sent. -/
def frame (x : Call) (content : String) : String :=
  match x.endpoint with
  | .streamChat => content
  | .chatStream => "data: " ++ content ++ "\n\n"

/-- Contents sent to the user of the call. -/
def sends (x : Call) (contents : List String) (failed : Bool) : Sent :=
  ⟨x.request.userId, contents.map x.frame, failed⟩

end Call

/-! ### The state of the endpoints -/

/-- A call whose graph runs: its configuration, the thread it was started on, where
the graph is, and `ai_full_response_text`. -/
structure Run where
  call : Call
  config : RunnableConfig
  thread : Checkpoint
  current : Config
  text : String

/-- The turn of a run. -/
def Run.turn (r : Run) : LiveTurn := ⟨conversationOf r.call.request, r.current, r.thread⟩

/-- How far a call has come. -/
inductive Phase where
  /-- Its prompt was not in the cache. -/
  | missed (x : Call)
  | running (r : Run)

/-- The user of a call in flight. -/
def Phase.userId : Phase → String
  | .missed x => x.request.userId
  | .running r => r.call.request.userId

/-- What the endpoints share, and the calls in flight. -/
structure ChatService (V : Type) where
  /-- The collection `semantic_cache`. -/
  cache : Option (List (Point V))
  /-- For whose request an entry was stored, by point id; nothing reads this. -/
  cachedFor : String → Option String
  store : Checkpointer
  inFlight : ℕ → Option Phase

/-- The outside world of a superstep: the long-term facts and the tools. -/
structure Outside (V : Type) where
  facts : Collections V
  tools : ToolCall → String

/-- The deployment. -/
structure World (V : Type) where
  runtime : Runtime
  chat : ChatModel → List Message → ChatReply
  router : ChatModel → List Message → Structured SupervisorRouterOutput
  planner : ChatModel → List Message → Structured PlannerOutput
  extractor : ChatModel → List Message → Structured ExecutorOutput
  critic : ChatModel → List Message → Structured CriticOutput
  reflection : ChatModel → List Message → Structured ReflectionOutput
  retriever : HybridRetriever V
  semanticCache : SemanticCache V

/-- The collections a retrieval can name: the facts, and the cache. -/
def Outside.collections (o : Outside V) (s : ChatService V) : Collections V :=
  Function.update o.facts "semantic_cache" s.cache

/-- The outside world a superstep of the graph meets. -/
def World.env (w : World V) (config : RunnableConfig) (o : Outside V) (s : ChatService V) :
    Env where
  config := config
  chat := w.chat
  router := fun model messages => structuredCall config (w.router model messages)
  planner := fun model messages => structuredCall config (w.planner model messages)
  extractor := fun model messages => structuredCall config (w.extractor model messages)
  critic := fun model messages => structuredCall config (w.critic model messages)
  reflection := fun model messages => structuredCall config (w.reflection model messages)
  retrieve := fun userId query collection =>
    w.retriever.retrieve (o.collections s) userId query collection 3
  callTool := o.tools

namespace ChatService

/-- The endpoints before the first request, the cache's collection being there. -/
def fresh : ChatService V := ⟨some [], fun _ => none, .empty, fun _ => none⟩

/-- The slot of a call written. -/
def put (s : ChatService V) (n : ℕ) (phase : Option Phase) : ChatService V :=
  { s with inFlight := Function.update s.inFlight n phase }

/-- The thread a request runs on; an anonymous one has no checkpointer. -/
def thread (s : ChatService V) (request : ChatRequest) : Checkpoint :=
  if isAnonymous request.userId then .empty else s.store (conversationOf request).threadId

/-- The run of a call on its thread, at the entry point of the graph. -/
def openRun (s : ChatService V) (x : Call) (config : RunnableConfig) : Run where
  call := x
  config := config
  thread := s.thread x.request
  current := startTurn (s.thread x.request).state x.request
  text := ""

/-- The checkpoint of a run. -/
def persist (s : ChatService V) (r : Run) : ChatService V :=
  if isAnonymous r.call.request.userId then s else { s with store := s.store.save r.turn }

/-- A run that has come to where it is: its checkpoint is written. -/
def proceed (s : ChatService V) (n : ℕ) (r : Run) : ChatService V :=
  (s.persist r).put n (some (.running r))

/-- `semantic_cache.set` for the text of an answer. -/
def remember (s : ChatService V) (cache : SemanticCache V) (request : ChatRequest)
    (text : String) : ChatService V :=
  { s with
    cache := cache.set s.cache request.prompt text
    cachedFor := Function.update s.cachedFor (cache.entry request.prompt text).id
      (some request.userId) }

end ChatService

/-- The run after a superstep that streamed some chunks. -/
def Run.advance (r : Run) (chunks : List String) (c : Config) : Run :=
  { r with
    current := c
    text := r.text ++ String.join chunks }

/-! ### Actions -/

/-- What can happen next; a call in flight is named by its slot. -/
inductive Action (V : Type) where
  /-- A call comes in and looks its prompt up. -/
  | request (n : ℕ) (x : Call)
  /-- It reads the configuration and starts the graph on its thread. -/
  | enter (n : ℕ)
  /-- The next superstep of its graph. -/
  | superstep (n : ℕ) (o : Outside V)
  /-- Its graph has come to the end. -/
  | finish (n : ℕ)

/-- The next superstep of a run: what it streams, and the run after it, `none` when
it raises. -/
def World.next (w : World V) (o : Outside V) (s : ChatService V) (r : Run) (node : Node) :
    List String × Option Run :=
  let env := w.env r.config o s
  let chunks := streamed w.runtime env node r.current.state
  (chunks, (superstep w.runtime env node r.current.state).map (r.advance chunks))

/-- `StreamChat` and `chat_stream_endpoint`, one action at a time: what is sent, and
the state afterwards. -/
def World.handle (w : World V) (s : ChatService V) : Action V → Option Sent × ChatService V
  | .request n x =>
      match w.semanticCache.get s.cache x.request.prompt with
      | none => (some (x.sends [] true), s.put n none)
      | some (some cachedReply) => (some (x.sends [cachedReply] false), s.put n none)
      | some none => (none, s.put n (some (.missed x)))
  | .enter n =>
      match s.inFlight n with
      | some (.missed x) =>
          match x.config with
          | none => (some (x.sends [] true), s.put n none)
          | some config => (none, s.proceed n (s.openRun x config))
      | _ => (none, s)
  | .superstep n o =>
      match s.inFlight n with
      | some (.running r) =>
          match r.current.next with
          | none => (none, s)
          | some node =>
              match w.next o s r node with
              | (chunks, none) => (some (r.call.sends chunks true), s.put n none)
              | (chunks, some r') => (some (r.call.sends chunks false), s.proceed n r')
      | _ => (none, s)
  | .finish n =>
      match s.inFlight n with
      | some (.running r) =>
          if r.current.next.isSome then (none, s)
          else if r.text = "" then (none, s.put n none)
          else (none, (s.remember w.semanticCache r.call.request r.text).put n none)
      | _ => (none, s)

/-- The events of a history of the endpoints. -/
abbrev ChatEvent (V : Type) : Type := Event (ChatService V) (Action V) (Option Sent)

/-- One action as a step. -/
def World.Handles (w : World V) (s : ChatService V) (act : Action V) (sent : Option Sent)
    (s' : ChatService V) : Prop :=
  w.handle s act = (sent, s')

end Server
end CognitiveEngine
