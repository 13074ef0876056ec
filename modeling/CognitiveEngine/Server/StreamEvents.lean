/-
# One call of a chat endpoint, event by event

`StreamChat` and `chat_stream_endpoint` between the events of `astream_events` and
the outside: what a call sends, saves, publishes and stores, in order.  The run of
the graph is any sequence of events here, after which it may raise, and
`context.cancelled()` may have become true at any of them.  A call that is broken
off, by a `CancelledError` or because its generator is closed, has done the first
few of its deeds and none of the others.  A graph that `compile` raises for is one that
raises before its first event; the tracers of `chat_stream_endpoint` (`CallbackHandler`,
`LangChainTracer`) are taken to be made.

`Streaming` says which chunks the nodes of the graph stream; `passed_nodeEvents`
says that those are what a call passes on.
-/

import CognitiveEngine.Machine.Pieces
import CognitiveEngine.Server.AsymmetricHelper
import CognitiveEngine.Server.Chat

namespace CognitiveEngine
namespace Server

open CognitiveEngine.Graph

variable {C V : Type}

/-! ### Events and deeds -/

/-- The output of the graph, as its `on_chain_end` event carries it. -/
structure FinalOutput where
  messages : List Message
  currentDomain : Option String

/-- What a run of the graph gives to its endpoint, or to its checkpointer. -/
inductive GraphEvent (C : Type) where
  /-- `on_chat_model_stream`, with the node and the content of the chunk. -/
  | chatModelStream (node content : String)
  /-- `on_chain_end`, with the name of the chain. -/
  | chainEnd (name : String) (output : FinalOutput)
  | other
  /-- A superstep has ended; the checkpointer, if there is one, saves it. -/
  | checkpoint (c : C)

/-- The name of a node in `workflow.add_node`. -/
def nodeName : Node → String
  | .supervisorRouter => "supervisor_router"
  | .planner => "planner"
  | .directExecutorInit => "direct_executor_init"
  | .executor lane => lane.name
  | .actionTracker => "action_tracker"
  | .tools => "tools"
  | .findingExtractor => "finding_extractor"
  | .criticAgent => "critic_agent"
  | .reflectionAgent => "reflection_agent"
  | .taskManager => "task_manager"
  | .finalSynthesizer => "final_synthesizer"

/-- The receipt of a reply. -/
structure Receipt where
  sessionId : String
  timestamp : ℕ
  responseHash : String
  signature : String
  keyId : String

/-- A message of the reply: a `ChatResponse`, or the chunk or the receipt that the
HTTP endpoint writes as an event. -/
structure ChatResponse where
  chunk : String
  receipt : Option Receipt

/-- What a call does to its client and to the stores. -/
inductive Deed (C : Type) where
  | send (r : ChatResponse)
  /-- `AsyncRedisSaver`, and the thread the graph is compiled for. -/
  | openCheckpointer (threadId : String)
  | save (threadId : String) (c : C)
  | publish (m : QueueMessage)
  /-- `semantic_cache.set`, and whether it goes through. -/
  | cacheSet (prompt response : String) (taken : Bool)

/-- What outlives a call: the checkpoints by thread id, the extraction queue and the
collections of the vector database. -/
structure Stores (C V : Type) where
  checkpoints : String → Option C
  queue : List QueueMessage
  collections : Collections V

/-- The last event of a run of the graph. -/
def GraphEvent.isFinal : GraphEvent C → Bool
  | .chainEnd name _ => name == "compiled_graph"
  | _ => false

/-- What a call meets outside. -/
structure Encounter (C V : Type) where
  stores : Stores C V
  /-- Redis can be reached for the checkpointer. -/
  saverOpens : Bool
  /-- The events of the graph, each with what `context.cancelled()` is then. -/
  events : List (GraphEvent C × Bool)
  /-- Nothing comes after the end of the graph. -/
  final_last : ∀ before event after, events = before ++ event :: after → event.1.isFinal →
    after = []
  /-- The graph raises after them. -/
  graphRaises : Bool
  /-- `semantic_cache.set` goes through. -/
  cacheTakes : Bool
  /-- `int(time.time())` when the receipt is made. -/
  timestamp : ℕ
  keys : Es256

/-- Nothing comes after a final event that is the last of the list. -/
theorem final_last_of_dropLast {events : List (GraphEvent C × Bool)}
    (h : ∀ event ∈ events.dropLast, event.1.isFinal = false) (before : List (GraphEvent C × Bool))
    (event : GraphEvent C × Bool) (after : List (GraphEvent C × Bool))
    (heq : events = before ++ event :: after) (hfinal : event.1.isFinal) : after = [] := by
  rcases List.eq_nil_or_concat after with rfl | ⟨after, last, rfl⟩
  · rfl
  · have hmem : event ∈ events.dropLast := by
      rw [heq, List.concat_eq_append, ← List.cons_append, ← List.append_assoc,
        List.dropLast_concat]
      simp
    exact absurd hfinal (by simp [h event hmem])

/-! ### The loop over the events -/

/-- `ai_full_response_text`, `final_state_messages` and the domain. -/
structure Progress where
  text : String
  finalMessages : List Message
  domain : String

/-- Before the first event. -/
def Progress.start : Progress := ⟨"", [], "general_memory"⟩

/-- The text of the chunk that an event passes on. -/
def GraphEvent.passed : GraphEvent C → String
  | .chatModelStream node content => if node = "supervisor_router" then "" else content
  | _ => ""

/-- One event of the graph, which is compiled for a thread or without a checkpointer. -/
def Progress.hear (thread : Option String) (p : Progress) (event : GraphEvent C) :
    List (Deed C) × Progress :=
  match event with
  | .chatModelStream node content =>
      if node = "supervisor_router" ∨ content = "" then ([], p)
      else ([.send ⟨content, none⟩], { p with text := p.text ++ content })
  | .chainEnd name output =>
      if name = "compiled_graph" then
        ([], { p with
          finalMessages := output.messages
          domain := output.currentDomain.getD "general_memory" })
      else ([], p)
  | .other => ([], p)
  | .checkpoint c => (thread.toList.map (Deed.save · c), p)

/-- The `async for`. -/
def Progress.hearAll (thread : Option String) :
    Progress → List (GraphEvent C) → List (Deed C) × Progress
  | p, [] => ([], p)
  | p, event :: events =>
      let (deeds, p') := p.hear thread event
      let (deeds', p'') := p'.hearAll thread events
      (deeds ++ deeds', p'')

/-- The loop sees the event; a checkpoint is none of its events. -/
def GraphEvent.arrives : GraphEvent C → Bool
  | .checkpoint _ => false
  | _ => true

/-- The events up to the first one at which the call finds itself cancelled. -/
def untilCancelled : List (GraphEvent C × Bool) → List (GraphEvent C)
  | [] => []
  | (event, cancelled) :: events =>
      if cancelled && event.arrives then [] else event :: untilCancelled events

/-- The loop is left by its `break`. -/
def breaksOff (events : List (GraphEvent C × Bool)) : Bool :=
  events.any fun event => event.2 && event.1.arrives

/-! ### The endpoints -/

/-- The thread of a call in the checkpointer; an anonymous one has none. -/
def Call.threadId? (x : Call) : Option String :=
  if isAnonymous x.request.userId then none else some (conversationOf x.request).threadId

/-- `publish_extraction_task`, unless there is nothing to extract from. -/
def Call.publication (x : Call) (p : Progress) : List (Deed C) :=
  if !p.finalMessages.isEmpty && !isAnonymous x.request.userId then
    [.publish ⟨x.request.userId, x.request.sessionId,
      firstTruthy (some p.domain) (some "general_memory")⟩]
  else []

/-- `data_to_sign`. -/
def dataToSign (sessionId : String) (timestamp : ℕ) (responseHash : String) : String :=
  sessionId ++ ":" ++ Nat.repr timestamp ++ ":" ++ responseHash

variable (cache : SemanticCache V) (x : Call) (e : Encounter C V)

/-- The receipt of a text; `none` when the signature raises. -/
def receiptOf (text : String) : Option Receipt :=
  let responseHash := cache.sha256 text
  (e.keys.signDataEs256 (dataToSign x.request.sessionId e.timestamp responseHash)).map fun signature =>
    ⟨x.request.sessionId, e.timestamp, responseHash, signature, "secp256r1-default-key"⟩

/-- `StreamChat` after its loop: what it does then, and whether it fails. -/
def finishStreamChat (p : Progress) : List (Deed C) × Bool :=
  if p.text = "" then (x.publication p, false)
  else
    let deeds := x.publication p ++ [.cacheSet x.request.prompt p.text e.cacheTakes]
    if !e.cacheTakes then (deeds, true)
    else
      match receiptOf cache x e p.text with
      | none => (deeds, true)
      | some receipt => (deeds ++ [.send ⟨"", some receipt⟩], false)

/-- `chat_stream_endpoint` after its loop. -/
def finishChatStream (p : Progress) : List (Deed C) × Bool :=
  if p.text = "" then (x.publication p, false)
  else
    match receiptOf cache x e p.text with
    | none => ([], true)
    | some receipt =>
        let deeds := [.send ⟨"", some receipt⟩, .cacheSet x.request.prompt p.text e.cacheTakes]
        if !e.cacheTakes then (deeds, true) else (deeds ++ x.publication p, false)

/-- The events the loop of a call hears; only `StreamChat` asks whether it has been
cancelled. -/
def heard : List (GraphEvent C) :=
  match x.endpoint with
  | .streamChat => untilCancelled e.events
  | .chatStream => e.events.map Prod.fst

/-- The loop of a call raises. -/
def loopRaises : Bool :=
  match x.endpoint with
  | .streamChat => e.graphRaises && !breaksOff e.events
  | .chatStream => e.graphRaises

/-- What comes after the loop. -/
def finish (p : Progress) : List (Deed C) × Bool :=
  match x.endpoint with
  | .streamChat => finishStreamChat cache x e p
  | .chatStream => finishChatStream cache x e p

/-- The part of a call that runs the graph: the checkpointer is opened, the loop
runs, and the end follows unless one of them raises. -/
def runGraph : List (Deed C) × Bool :=
  let opening := x.threadId?.toList.map Deed.openCheckpointer
  if x.threadId?.isSome && !e.saverOpens then (opening, true)
  else
    let (deeds, p) := Progress.start.hearAll x.threadId? (heard x e)
    if loopRaises x e then (opening ++ deeds, true)
    else
      let (deeds', failed) := finish cache x e p
      (opening ++ deeds ++ deeds', failed)

/-- A call of an endpoint: what it does, in order, and whether it fails. -/
def serve : List (Deed C) × Bool :=
  match cache.get (e.stores.collections "semantic_cache") x.request.prompt with
  | none => ([], true)
  | some (some cachedReply) => ([.send ⟨cachedReply, none⟩], false)
  | some none =>
      match x.config with
      | none => ([], true)
      | some _ => runGraph cache x e

/-! ### The loop, taken as a whole -/

/-- The chunk field of what is sent. -/
def Deed.chunk : Deed C → String
  | .send r => r.chunk
  | _ => ""

/-- A deed of a call before the end of its loop. -/
def Deed.ofLoop : Deed C → Prop
  | .send r => r.receipt = none
  | .openCheckpointer _ | .save _ _ => True
  | .publish _ | .cacheSet _ _ _ => False

variable {thread : Option String}

theorem hear_text (p : Progress) (event : GraphEvent C) :
    (p.hear thread event).2.text = p.text ++ event.passed := by
  cases event with
  | chatModelStream node content =>
      by_cases h : node = "supervisor_router" <;> by_cases hc : content = "" <;>
        simp [Progress.hear, GraphEvent.passed, h, hc]
  | chainEnd name output =>
      by_cases h : name = "compiled_graph" <;> simp [Progress.hear, GraphEvent.passed, h]
  | other | checkpoint => simp [Progress.hear, GraphEvent.passed]

/-- **The accumulated text is what was passed on.** -/
theorem hearAll_text (p : Progress) (events : List (GraphEvent C)) :
    (p.hearAll thread events).2.text = p.text ++ String.join (events.map GraphEvent.passed) := by
  induction events generalizing p with
  | nil => simp [Progress.hearAll]
  | cons event events ih =>
      rw [Progress.hearAll, ih, hear_text, List.map_cons, String.join_cons, String.append_assoc]

theorem hear_chunks (p : Progress) (event : GraphEvent C) :
    String.join ((p.hear thread event).1.map Deed.chunk) = event.passed := by
  cases event with
  | chatModelStream node content =>
      by_cases h : node = "supervisor_router" <;> by_cases hc : content = "" <;>
        simp [Progress.hear, GraphEvent.passed, Deed.chunk, h, hc]
  | chainEnd name output =>
      by_cases h : name = "compiled_graph" <;> simp [Progress.hear, GraphEvent.passed, h]
  | other => rfl
  | checkpoint c => cases thread <;> simp [Progress.hear, GraphEvent.passed, Deed.chunk]

/-- **What was sent is what was passed on.** -/
theorem hearAll_chunks (p : Progress) (events : List (GraphEvent C)) :
    String.join ((p.hearAll thread events).1.map Deed.chunk)
      = String.join (events.map GraphEvent.passed) := by
  induction events generalizing p with
  | nil => rfl
  | cons event events ih =>
      rw [Progress.hearAll, List.map_append, String.join_append, hear_chunks, ih, List.map_cons,
        String.join_cons]

theorem hear_ofLoop (p : Progress) (event : GraphEvent C) :
    ∀ d ∈ (p.hear thread event).1, d.ofLoop := by
  cases event with
  | chatModelStream node content =>
      by_cases h : node = "supervisor_router" ∨ content = "" <;>
        simp [Progress.hear, Deed.ofLoop, h]
  | chainEnd name output =>
      by_cases h : name = "compiled_graph" <;> simp [Progress.hear, h]
  | other => simp [Progress.hear]
  | checkpoint c => cases thread <;> simp [Progress.hear, Deed.ofLoop]

/-- The loop publishes nothing, stores nothing in the cache and sends no receipt. -/
theorem hearAll_ofLoop (p : Progress) (events : List (GraphEvent C)) :
    ∀ d ∈ (p.hearAll thread events).1, d.ofLoop := by
  induction events generalizing p with
  | nil => simp [Progress.hearAll]
  | cons event events ih =>
      rw [Progress.hearAll, List.forall_mem_append]
      exact ⟨hear_ofLoop p event, ih _⟩

/-! ### How a call ends -/

/-- The call runs the graph, and neither the checkpointer nor the loop raises. -/
structure Completes : Prop where
  missed : cache.get (e.stores.collections "semantic_cache") x.request.prompt = some none
  configured : x.config.isSome
  opened : x.threadId?.isSome → e.saverOpens
  survived : loopRaises x e = false

/-- What the loop has come to at its end. -/
def progress : Progress := (Progress.start.hearAll x.threadId? (heard x e)).2

/-- What a call does up to the end of its loop. -/
def loopDeeds : List (Deed C) :=
  x.threadId?.toList.map .openCheckpointer ++
    (Progress.start.hearAll x.threadId? (heard x e)).1

theorem loopDeeds_ofLoop : ∀ d ∈ loopDeeds x e, d.ofLoop := by
  intro d hd
  rcases List.mem_append.1 hd with hd | hd
  · obtain ⟨thread, -, rfl⟩ := List.mem_map.1 hd
    trivial
  · exact hearAll_ofLoop _ _ d hd

theorem progress_text : (progress x e).text = String.join ((heard x e).map GraphEvent.passed) := by
  rw [progress, hearAll_text, Progress.start, String.empty_append]

theorem loopDeeds_chunks :
    String.join ((loopDeeds x e).map Deed.chunk) = (progress x e).text := by
  have hopening : String.join
      ((x.threadId?.toList.map (.openCheckpointer : String → Deed C)).map Deed.chunk) = "" := by
    rw [Machine.join_map_eq_empty_iff]
    simp [Deed.chunk]
  rw [loopDeeds, List.map_append, String.join_append, hopening, hearAll_chunks,
    String.empty_append, progress_text]

/-- **How a call goes.**  It completes, and goes on with its end; it is answered from
the cache; or it fails on the way to the end. -/
theorem serve_cases :
    (Completes cache x e ∧ serve cache x e
      = (loopDeeds x e ++ (finish cache x e (progress x e)).1,
        (finish cache x e (progress x e)).2)) ∨
    (∃ cachedReply,
      cache.get (e.stores.collections "semantic_cache") x.request.prompt = some (some cachedReply) ∧
      serve cache x e = ([.send ⟨cachedReply, none⟩], false)) ∨
    (¬ Completes cache x e ∧ (serve cache x e).2 = true ∧
      (serve cache x e).1 <+: loopDeeds x e) := by
  unfold serve
  cases hget : cache.get (e.stores.collections "semantic_cache") x.request.prompt with
  | none =>
      refine .inr (.inr ⟨fun h => ?_, rfl, List.nil_prefix⟩)
      exact absurd (hget.symm.trans h.missed) nofun
  | some found =>
      cases found with
      | some cachedReply => exact .inr (.inl ⟨cachedReply, rfl, rfl⟩)
      | none =>
          cases hconfig : x.config with
          | none =>
              refine .inr (.inr ⟨fun h => ?_, rfl, List.nil_prefix⟩)
              have := h.configured
              simp [hconfig] at this
          | some config =>
              by_cases hopen : x.threadId?.isSome ∧ e.saverOpens = false
              · refine .inr (.inr ⟨fun h => ?_, ?_, ?_⟩)
                · exact absurd (h.opened hopen.1) (by simp [hopen.2])
                · simp [runGraph, hopen]
                · simp [runGraph, hopen, loopDeeds]
              · have hopened : (x.threadId?.isSome && !e.saverOpens) = false := by simpa using hopen
                by_cases hraises : loopRaises x e
                · refine .inr (.inr ⟨fun h => ?_, ?_, ?_⟩)
                  · exact absurd hraises (by simp [h.survived])
                  · simp [runGraph, hopened, hraises]
                  · simp [runGraph, hopened, hraises, loopDeeds]
                · refine .inl ⟨⟨hget, by simp [hconfig], fun h => ?_, by simpa using hraises⟩, ?_⟩
                  · by_contra hnot
                    exact hopen ⟨h, by simpa using hnot⟩
                  · simp [runGraph, hopened, hraises, loopDeeds, progress]

/-- **What comes after the loop:** a task, what the cache is to store, and a receipt. -/
theorem mem_finish {p : Progress} {d : Deed C} (h : d ∈ (finish cache x e p).1) :
    d ∈ x.publication p ∨ d = .cacheSet x.request.prompt p.text e.cacheTakes ∨
      ∃ receipt, d = .send ⟨"", some receipt⟩ := by
  by_cases htext : p.text = ""
  · cases hx : x.endpoint <;>
      exact .inl (by simpa [finish, hx, finishStreamChat, finishChatStream, htext] using h)
  · cases hx : x.endpoint with
    | streamChat =>
        cases hr : receiptOf cache x e p.text <;> cases ht : e.cacheTakes <;>
          simp [finish, hx, finishStreamChat, htext, hr, ht] at h <;> tauto
    | chatStream =>
        cases hr : receiptOf cache x e p.text <;> cases ht : e.cacheTakes <;>
          simp [finish, hx, finishChatStream, htext, hr, ht] at h <;> tauto

/-- A call of the second endpoint needs a receipt before it stores its text. -/
def Signs : Prop :=
  x.endpoint = .chatStream → (receiptOf cache x e (progress x e).text).isSome

/-- **What a call asks the cache to store:** the text it has passed on, when it
completes and has any. -/
theorem cacheSet_mem_serve {prompt response : String} {taken : Bool} :
    .cacheSet prompt response taken ∈ (serve cache x e).1 ↔
      Completes cache x e ∧ Signs cache x e ∧ (progress x e).text ≠ "" ∧
        prompt = x.request.prompt ∧ response = (progress x e).text ∧ taken = e.cacheTakes := by
  have hpublication (p : Progress) : .cacheSet prompt response taken ∉ x.publication (C := C) p := by
    unfold Call.publication
    split <;> simp
  have hloop : .cacheSet prompt response taken ∉ loopDeeds x e := fun h =>
    loopDeeds_ofLoop x e _ h
  rcases serve_cases cache x e with ⟨hcompletes, heq⟩ | ⟨cachedReply, hget, heq⟩ | ⟨hnot, -, hdeeds⟩
  · rw [heq, List.mem_append, or_iff_right hloop, and_iff_right hcompletes]
    by_cases htext : (progress x e).text = ""
    · cases hx : x.endpoint <;>
        simp [finish, hx, finishStreamChat, finishChatStream, htext, hpublication]
    · cases hx : x.endpoint with
      | streamChat =>
          cases hr : receiptOf cache x e (progress x e).text <;> cases ht : e.cacheTakes <;>
            simp [finish, hx, finishStreamChat, htext, hpublication, hr, ht, Signs]
      | chatStream =>
          cases hr : receiptOf cache x e (progress x e).text <;> cases ht : e.cacheTakes <;>
            simp [finish, hx, finishChatStream, htext, hpublication, hr, ht, Signs]
  · rw [heq]
    refine iff_of_false (by simp) fun h => ?_
    exact absurd (hget.symm.trans h.1.missed) nofun
  · exact iff_of_false (fun h => hloop (hdeeds.subset h)) fun h => hnot h.1

/-! ### The chunks of the nodes -/

/-- The events of the chunks that the models of a node stream. -/
def nodeEvents (rt : Runtime) (env : Env) (n : Node) (s : AgentState) : List (GraphEvent C) :=
  (nodeChunks rt env n s).map (.chatModelStream (nodeName n))

/-- **Of the chunks of a node the loop passes on those `streamed` lists.** -/
theorem passed_nodeEvents (rt : Runtime) (env : Env) (n : Node) (s : AgentState) :
    String.join ((nodeEvents rt env n s : List (GraphEvent C)).map GraphEvent.passed)
      = String.join (streamed rt env n s) := by
  have hname : nodeName n = "supervisor_router" ↔ n = .supervisorRouter := by
    cases n with
    | executor lane => cases lane <;> simp [nodeName, Lane.name]
    | _ => simp [nodeName]
  by_cases hn : n = .supervisorRouter
  · rw [streamed, if_pos hn, nodeEvents, List.map_map, String.join_nil]
    refine Machine.join_map_eq_empty_iff.2 fun chunk _ => ?_
    simp [GraphEvent.passed, hname.2 hn]
  · rw [streamed, if_neg hn, nodeEvents, List.map_map]
    have hpassed : GraphEvent.passed ∘ .chatModelStream (C := C) (nodeName n) = id := by
      funext chunk
      simp [GraphEvent.passed, hname, hn]
    rw [hpassed, List.map_id]
    exact (Machine.join_filter_ne_empty _).symm

/-! ### A call that meets with no trouble -/

/-- A cache over one embedding. -/
def plainCache : SemanticCache Unit where
  vectorStore := .exhaustive fun _ _ => 1
  embed _ := ()
  modelVersion := "gpt-4o"
  threshold := 1
  topK := 5
  rerankAlpha := 1
  lower := id
  sha256 := listedSha256.value
  uuid5 := listedUuid5.value

/-- A question about the tides, to one of the endpoints. -/
def tidesCall (endpoint : Endpoint) (userId : String) : Call where
  endpoint := endpoint
  request := ⟨userId, "s1", "What makes the tides?"⟩
  providerHeader := none
  keyHeader := none
  userConfig := .stored (some "openai") (some "sk-1") false

/-- Keys that sign a text with its own bytes. -/
def utf8Keys : Es256 where
  privateKeyLoads := true
  publicKeyLoads := true
  sign data := data.toUTF8.data.toList
  verify signature data := signature == data.toUTF8.data.toList

theorem utf8Keys_matching : utf8Keys.Matching where
  publicKeyLoads := rfl
  verify_sign data data' := by
    rw [utf8Keys, beq_iff_eq, Array.toList_inj, ByteArray.ext_iff.symm, eq_comm]
    exact String.toByteArray_inj

theorem utf8Keys_sign (data : String) : utf8Keys.signDataEs256 data
    = some (String.ofList (Machine.Base64.encode Machine.Base64.standard (utf8Keys.sign data))) := rfl

theorem utf8Keys_exact : utf8Keys.Exact := by
  intro signature data data' h h'
  rw [utf8Keys, beq_iff_eq] at h h'
  have hbytes := Array.toList_inj.1 (h.symm.trans h')
  exact String.toByteArray_inj.1 (ByteArray.ext hbytes)

/-- Every chunk of a run arrives, and everything outside works. -/
def smoothEncounter (chunks : List (String × String)) (stored : List (Point Unit)) :
    Encounter Unit Unit where
  stores := ⟨fun _ => none, [], fun name => if name = "semantic_cache" then some stored else none⟩
  saverOpens := true
  events := chunks.map (fun chunk => (.chatModelStream chunk.1 chunk.2, false)) ++
    [(.chainEnd "compiled_graph" ⟨[.ai "The moon." []], some "general_memory"⟩, false)]
  final_last := final_last_of_dropLast fun event hevent => by
    rw [List.dropLast_concat] at hevent
    obtain ⟨chunk, -, rfl⟩ := List.mem_map.1 hevent
    rfl
  graphRaises := false
  cacheTakes := true
  timestamp := 1767225600
  keys := utf8Keys

end Server
end CognitiveEngine
