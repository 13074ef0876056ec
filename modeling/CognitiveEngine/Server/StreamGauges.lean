/-
# The gauges of active streams

`GRPC_ACTIVE_STREAMS` (`app/grpc_server.py`) is counted up by `StreamChat`,
`SSE_ACTIVE_STREAMS` (`app/core/metrics.py`) by `chat_stream_endpoint`, and each is counted
down in a `finally`.  A call is the program of its endpoint here, with every `await` and
every `yield` a point at which it may raise, be cancelled or be closed.

`StreamChat` counts up before its `try`, and in between Redis may raise or the user have
no configuration there.  `chat_stream_endpoint` counts up in its handler, when it has read
the configuration, and the `finally` is that of a generator that may never be asked for its
first chunk.
`gauges_balance_iff` says that the gauges are left as they were exactly when no call ends
in such a gap.

A generator that was started and is not read to its end is closed at last by the event
loop; that is one of the ways in which a call ends.
-/

import CognitiveEngine.Llm.Resolution
import CognitiveEngine.Machine.Unwinding
import CognitiveEngine.Server.StreamEvents
import Mathlib.Algebra.Order.BigOperators.Group.List

namespace CognitiveEngine
namespace Server

open CognitiveEngine.Graph CognitiveEngine.Llm Machine

/-! ### The two handlers -/

/-- The two gauges. -/
inductive Gauge where
  | grpcActiveStreams
  | sseActiveStreams
  deriving DecidableEq

/-- What a call does to the metrics. -/
inductive Metric where
  | inc (g : Gauge)
  | dec (g : Gauge)
  /-- `GRPC_ERRORS_TOTAL.inc()`. -/
  | grpcError
  /-- `SSE_DISCONNECT_TOTAL.labels(reason=reason).inc()`. -/
  | sseDisconnect (reason : String)
  deriving DecidableEq

/-- What a call meets outside before its graph runs, and the events of the graph. -/
structure Surroundings where
  /-- The first chunk of the response is asked for. -/
  started : Bool
  /-- `semantic_cache.get`: the reply, or how the call ends there. -/
  lookup : Except Ending (Option String)
  /-- `redis_client.get` returns, if there is a client, or the call ends there. -/
  redisGet : Except Ending Unit
  /-- The events of the graph, each with what `context.cancelled()` is then. -/
  events : List (GraphEvent Unit × Bool)

variable (x : Call) (o : Surroundings)

/-- An event is waited for, and its chunk is sent. -/
def hearEvent (event : GraphEvent Unit) : Prog Metric :=
  .seq .point (if event.passed = "" then .skip else .point)

/-- The graph runs, and ends after its events or raises there; it runs under a checkpointer
unless the user is anonymous. -/
def graphRun (events : List (GraphEvent Unit)) : Prog Metric :=
  let stream := .seq (.forEach events hearEvent) .point
  if isAnonymous x.request.userId then stream else .seq .point (.seq stream .point)

/-- The text that was sent. -/
def fullResponseText (events : List (GraphEvent Unit)) : String :=
  String.join (events.map GraphEvent.passed)

/-- The `try` of `StreamChat`: the graph, the cache, the signature and the receipt. -/
def streamChatBody : Prog Metric :=
  let events := untilCancelled o.events
  .seq (graphRun x events)
    (if fullResponseText events = "" then .skip else .seq .point (.seq .point .point))

/-- `StreamChat` from where it counts up. -/
def streamChatCounted : Prog Metric :=
  match o.redisGet with
  | .error e => .stop e
  | .ok () =>
      match streamChatConfig x.providerHeader x.keyHeader x.userConfig with
      | none => .stop .raised
      | some _ =>
          .ensure (.rescue (streamChatBody x o) (.effect .grpcError))
            fun _ => .effect (.dec .grpcActiveStreams)

/-- `StreamChat`, a generator itself. -/
def streamChatProgram : Prog Metric :=
  if o.started then
    match o.lookup with
    | .error e => .stop e
    | .ok cachedReply =>
        match truthyText cachedReply with
        | some _ => .point
        | none => .seq (.effect (.inc .grpcActiveStreams)) (streamChatCounted x o)
  else .skip

/-- `event_generator`: after its `finally` the traces are flushed, and the reply is stored
when it came to its end. -/
def eventGenerator : Prog Metric :=
  let events := o.events.map Prod.fst
  .seq
    (.ensure
      (.seq (graphRun x events)
        (if fullResponseText events = "" then .skip else .seq .point .point))
      fun e => .seq (.effect (.dec .sseActiveStreams))
        (.seq (.effect (.sseDisconnect
          (if e = .finished then "completed" else "abrupt_client_disconnect"))) .point))
    (if fullResponseText events = "" then .skip else .point)

/-- `chat_stream_endpoint`, and its response if it is asked for. -/
def chatStreamProgram : Prog Metric :=
  match o.lookup with
  | .error e => .stop e
  | .ok cachedReply =>
      match truthyText cachedReply with
      | some _ => if o.started then .point else .skip
      | none =>
          match o.redisGet with
          | .error e => .stop e
          | .ok () =>
              match chatStreamConfig x.userConfig with
              | none => .stop .raised
              | some _ =>
                  .seq (.effect (.inc .sseActiveStreams))
                    (if o.started then eventGenerator x o else .skip)

/-- A call of an endpoint. -/
def callProgram : Prog Metric :=
  match x.endpoint with
  | .streamChat => streamChatProgram x o
  | .chatStream => chatStreamProgram x o

/-! ### The gap -/

/-- The gauge of an endpoint. -/
def gaugeOf : Endpoint → Gauge
  | .streamChat => .grpcActiveStreams
  | .chatStream => .sseActiveStreams

/-- The prompt is not in the cache. -/
def Surroundings.Misses : Prop := ∃ reply, o.lookup = .ok reply ∧ truthyText reply = none

/-- The call ends between its counting up and its `try`: `StreamChat` at Redis, or at a
configuration that is missing or cannot be read; `chat_stream_endpoint`, which cannot be
counted before it has read one, because its first chunk is never asked for. -/
def EndsInGap : Prop :=
  o.Misses ∧
    match x.endpoint with
    | .streamChat => o.started ∧
        (o.redisGet ≠ .ok () ∨ x.userConfig = .absent ∨ x.userConfig = .unreadable)
    | .chatStream => o.redisGet = .ok () ∧ x.userConfig ≠ .unreadable ∧ o.started = false

/-- How a metric changes a gauge. -/
def Metric.change (g : Gauge) : Metric → ℤ
  | .inc g' => if g' = g then 1 else 0
  | .dec g' => if g' = g then -1 else 0
  | .grpcError | .sseDisconnect _ => 0

/-! ### One call -/

variable {x o} {g : Gauge} {w : Metric → ℤ}

theorem weighs_hearEvent (event : GraphEvent Unit) : (hearEvent event).Weighs w 0 := by
  refine .seq .point ?_
  split
  · exact .skip
  · exact .point

/-- **The graph** touches no metric, wherever it is broken off. -/
theorem weighs_graphRun (events : List (GraphEvent Unit)) : (graphRun x events).Weighs w 0 := by
  have hstream : (Prog.seq (.forEach events hearEvent) .point).Weighs w 0 :=
    .seq (.forEach fun event _ => weighs_hearEvent event) .point
  rw [graphRun]
  split
  · exact hstream
  · exact .seq .point (hstream.seq .point)

theorem weighs_streamChatBody : (streamChatBody x o).Weighs w 0 := by
  refine .seq (weighs_graphRun _) ?_
  split
  · exact .skip
  · exact .seq .point (.seq .point .point)

/-- **Within its `try`**, `StreamChat` counts down on every way out. -/
theorem weighs_streamChatCounted (hredis : o.redisGet = .ok ()) {config : RunnableConfig}
    (hconfig : streamChatConfig x.providerHeader x.keyHeader x.userConfig = some config) :
    (streamChatCounted x o).Weighs (Metric.change g)
      (Metric.change g (.dec .grpcActiveStreams)) := by
  rw [streamChatCounted, hredis, hconfig, ← zero_add (Metric.change g _)]
  exact (weighs_streamChatBody.rescue (.effect _)).ensure fun _ => .effect _

/-- **A response that was asked for** counts down and counts its end, on every way out. -/
theorem weighs_eventGenerator {d : ℤ} (hend : ∀ reason, w (.sseDisconnect reason) = d) :
    (eventGenerator x o).Weighs w (w (.dec .sseActiveStreams) + d) := by
  have hbody : (Prog.seq (graphRun x (o.events.map Prod.fst))
      (if fullResponseText (o.events.map Prod.fst) = "" then .skip
        else .seq .point .point)).Weighs w 0 := by
    refine .seq (weighs_graphRun _) ?_
    split
    · exact .skip
    · exact .seq .point .point
  have hlast (reason : String) : (Prog.seq (.effect (Metric.dec .sseActiveStreams))
      (.seq (.effect (.sseDisconnect reason)) .point)).Weighs w
        (w (.dec .sseActiveStreams) + d) := by
    rw [← hend reason]
    exact .effect_seq _ (.seq (.effect _) .point)
  rw [eventGenerator, ← zero_add (w _ + d)]
  refine .seq (.ensure hbody fun e => hlast _) ?_
  split
  · exact .skip
  · exact .point

/-- The configuration of `StreamChat` is missing exactly when no record was read. -/
theorem streamChatConfig_eq_none {providerHeader keyHeader : Option String} {c : UserConfig} :
    streamChatConfig providerHeader keyHeader c = none ↔ c = .absent ∨ c = .unreadable := by
  cases c <;> simp [streamChatConfig]

/-- That of `chat_stream_endpoint` exactly when there is one that it cannot read. -/
theorem chatStreamConfig_eq_none {c : UserConfig} :
    chatStreamConfig c = none ↔ c = .unreadable := by
  cases c <;> simp [chatStreamConfig]

/-- **A call in the gap** is counted for good. -/
theorem weighs_of_endsInGap (h : EndsInGap x o) :
    (callProgram x o).Weighs (Metric.change g) (Metric.change g (.inc (gaugeOf x.endpoint))) := by
  obtain ⟨⟨reply, hlookup, hreply⟩, h⟩ := h
  rw [callProgram]
  cases hendpoint : x.endpoint with
  | streamChat =>
      rw [hendpoint] at h
      obtain ⟨hstarted, h⟩ := h
      have hcounted : (streamChatCounted x o).Weighs (Metric.change g) 0 := by
        rw [streamChatCounted]
        cases hredis : o.redisGet with
        | error e => exact .stop e
        | ok _ =>
            rw [streamChatConfig_eq_none.2 (h.resolve_left (not_not.2 hredis))]
            exact .stop _
      simp only [streamChatProgram, hstarted, hlookup, hreply]
      rw [← add_zero (Metric.change g _)]
      exact .effect_seq _ hcounted
  | chatStream =>
      rw [hendpoint] at h
      obtain ⟨hredis, hreadable, hstarted⟩ := h
      obtain ⟨config, hconfig⟩ :=
        Option.ne_none_iff_exists'.1 (mt chatStreamConfig_eq_none.1 hreadable)
      simp only [chatStreamProgram, hlookup, hreply, hredis, hconfig, hstarted]
      exact .seq (.effect _) .skip

/-- What counts a gauge up and then down leaves it as it was. -/
theorem inc_seq_weighs {p : Prog Metric} {g' : Gauge}
    (hp : p.Weighs (Metric.change g) (Metric.change g (.dec g'))) :
    (Prog.seq (.effect (.inc g')) p).Weighs (Metric.change g) 0 := by
  have hbalance : Metric.change g (.inc g') + Metric.change g (.dec g') = 0 := by
    cases g <;> cases g' <;> rfl
  rw [← hbalance]
  exact .effect_seq _ hp

theorem weighs_streamChatProgram (hendpoint : x.endpoint = .streamChat) (h : ¬EndsInGap x o) :
    (streamChatProgram x o).Weighs (Metric.change g) 0 := by
  simp only [EndsInGap, hendpoint] at h
  rw [streamChatProgram]
  cases hstarted : o.started with
  | false => exact .skip
  | true =>
      rw [if_pos rfl]
      cases hlookup : o.lookup with
      | error e => exact .stop e
      | ok reply =>
          dsimp only
          cases hreply : truthyText reply with
          | some text => exact .point
          | none =>
              have hredis : o.redisGet = .ok () := by
                by_contra hne
                exact h ⟨⟨reply, hlookup, hreply⟩, hstarted, .inl hne⟩
              obtain ⟨config, hconfig⟩ : ∃ config,
                  streamChatConfig x.providerHeader x.keyHeader x.userConfig = some config := by
                rw [← Option.ne_none_iff_exists', Ne, streamChatConfig_eq_none]
                exact fun hmissing => h ⟨⟨reply, hlookup, hreply⟩, hstarted, .inr hmissing⟩
              exact inc_seq_weighs (weighs_streamChatCounted hredis hconfig)

theorem weighs_chatStreamProgram (hendpoint : x.endpoint = .chatStream) (h : ¬EndsInGap x o) :
    (chatStreamProgram x o).Weighs (Metric.change g) 0 := by
  simp only [EndsInGap, hendpoint] at h
  rw [chatStreamProgram]
  cases hlookup : o.lookup with
  | error e => exact .stop e
  | ok reply =>
      dsimp only
      cases hreply : truthyText reply with
      | some text =>
          cases hstarted : o.started with
          | true => exact .point
          | false => exact .skip
      | none =>
          cases hredis : o.redisGet with
          | error e => exact .stop e
          | ok _ =>
              cases hconfig : chatStreamConfig x.userConfig with
              | none => exact .stop _
              | some config =>
                  have hreadable : x.userConfig ≠ .unreadable := by
                    rw [Ne, ← chatStreamConfig_eq_none, hconfig]
                    exact Option.some_ne_none config
                  have hstarted : o.started = true := by
                    by_contra hne
                    exact h ⟨⟨reply, hlookup, hreply⟩, hredis, hreadable, by simpa using hne⟩
                  have hdown : (eventGenerator x o).Weighs (Metric.change g)
                      (Metric.change g (.dec .sseActiveStreams)) := by
                    rw [← add_zero (Metric.change g _)]
                    exact weighs_eventGenerator fun _ => rfl
                  simp only [hstarted, if_true]
                  exact inc_seq_weighs hdown

/-- **Any other call** leaves every gauge as it was. -/
theorem weighs_of_not_endsInGap (h : ¬EndsInGap x o) :
    (callProgram x o).Weighs (Metric.change g) 0 := by
  rw [callProgram]
  cases hendpoint : x.endpoint with
  | streamChat => exact weighs_streamChatProgram hendpoint h
  | chatStream => exact weighs_chatStreamProgram hendpoint h

/-! ### Any calls -/

/-- A call that is over: what it met, what it did to the metrics, and how it ended. -/
structure EndedCall where
  call : Call
  surroundings : Surroundings
  metrics : List Metric
  ending : Ending
  runs : (callProgram call surroundings).Runs metrics ending

/-- The gauges after a metric. -/
def Metric.apply (gauges : Gauge → ℤ) (m : Metric) : Gauge → ℤ := fun g => gauges g + m.change g

theorem foldl_apply (gauges : Gauge → ℤ) (metrics : List Metric) (g : Gauge) :
    metrics.foldl Metric.apply gauges g = gauges g + Prog.weight (Metric.change g) metrics := by
  induction metrics generalizing gauges with
  | nil => exact (add_zero _).symm
  | cons m metrics ih =>
      rw [List.foldl_cons, ih, Metric.apply, Prog.weight, Prog.weight, List.map_cons,
        List.sum_cons, add_assoc]

/-- **A call never counts down more than it counts up.** -/
theorem EndedCall.weight_nonneg (c : EndedCall) (g : Gauge) :
    0 ≤ Prog.weight (Metric.change g) c.metrics := by
  by_cases h : EndsInGap c.call c.surroundings
  · rw [weighs_of_endsInGap h _ _ c.runs, Metric.change]
    split <;> decide
  · rw [weighs_of_not_endsInGap h _ _ c.runs]

/-- **The gauges are what they were before**, however the calls came and went together,
exactly when no call ended in the gap. -/
theorem gauges_balance_iff (calls : List EndedCall) (metrics : List Metric)
    (h : metrics.Perm (calls.flatMap EndedCall.metrics)) (gauges : Gauge → ℤ) :
    metrics.foldl Metric.apply gauges = gauges ↔
      ∀ c ∈ calls, ¬EndsInGap c.call c.surroundings := by
  have htotal (g : Gauge) : Prog.weight (Metric.change g) metrics
      = (calls.map fun c => Prog.weight (Metric.change g) c.metrics).sum := by
    rw [Prog.weight_perm h, Prog.weight_flatMap]
  have hgauges : metrics.foldl Metric.apply gauges = gauges ↔
      ∀ g, (calls.map fun c => Prog.weight (Metric.change g) c.metrics).sum = 0 := by
    simp only [funext_iff, foldl_apply, htotal, add_eq_left]
  rw [hgauges]
  constructor
  · intro hzero c hc hgap
    have hcall : Prog.weight (Metric.change (gaugeOf c.call.endpoint)) c.metrics = 0 := by
      refine List.all_zero_of_le_zero_le_of_sum_eq_zero ?_ (hzero (gaugeOf c.call.endpoint))
        (List.mem_map_of_mem hc)
      simp only [List.forall_mem_map]
      exact fun c _ => c.weight_nonneg _
    rw [weighs_of_endsInGap hgap _ _ c.runs, Metric.change, if_pos rfl] at hcall
    exact absurd hcall one_ne_zero
  · intro hgap g
    refine List.sum_eq_zero ?_
    simp only [List.forall_mem_map]
    exact fun c hc => weighs_of_not_endsInGap (hgap c hc) _ _ c.runs

/-! ### A dropped stream, and a user without a record -/

/-- A prompt of a user of whom Redis has nothing. -/
def firstPrompt (endpoint : Endpoint) : Call :=
  ⟨endpoint, ⟨"u1", "s1", "hi"⟩, none, none, .absent⟩

/-- Nothing is in the way of a call, and its graph streams one chunk. -/
def oneChunk : Surroundings :=
  ⟨true, .ok none, .ok (), [(.chatModelStream "general_memory" "hello", false)]⟩

/-- `chat_stream_endpoint` does without a record; its client leaves at the chunk. -/
def droppedStream : EndedCall where
  call := firstPrompt .chatStream
  surroundings := oneChunk
  metrics := [.inc .sseActiveStreams, .dec .sseActiveStreams,
    .sseDisconnect "abrupt_client_disconnect"]
  ending := .cancelled
  runs := by
    have hevent : (hearEvent (.chatModelStream "general_memory" "hello")).Runs [] .cancelled := by
      rw [hearEvent, if_neg (by decide)]
      exact .seq (.point _) (.point _)
    have hgraph : (graphRun (firstPrompt .chatStream)
        [.chatModelStream "general_memory" "hello"]).Runs [] .cancelled := by
      rw [graphRun, if_neg (by decide)]
      exact .seq (.point _) (.seq_broken (.seq_broken (.seq_broken hevent (by decide))
        (by decide)) (by decide))
    exact .seq (.effect _) (.seq_broken (.ensure (.seq_broken hgraph (by decide))
      (.seq (.effect _) (.seq (.effect _) (.point .finished)))) (by decide))

/-- `StreamChat` reads `use_default_key`, which nothing has assigned. -/
def unassignedRead : EndedCall where
  call := firstPrompt .streamChat
  surroundings := oneChunk
  metrics := [.inc .grpcActiveStreams]
  ending := .raised
  runs := .seq (.effect _) (.stop _)

/-- **After two dropped streams**, whose steps came in turn, no stream counts as active. -/
theorem droppedStreams_balance :
    [.inc .sseActiveStreams, .inc .sseActiveStreams, .dec .sseActiveStreams,
      .sseDisconnect "abrupt_client_disconnect", .dec .sseActiveStreams,
      .sseDisconnect "abrupt_client_disconnect"].foldl Metric.apply (fun _ => 0) = fun _ => 0 := by
  refine (gauges_balance_iff [droppedStream, droppedStream] _ (by decide) _).2 ?_
  rintro c hc ⟨-, hgap⟩
  obtain rfl : c = droppedStream := by simpa using hc
  exact absurd hgap.2.2 (by decide)

/-- **After the other call** a stream counts as active for good. -/
theorem unassignedRead_unbalanced :
    ¬∀ (calls : List EndedCall) (metrics : List Metric),
      metrics.Perm (calls.flatMap EndedCall.metrics) → ∀ gauges : Gauge → ℤ,
        metrics.foldl Metric.apply gauges = gauges := by
  intro h
  have hgauge := congrFun (h [unassignedRead] [.inc .grpcActiveStreams] (.refl _) fun _ => 0)
    .grpcActiveStreams
  exact absurd hgauge (by decide)

end Server
end CognitiveEngine
