/-
# What the stream counters add up to

Besides the two gauges the chat endpoints keep counters: `SSE_DISCONNECT_TOTAL`, by reason,
in the `finally` of `event_generator`, and `GRPC_ERRORS_TOTAL`, where `StreamChat` catches
an exception.

A gauge can stay up for good (`Server/StreamGauges`), and a call that raises is not always
one that is counted.  `counters_of_calls` says what can be read off the numbers all the
same: a stream that was opened is active or has been counted as closed, and a call that is
counted as an error is never one that raises.
-/

import CognitiveEngine.Server.StreamGauges

namespace CognitiveEngine
namespace Server

open CognitiveEngine.Graph CognitiveEngine.Llm CognitiveEngine.Machine

variable {x : Call} {o : Surroundings} {w : Metric → ℤ}

/-- Whether a metric counts a response that was closed. -/
def Metric.isDisconnect : Metric → Bool
  | .sseDisconnect _ => true
  | _ => false

/-- Whether a metric counts an error. -/
def Metric.isError : Metric → Bool
  | .grpcError => true
  | _ => false

/-- Whether `chat_stream_endpoint` counts up: the prompt is not in the cache, and the
configuration was read. -/
def Surroundings.opensStream (o : Surroundings) (x : Call) : Bool :=
  match o.lookup, o.redisGet with
  | .ok cachedReply, .ok () =>
      (truthyText cachedReply).isNone && (chatStreamConfig x.userConfig).isSome
  | _, _ => false

/-- What an opened stream weighs while it is active, and then as one that was closed. -/
def streamWeight (m : Metric) : ℤ :=
  m.change .sseActiveStreams + if m.isDisconnect then 1 else 0

/-! ### One call -/

/-- **What `chat_stream_endpoint` weighs**, however it ends: as much as its counting up,
when counting down and counting the end of a response make nothing together. -/
theorem weighs_chatStream {d : ℤ} (hend : ∀ reason, w (.sseDisconnect reason) = d)
    (hclosed : w (.dec .sseActiveStreams) + d = 0) : (chatStreamProgram x o).Weighs w
    (if o.opensStream x then w (.inc .sseActiveStreams) else 0) := by
  rw [chatStreamProgram, Surroundings.opensStream]
  cases o.lookup with
  | error e => exact .stop e
  | ok cachedReply =>
      cases o.redisGet with
      | error e =>
          cases htext : truthyText cachedReply with
          | none =>
              simp only [htext]
              exact .stop e
          | some text =>
              simp only [htext]
              split
              · exact .point
              · exact .skip
      | ok _ =>
          cases htext : truthyText cachedReply with
          | none =>
              cases hconfig : chatStreamConfig x.userConfig with
              | none =>
                  simp only [htext, Option.isSome_none, Bool.and_false]
                  exact .stop _
              | some config =>
                  simp only [htext, Option.isNone_none, Option.isSome_some, Bool.and_self, if_true]
                  rw [← add_zero (w _)]
                  refine .effect_seq (Metric.inc .sseActiveStreams) ?_
                  split
                  · exact hclosed ▸ weighs_eventGenerator hend
                  · exact .skip
          | some text =>
              simp only [htext, Option.isNone_some, Bool.false_and]
              split
              · exact .point
              · exact .skip

/-- A program whose runs weigh nothing counts nothing. -/
theorem countP_of_weighs {p : Prog Metric} {P : Metric → Bool} {metrics : List Metric} {e : Ending}
    (hp : p.Weighs (fun m => if P m then 1 else 0) 0) (h : p.Runs metrics e) :
    metrics.countP P = 0 := by
  have hweight := Prog.weight_indicator P metrics
  rw [hp metrics e h] at hweight
  exact_mod_cast hweight.symm

/-- **`StreamChat` counts an error exactly where it catches one**, and ends as if nothing
had been raised. -/
theorem error_of_counted {metrics : List Metric} {e : Ending}
    (h : (streamChatCounted x o).Runs metrics e) :
    metrics.countP Metric.isError = 0 ∨
      (metrics.countP Metric.isError = 1 ∧ e = .finished) := by
  have hnone {as : List Metric} {e : Ending} (hbody : (streamChatBody x o).Runs as e) :
      as.countP Metric.isError = 0 := countP_of_weighs weighs_streamChatBody hbody
  unfold streamChatCounted at h
  split at h
  · cases h
    exact .inl rfl
  · split at h
    · cases h
      exact .inl rfl
    · cases h with
      | ensure htry hlast =>
          cases hlast
          cases htry with
          | rescue hbody hhandler =>
              cases hhandler
              refine .inr ⟨?_, rfl⟩
              rw [List.countP_append, List.countP_append, hnone hbody]
              rfl
          | rescue_not hbody he =>
              refine .inl ?_
              rw [List.countP_append, hnone hbody]
              rfl
      | ensure_broken htry hlast he =>
          cases hlast
          exact absurd rfl he

/-- **A call counts at most one error**, and none if it raises or is a web response. -/
theorem error_of_call {metrics : List Metric} {e : Ending} (h : (callProgram x o).Runs metrics e) :
    metrics.countP Metric.isError = 0 ∨
      (metrics.countP Metric.isError = 1 ∧ e = .finished ∧ x.endpoint = .streamChat) := by
  unfold callProgram at h
  cases hendpoint : x.endpoint with
  | streamChat =>
      rw [hendpoint] at h
      dsimp only [streamChatProgram] at h
      split at h
      · split at h
        · cases h
          exact .inl rfl
        · split at h
          · cases h
            exact .inl rfl
          · cases h with
            | seq hinc hrest =>
                cases hinc
                rw [List.countP_append]
                rcases error_of_counted hrest with hzero | ⟨hone, hend⟩
                · exact .inl (by rw [hzero]; rfl)
                · exact .inr ⟨by rw [hone]; rfl, hend, rfl⟩
            | seq_broken hinc he =>
                cases hinc
                exact absurd rfl he
      · cases h
        exact .inl rfl
  | chatStream =>
      rw [hendpoint] at h
      have hweighs := weighs_chatStream (x := x) (o := o)
        (w := fun m => if m.isError then 1 else 0) (fun _ => rfl) rfl
      exact .inl (countP_of_weighs (by simpa [Metric.isError] using hweighs) h)

/-- **What `StreamChat` does to the counters of the web endpoint:** nothing. -/
theorem weighs_streamChat : (streamChatProgram x o).Weighs streamWeight 0 := by
  have hcounted : (streamChatCounted x o).Weighs streamWeight 0 := by
    rw [streamChatCounted]
    split
    · exact .stop _
    · split
      · exact .stop _
      · exact .ensure (weighs_streamChatBody.rescue (.effect _)) fun _ => .effect _
  rw [streamChatProgram]
  split
  · split
    · exact .stop _
    · split
      · exact .point
      · exact .effect_seq _ hcounted
  · exact .skip

/-! ### Any calls -/

/-- Whether a call counts up at the web endpoint. -/
def EndedCall.opensStream (c : EndedCall) : Bool :=
  match c.call.endpoint with
  | .streamChat => false
  | .chatStream => c.surroundings.opensStream c.call

/-- Whether a call is one of `StreamChat`. -/
def EndedCall.isGrpc (c : EndedCall) : Bool :=
  match c.call.endpoint with
  | .streamChat => true
  | .chatStream => false

theorem EndedCall.weight_streamWeight (c : EndedCall) :
    Prog.weight streamWeight c.metrics = if c.opensStream then 1 else 0 := by
  have hruns := c.runs
  rw [EndedCall.opensStream]
  unfold callProgram at hruns
  cases hendpoint : c.call.endpoint with
  | streamChat =>
      rw [hendpoint] at hruns
      exact weighs_streamChat _ _ hruns
  | chatStream =>
      rw [hendpoint] at hruns
      exact weighs_chatStream (fun _ => rfl) rfl _ _ hruns

/-- What the calls weigh together: one for each stream that was opened. -/
theorem weight_of_calls (calls : List EndedCall) :
    Prog.weight streamWeight (calls.flatMap EndedCall.metrics)
      = calls.countP EndedCall.opensStream := by
  rw [Prog.weight_flatMap, ← Prog.weight_indicator]
  exact congrArg List.sum (List.map_congr_left fun c _ => c.weight_streamWeight)

/-- **A call is counted as an error, or raises, or does neither**, but not both. -/
theorem errors_of_calls (calls : List EndedCall) :
    (calls.flatMap EndedCall.metrics).countP Metric.isError
        + calls.countP (fun c => c.isGrpc && c.ending = .raised)
      ≤ calls.countP EndedCall.isGrpc := by
  induction calls with
  | nil => exact le_refl 0
  | cons c calls ih =>
      rw [List.flatMap_cons, List.countP_append, List.countP_cons, List.countP_cons]
      rcases error_of_call c.runs with hzero | ⟨hone, hend, hgrpc⟩
      · have hle : (if (c.isGrpc && decide (c.ending = .raised)) = true then 1 else 0)
            ≤ if c.isGrpc = true then 1 else 0 := by
          cases c.isGrpc with
          | false => exact le_refl 0
          | true =>
              rw [Bool.true_and, if_pos rfl]
              split_ifs <;> omega
        omega
      · have hnot : (c.isGrpc && decide (c.ending = .raised)) = false := by simp [hend]
        have his : c.isGrpc = true := by rw [EndedCall.isGrpc, hgrpc]
        rw [hone, hnot, his, if_neg Bool.false_ne_true, if_pos rfl]
        omega

/-- **What can be read off the counters.**  However the calls came and went together, the
streams that were opened at the web endpoint are those that are active and those that were
counted as closed, whatever the reason.  The errors of `StreamChat` are calls that ended as
if nothing had been raised: with those that do raise, there are no more than its calls. -/
theorem counters_of_calls (calls : List EndedCall) (metrics : List Metric)
    (h : metrics.Perm (calls.flatMap EndedCall.metrics)) (gauges : Gauge → ℤ) :
    (metrics.foldl Metric.apply gauges .sseActiveStreams - gauges .sseActiveStreams) +
        metrics.countP Metric.isDisconnect = calls.countP EndedCall.opensStream ∧
      metrics.countP Metric.isError
          + calls.countP (fun c => c.isGrpc && c.ending = .raised)
        ≤ calls.countP EndedCall.isGrpc := by
  constructor
  · have hsplit : Prog.weight streamWeight metrics
        = Prog.weight (Metric.change .sseActiveStreams) metrics
          + metrics.countP Metric.isDisconnect := by
      rw [← Prog.weight_indicator]
      exact List.sum_map_add
    rw [foldl_apply, add_sub_cancel_left, ← hsplit, Prog.weight_perm h, weight_of_calls]
  · rw [h.countP_eq]
    exact errors_of_calls calls

/-- **After two dropped streams and a call that was left in the gap**, both streams have been
counted as closed, and nothing as an error. -/
theorem droppedStreams_counted :
    (([.inc .grpcActiveStreams, .inc .sseActiveStreams, .inc .sseActiveStreams,
      .dec .sseActiveStreams, .sseDisconnect "abrupt_client_disconnect", .dec .sseActiveStreams,
      .sseDisconnect "abrupt_client_disconnect"].foldl Metric.apply (fun _ => 0)
        .sseActiveStreams : ℤ) - 0) + 2 = 2 :=
  (counters_of_calls [unassignedRead, droppedStream, droppedStream] _ (by decide) fun _ => 0).1

end Server
end CognitiveEngine
