/-
# Two front ends for one request

`StreamChat` (`app/grpc_server.py`) and `chat_stream_endpoint` (`app/api/routes/chat.py`)
are two programs for the same request.  They look into the cache, run the graph and end with
the same three things to do, in different orders: the one publishes, stores and signs, the
other signs, stores and publishes, and what fails on the way keeps the rest from being done.

`frontEnds_agree_iff` says when a call comes to the same at both: to the same messages for
the client, and to the same deeds for everyone else, if not in the same order.
-/

import CognitiveEngine.Server.StreamEvents

namespace CognitiveEngine
namespace Server

open CognitiveEngine.Graph Machine

variable {C V : Type} (cache : SemanticCache V) (x : Call) (e : Encounter C V)

/-- The call at one of the endpoints. -/
def Call.atEndpoint (endpoint : Endpoint) : Call := { x with endpoint := endpoint }

/-- The message a deed sends. -/
def Deed.sent? : Deed C → Option ChatResponse
  | .send r => some r
  | _ => none

/-- Two calls come to the same: they send the same messages in the same order, do the same
things, and both fail or neither. -/
structure ComesToSame (done done' : List (Deed C) × Bool) : Prop where
  deeds : done.1.Perm done'.1
  sent : done.1.filterMap Deed.sent? = done'.1.filterMap Deed.sent?
  failed : done.2 = done'.2

theorem ComesToSame.refl (done : List (Deed C) × Bool) : ComesToSame done done :=
  ⟨.refl _, rfl, rfl⟩

/-- What both have done first makes no difference. -/
theorem comesToSame_append {before deeds deeds' : List (Deed C)} {failed failed' : Bool} :
    ComesToSame (before ++ deeds, failed) (before ++ deeds', failed') ↔
      ComesToSame (deeds, failed) (deeds', failed') := by
  have hsent : (before ++ deeds).filterMap Deed.sent? = (before ++ deeds').filterMap Deed.sent? ↔
      deeds.filterMap Deed.sent? = deeds'.filterMap Deed.sent? := by
    rw [List.filterMap_append, List.filterMap_append, List.append_cancel_left_eq]
  constructor
  · rintro ⟨hdeeds, hsame, hfailed⟩
    exact ⟨(List.perm_append_left_iff before).1 hdeeds, hsent.1 hsame, hfailed⟩
  · rintro ⟨hdeeds, hsame, hfailed⟩
    exact ⟨(List.perm_append_left_iff before).2 hdeeds, hsent.2 hsame, hfailed⟩

/-! ### The end of a call -/

variable {cache} {x} {e}

variable (x) in
theorem sent?_publication (p : Progress) :
    (x.publication (C := C) p).filterMap Deed.sent? = [] := by
  unfold Call.publication
  split <;> rfl

/-- **The two ends** come to the same when there is no text, or nothing fails. -/
theorem finish_comesToSame_iff {p : Progress} :
    ComesToSame (finishStreamChat cache x e p) (finishChatStream cache x e p) ↔
      (p.text ≠ "" → e.cacheTakes ∧ (receiptOf cache x e p.text).isSome) := by
  have hpublication := sent?_publication (C := C) x p
  unfold finishStreamChat finishChatStream
  by_cases htext : p.text = ""
  · rw [if_pos htext, if_pos htext]
    exact iff_of_true (.refl _) fun h => absurd htext h
  · rw [if_neg htext, if_neg htext]
    cases hreceipt : receiptOf cache x e p.text with
    | none =>
        -- The second end has done nothing, and the first has stored the text.
        refine iff_of_false (fun h => ?_) fun h => absurd (h htext).2 (by simp)
        have hlength := h.deeds.length_eq
        cases htakes : e.cacheTakes <;> simp [htakes] at hlength
    | some receipt =>
        cases htakes : e.cacheTakes with
        | false =>
            -- The second end has sent the receipt.
            refine iff_of_false (fun h => ?_) fun h => absurd (h htext).1 (by simp)
            have hsent := h.sent
            simp [List.filterMap_append, hpublication, Deed.sent?] at hsent
        | true =>
            let stored : Deed C := .cacheSet x.request.prompt p.text true
            let signed : Deed C := .send ⟨"", some receipt⟩
            have hsame : ComesToSame (x.publication p ++ [stored] ++ [signed], false)
                ([signed, stored] ++ x.publication p, false) := by
              refine ⟨?_, ?_, rfl⟩
              · rw [List.append_assoc]
                exact ((List.Perm.swap signed stored []).append_left _).trans List.perm_append_comm
              · rw [List.filterMap_append, List.filterMap_append, List.filterMap_append,
                  hpublication]
                rfl
            exact iff_of_true hsame fun _ => ⟨rfl, rfl⟩

/-! ### The whole call -/

/-- Nobody has cancelled the call. -/
theorem untilCancelled_eq {events : List (GraphEvent C × Bool)}
    (hlive : ∀ event ∈ events, event.2 = false) : untilCancelled events = events.map Prod.fst := by
  induction events with
  | nil => rfl
  | cons event events ih =>
      obtain ⟨event, cancelled⟩ := event
      rw [List.forall_mem_cons] at hlive
      obtain rfl : cancelled = false := hlive.1
      rw [untilCancelled, Bool.false_and, if_neg Bool.false_ne_true, ih hlive.2, List.map_cons]

variable (x) in
/-- The loop hears the same at both endpoints, and is left in the same way. -/
theorem heard_atEndpoint (hlive : ∀ event ∈ e.events, event.2 = false) (endpoint : Endpoint) :
    heard (x.atEndpoint endpoint) e = e.events.map Prod.fst ∧
      loopRaises (x.atEndpoint endpoint) e = e.graphRaises := by
  have hbreaks : breaksOff e.events = false := by
    rw [breaksOff, List.any_eq_false]
    intro event hevent
    simp [hlive event hevent]
  cases endpoint with
  | streamChat =>
      refine ⟨untilCancelled_eq hlive, ?_⟩
      show (e.graphRaises && !breaksOff e.events) = e.graphRaises
      rw [hbreaks, Bool.not_false, Bool.and_true]
  | chatStream => exact ⟨rfl, rfl⟩

/-- What the loop of the call has come to, and what it has done on the way. -/
def Call.loop (x : Call) (e : Encounter C V) : List (Deed C) × Progress :=
  Progress.start.hearAll x.threadId? (e.events.map Prod.fst)

/-- The checkpointer of the call cannot be reached. -/
def Call.locked (x : Call) (e : Encounter C V) : Bool := x.threadId?.isSome && !e.saverOpens

variable (cache) (x) in
/-- **A run of the graph** at an endpoint. -/
theorem runGraph_atEndpoint (hlive : ∀ event ∈ e.events, event.2 = false) (endpoint : Endpoint) :
    runGraph cache (x.atEndpoint endpoint) e =
      let opening := x.threadId?.toList.map Deed.openCheckpointer
      if x.locked e then (opening, true)
      else if e.graphRaises then (opening ++ (x.loop e).1, true)
      else (opening ++ (x.loop e).1 ++ (finish cache (x.atEndpoint endpoint) e (x.loop e).2).1,
        (finish cache (x.atEndpoint endpoint) e (x.loop e).2).2) := by
  obtain ⟨hheard, hraises⟩ := heard_atEndpoint x hlive endpoint
  unfold runGraph
  rw [hheard, hraises]
  rfl

/-- A loop that has done nothing has passed nothing on. -/
theorem loop_text_of_nil (h : (x.loop e).1 = []) : (x.loop e).2.text = "" := by
  have hchunks : String.join ((Progress.start.hearAll x.threadId? (e.events.map Prod.fst)).1.map
      Deed.chunk) = String.join ((e.events.map Prod.fst).map GraphEvent.passed) :=
    hearAll_chunks Progress.start (e.events.map Prod.fst)
  rw [Call.loop] at h ⊢
  rw [h] at hchunks
  rw [hearAll_text, ← hchunks]
  rfl

/-- **A run comes to nothing** exactly when the graph raises before anything is done. -/
theorem comesToSame_nothing_iff (hlive : ∀ event ∈ e.events, event.2 = false) :
    ComesToSame ([], true) (runGraph cache (x.atEndpoint .chatStream) e) ↔
      isAnonymous x.request.userId ∧ e.graphRaises ∧ (x.loop e).1 = [] := by
  have hopening : x.threadId?.toList.map (Deed.openCheckpointer (C := C)) = [] ↔
      isAnonymous x.request.userId := by
    rw [Call.threadId?]
    split_ifs with hanon <;> simp [hanon]
  rw [runGraph_atEndpoint cache x hlive]
  by_cases hlocked : x.locked e
  · -- An anonymous call needs no checkpointer.
    have hnot : ¬ isAnonymous x.request.userId := by
      intro hanon
      have hthread : x.threadId? = none := if_pos hanon
      simp [Call.locked, hthread] at hlocked
    simp only [hlocked, if_true]
    exact iff_of_false (fun h => hnot (hopening.1 h.deeds.symm.eq_nil)) fun h => hnot h.1
  · by_cases hraises : e.graphRaises
    · simp only [hlocked, hraises, Bool.false_eq_true, if_false, if_true, true_and]
      constructor
      · intro h
        obtain ⟨hopen, hloop⟩ := List.append_eq_nil_iff.1 h.deeds.symm.eq_nil
        exact ⟨hopening.1 hopen, hloop⟩
      · rintro ⟨hanon, hloop⟩
        rw [hopening.2 hanon, hloop]
        exact .refl _
    · simp only [hlocked, hraises, Bool.false_eq_true, if_false, false_and, and_false, iff_false]
      intro h
      obtain ⟨hbefore, -⟩ := List.append_eq_nil_iff.1 h.deeds.symm.eq_nil
      have htext := loop_text_of_nil (List.append_eq_nil_iff.1 hbefore).2
      have hfinish : (finish cache (x.atEndpoint .chatStream) e (x.loop e).2).2 = false := by
        show (finishChatStream cache (x.atEndpoint .chatStream) e (x.loop e).2).2 = false
        rw [finishChatStream, if_pos htext]
      exact Bool.noConfusion (h.failed.trans hfinish)

/-- **When the two front ends come to the same.**  Calls that nobody cancels, and that the
cache cannot answer, always do where the user's record cannot be read, and both raise.  Where
there is none, the user has to be anonymous and the graph to raise before it has come to
anything; and where there is one, the checkpointer or the graph has to raise, or no text to
come, or the text to be stored and signed. -/
theorem frontEnds_agree_iff (hlive : ∀ event ∈ e.events, event.2 = false) :
    ComesToSame (serve cache (x.atEndpoint .streamChat) e)
        (serve cache (x.atEndpoint .chatStream) e) ↔
      (cache.get (e.stores.collections "semantic_cache") x.request.prompt = some none →
        (x.userConfig = .absent →
          isAnonymous x.request.userId ∧ e.graphRaises ∧ (x.loop e).1 = []) ∧
        ((x.atEndpoint .streamChat).config.isSome →
          x.locked e ∨ e.graphRaises ∨ (x.loop e).2.text = "" ∨
            (e.cacheTakes ∧ (receiptOf cache x e (x.loop e).2.text).isSome))) := by
  have hrequest (endpoint : Endpoint) : (x.atEndpoint endpoint).request = x.request := rfl
  have hconfig : (x.atEndpoint .streamChat).config
      = streamChatConfig x.providerHeader x.keyHeader x.userConfig := rfl
  have hconfig' : (x.atEndpoint .chatStream).config = chatStreamConfig x.userConfig := rfl
  have hrun := runGraph_atEndpoint cache x hlive
  unfold serve
  rw [hrequest, hrequest, hconfig, hconfig']
  cases hget : cache.get (e.stores.collections "semantic_cache") x.request.prompt with
  | none => exact iff_of_true (.refl _) nofun
  | some found =>
      cases found with
      | some cachedReply => exact iff_of_true (.refl _) fun h => by simp at h
      | none =>
          rw [forall_prop_of_true rfl]
          cases hentry : x.userConfig with
          | unreadable => exact iff_of_true (.refl _) ⟨nofun, fun h => by simp [streamChatConfig] at h⟩
          | absent =>
              simp only [streamChatConfig, chatStreamConfig, forall_const, Option.isSome_none,
                Bool.false_eq_true, false_implies, and_true]
              exact comesToSame_nothing_iff hlive
          | stored llmProvider apiKey useDefaultKey =>
              simp only [streamChatConfig, chatStreamConfig, reduceCtorEq, false_implies, true_and,
                Option.isSome_some, forall_const]
              rw [hrun, hrun]
              by_cases hlocked : x.locked e
              · simp only [hlocked, if_true, true_or, iff_true]
                exact .refl _
              · by_cases hraises : e.graphRaises
                · simp only [hlocked, hraises, if_true, true_or, or_true, iff_true]
                  exact .refl _
                · simp only [hlocked, hraises, Bool.false_eq_true, if_false, false_or]
                  rw [comesToSame_append]
                  refine (finish_comesToSame_iff (x := x)).trans ?_
                  rw [or_iff_not_imp_left]

/-- A question about the tides comes to the same at both. -/
theorem tides_come_to_same :
    ComesToSame
      (serve plainCache ((tidesCall .streamChat "alice").atEndpoint .streamChat)
        (smoothEncounter [("final_synthesizer", "The moon.")] []))
      (serve plainCache ((tidesCall .streamChat "alice").atEndpoint .chatStream)
        (smoothEncounter [("final_synthesizer", "The moon.")] [])) := by
  refine (frontEnds_agree_iff (by simp [smoothEncounter])).2 fun _ => ?_
  exact ⟨nofun, fun _ => .inr (.inr (.inr ⟨rfl, rfl⟩))⟩

end Server
end CognitiveEngine
