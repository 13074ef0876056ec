/-
# What is stored in the semantic cache

Both endpoints store `ai_full_response_text` in the cache: all that the chat models
have streamed, but for the supervisor's chunks.  A cached text is served to
everybody, so it should be the answer of a finished run, the message that
`final_synthesizer` produces.

`onlyAnswersCached_iff` says when it is.  Every other node whose model streams text
adds it to the entry, and so does a run that is cancelled with its text half sent:
`draft_cached` and the first of the two conditions.
-/

import CognitiveEngine.Server.StreamEvents

namespace CognitiveEngine
namespace Server

open CognitiveEngine.Graph Machine

variable {C V : Type}

/-! ### The answer -/

/-- The text an event contributes to the message of `final_synthesizer`. -/
def GraphEvent.synthesized : GraphEvent C → String
  | .chatModelStream node content => if node = "final_synthesizer" then content else ""
  | _ => ""

/-- The event has no text for the client, or text of `final_synthesizer`. -/
def GraphEvent.OfSynthesizer : GraphEvent C → Prop
  | .chatModelStream node content =>
      node = "supervisor_router" ∨ content = "" ∨ node = "final_synthesizer"
  | _ => True

/-- The content of the message `final_synthesizer` produces in a run. -/
def Encounter.synthesizerContent (e : Encounter C V) : String :=
  String.join (e.events.map fun event => event.1.synthesized)

/-- The events a call gets of the graph, the one at which it finds itself cancelled
included. -/
def receivedUntil : List (GraphEvent C × Bool) → List (GraphEvent C)
  | [] => []
  | (event, cancelled) :: events =>
      event :: if cancelled && event.arrives then [] else receivedUntil events

variable (cache : SemanticCache V) (x : Call) (e : Encounter C V)

/-- The events a call gets of the graph. -/
def received : List (GraphEvent C) :=
  match x.endpoint with
  | .streamChat => receivedUntil e.events
  | .chatStream => e.events.map Prod.fst

/-- The run of the graph has reached its final event. -/
def GraphEnded : Prop := ∃ event ∈ received x e, event.isFinal

/-- However far the call gets, it asks the cache to store only the answer of a
finished run. -/
def OnlyAnswersCached : Prop :=
  ∀ (n : ℕ) (prompt response : String) (taken : Bool),
    .cacheSet prompt response taken ∈ (serve cache x e).1.take n →
    GraphEnded x e ∧ response = e.synthesizerContent

/-- **The answer in the graph:** the chunks of a superstep of `final_synthesizer` make
up the content of the message it produces, and no other node has a part in it. -/
theorem synthesized_nodeEvents (rt : Runtime) (env : Env) (n : Node) (s : AgentState) :
    String.join ((nodeEvents rt env n s : List (GraphEvent C)).map GraphEvent.synthesized)
      = if n = .finalSynthesizer ∧ knowsProvider env.config then
          (env.chat (getLlmInstance 2 (some env.config)) (synthesisPrompt s)).message.content
        else "" := by
  by_cases hn : n = .finalSynthesizer
  · subst hn
    have hsynthesized :
        GraphEvent.synthesized ∘ .chatModelStream (C := C) (nodeName .finalSynthesizer) = id := by
      funext chunk
      rfl
    by_cases hp : knowsProvider env.config
    · rw [if_pos ⟨rfl, hp⟩, nodeEvents, List.map_map, hsynthesized, List.map_id, nodeChunks,
        if_pos hp]
      rfl
    · rw [if_neg fun h => hp h.2, nodeEvents, nodeChunks, if_neg hp]
      rfl
  · have hname : nodeName n ≠ "final_synthesizer" := by
      cases n with
      | executor lane => cases lane <;> simp [nodeName, Lane.name]
      | finalSynthesizer => exact absurd rfl hn
      | _ => simp [nodeName]
    rw [if_neg fun h => hn h.1, nodeEvents, List.map_map]
    exact join_map_eq_empty_iff.2 fun chunk _ => if_neg hname

/-! ### The text of a finished run -/

theorem passed_of_isFinal {event : GraphEvent C} (h : event.isFinal) : event.passed = "" := by
  cases event with
  | chainEnd => rfl
  | chatModelStream | other | checkpoint => exact absurd h (by simp [GraphEvent.isFinal])

/-- An event is of the synthesizer when what it passes on is part of the answer. -/
theorem synthesized_eq_passed_iff {event : GraphEvent C} :
    event.synthesized = event.passed ↔ event.OfSynthesizer := by
  cases event with
  | chatModelStream node content =>
      by_cases hr : node = "supervisor_router"
      · simp [GraphEvent.synthesized, GraphEvent.passed, GraphEvent.OfSynthesizer, hr]
      · by_cases hs : node = "final_synthesizer" <;>
          simp [GraphEvent.synthesized, GraphEvent.passed, GraphEvent.OfSynthesizer, hr, hs,
            eq_comm]
  | chainEnd | other | checkpoint =>
      simp [GraphEvent.synthesized, GraphEvent.passed, GraphEvent.OfSynthesizer]

/-- What is part of the answer is passed on. -/
theorem synthesized_eq_empty_or {event : GraphEvent C} :
    event.synthesized = "" ∨ event.synthesized = event.passed := by
  cases event with
  | chatModelStream node content =>
      by_cases hs : node = "final_synthesizer"
      · exact .inr (synthesized_eq_passed_iff.2 (.inr (.inr hs)))
      · exact .inl (if_neg hs)
  | chainEnd | other | checkpoint => exact .inl rfl

/-- A call that gets the final event has heard all the text of the run. -/
theorem passed_untilCancelled {events : List (GraphEvent C × Bool)}
    (hlast : ∀ before event after, events = before ++ event :: after → event.1.isFinal →
      after = [])
    (hended : ∃ event ∈ receivedUntil events, event.isFinal) :
    String.join ((untilCancelled events).map GraphEvent.passed)
      = String.join (events.map fun event => event.1.passed) := by
  induction events with
  | nil => rfl
  | cons event events ih =>
      obtain ⟨event, cancelled⟩ := event
      have hfinal (h : event.isFinal) : events = [] := hlast [] (event, cancelled) events rfl h
      by_cases hbreak : (cancelled && event.arrives) = true
      · have h : event.isFinal := by simpa [receivedUntil, hbreak] using hended
        rw [hfinal h, untilCancelled, if_pos hbreak, List.map_singleton, passed_of_isFinal h]
        rfl
      · rw [untilCancelled, if_neg hbreak, List.map_cons, List.map_cons, String.join_cons,
          String.join_cons]
        by_cases h : event.isFinal
        · rw [hfinal h]
          rfl
        · rw [ih fun before event' after heq => hlast ((event, cancelled) :: before) event' after
            (by rw [heq, List.cons_append])]
          simpa [receivedUntil, hbreak, h] using hended

/-- **The text of a call whose graph has ended** is all that the run streamed for the
client. -/
theorem progress_text_of_graphEnded (h : GraphEnded x e) :
    (progress x e).text = String.join (e.events.map fun event => event.1.passed) := by
  rw [progress_text]
  cases hx : x.endpoint with
  | streamChat =>
      simp only [GraphEnded, received, hx] at h
      simpa only [heard, hx] using passed_untilCancelled e.final_last h
  | chatStream => simp [heard, hx, Function.comp_def]

/-- **When only answers are cached:** exactly when the call does not come to the
cache, has no text, or the graph has ended and all text for the client is of
`final_synthesizer`. -/
theorem onlyAnswersCached_iff :
    OnlyAnswersCached cache x e ↔
      (Completes cache x e → Signs cache x e →
        (∀ event ∈ heard x e, event.passed = "") ∨
        (GraphEnded x e ∧ ∀ event ∈ e.events, event.1.OfSynthesizer)) := by
  -- What is stored is the answer when the run streams nothing else.
  have htext (hended : GraphEnded x e) : (progress x e).text = e.synthesizerContent ↔
      ∀ event ∈ e.events, event.1.OfSynthesizer := by
    rw [progress_text_of_graphEnded x e hended, Encounter.synthesizerContent, eq_comm,
      join_map_eq_iff fun _ _ => synthesized_eq_empty_or]
    simp only [synthesized_eq_passed_iff]
  have hempty : (progress x e).text = "" ↔ ∀ event ∈ heard x e, event.passed = "" := by
    rw [progress_text, join_map_eq_empty_iff]
  constructor
  · intro h hcompletes hsigns
    by_cases hnone : (progress x e).text = ""
    · exact .inl (hempty.1 hnone)
    · have hmem : .cacheSet x.request.prompt (progress x e).text e.cacheTakes
          ∈ (serve cache x e).1 :=
        (cacheSet_mem_serve cache x e).2 ⟨hcompletes, hsigns, hnone, rfl, rfl, rfl⟩
      rw [← List.take_length (l := (serve cache x e).1)] at hmem
      obtain ⟨hended, hanswer⟩ := h _ _ _ _ hmem
      exact .inr ⟨hended, (htext hended).1 hanswer⟩
  · intro h n prompt response taken hmem
    obtain ⟨hcompletes, hsigns, hsome, -, rfl, -⟩ :=
      (cacheSet_mem_serve cache x e).1 (List.mem_of_mem_take hmem)
    rcases h hcompletes hsigns with hnone | ⟨hended, hall⟩
    · exact absurd (hempty.2 hnone) hsome
    · exact ⟨hended, (htext hended).2 hall⟩

/-- A run in which the executor streams its draft before the answer. -/
def draftedRun : Encounter Unit Unit :=
  smoothEncounter [("general_memory", "Gravity, perhaps. "), ("final_synthesizer", "The moon.")] []

/-- The draft is stored with the answer. -/
theorem draft_cached : ¬ ∀ e : Encounter Unit Unit,
    OnlyAnswersCached plainCache (tidesCall .streamChat "alice") e := by
  intro h
  have hmem : .cacheSet "What makes the tides?" "Gravity, perhaps. The moon." true
      ∈ (serve plainCache (tidesCall .streamChat "alice") draftedRun).1.take 5 :=
    .tail _ (.tail _ (.tail _ (.tail _ (.head _))))
  exact absurd (h draftedRun _ _ _ _ hmem).2 (by decide)

end Server
end CognitiveEngine
