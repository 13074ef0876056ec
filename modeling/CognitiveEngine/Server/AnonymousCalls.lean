/-
# What an anonymous call leaves behind

A call whose user id starts with `anon_` has no checkpointer and publishes nothing,
at both endpoints.  The third store is written without that test: the answer goes
into the semantic cache like any other.

`leavesNoTrace_iff` says for which anonymous calls everything outside is the same
afterwards: those that store nothing, or an entry that was there already.
-/

import CognitiveEngine.Server.StreamEvents

namespace CognitiveEngine
namespace Server

open CognitiveEngine.Graph Machine

variable {C V : Type}

/-! ### Effects -/

variable (cache : SemanticCache V)

/-- What a deed does to the stores. -/
def Stores.apply (s : Stores C V) : Deed C → Stores C V
  | .send _ | .openCheckpointer _ => s
  | .save threadId c =>
      { s with checkpoints := Function.update s.checkpoints threadId (some c) }
  | .publish m => { s with queue := s.queue ++ [m] }
  | .cacheSet prompt response taken =>
      if taken then
        { s with
          collections := Function.update s.collections "semantic_cache"
            (cache.set (s.collections "semantic_cache") prompt response) }
      else s

/-- The same checkpoints, the same queue, and the same points in every collection. -/
structure Stores.Same (s t : Stores C V) : Prop where
  checkpoints : s.checkpoints = t.checkpoints
  queue : s.queue = t.queue
  exist : ∀ name, (s.collections name).isSome = (t.collections name).isSome
  points : ∀ name p, p ∈ (s.collections name).getD [] ↔ p ∈ (t.collections name).getD []

theorem Stores.Same.refl (s : Stores C V) : s.Same s := ⟨rfl, rfl, fun _ => rfl, fun _ _ => Iff.rfl⟩

/-- The stores after the first deeds of a call. -/
def storesAfter (x : Call) (e : Encounter C V) (n : ℕ) : Stores C V :=
  ((serve cache x e).1.take n).foldl (Stores.apply cache) e.stores

/-- However far the call gets, the stores are as before it. -/
def LeavesNoTrace (x : Call) (e : Encounter C V) : Prop :=
  ∀ n, (storesAfter cache x e n).Same e.stores

/-- A point is in a collection, and is the only one with its id. -/
def SoleUnder (p : Point V) (points : List (Point V)) : Prop :=
  p ∈ points ∧ ∀ q ∈ points, q.id = p.id → q = p

/-- An upsert changes nothing when the point is there already, alone under its id. -/
theorem mem_upsert_iff_mem {p : Point V} {points : List (Point V)} :
    (∀ q, q ∈ upsert p points ↔ q ∈ points) ↔ SoleUnder p points := by
  constructor
  · intro h
    refine ⟨(h p).1 (mem_upsert.2 (.inr rfl)), fun q hq hid => ?_⟩
    rcases mem_upsert.1 ((h q).2 hq) with ⟨-, hne⟩ | heq
    · exact absurd hid hne
    · exact heq
  · rintro ⟨hp, hsole⟩ q
    rw [mem_upsert]
    constructor
    · rintro (⟨hq, -⟩ | rfl)
      · exact hq
      · exact hp
    · intro hq
      by_cases hid : q.id = p.id
      · exact .inr (hsole q hq hid)
      · exact .inl ⟨hq, hid⟩

/-- What a call has the cache store leaves the same stores when the entry is there. -/
theorem same_apply_cacheSet {s t : Stores C V} (hsame : s.Same t)
    (hexists : (t.collections "semantic_cache").isSome) {prompt response : String} :
    (s.apply cache (.cacheSet prompt response true)).Same t ↔
      SoleUnder (cache.entry prompt response) ((t.collections "semantic_cache").getD []) := by
  have hcache : (s.apply cache (.cacheSet prompt response true)).collections "semantic_cache"
      = some (upsert (cache.entry prompt response)
        ((s.collections "semantic_cache").getD [])) := by
    simp [Stores.apply, SemanticCache.set]
  have hother (name : String) (hname : name ≠ "semantic_cache") :
      (s.apply cache (.cacheSet prompt response true)).collections name = s.collections name := by
    simp [Stores.apply, hname]
  rw [← mem_upsert_iff_mem]
  have hupsert (p : Point V) :
      p ∈ upsert (cache.entry prompt response) ((s.collections "semantic_cache").getD []) ↔
        p ∈ upsert (cache.entry prompt response) ((t.collections "semantic_cache").getD []) := by
    rw [mem_upsert, mem_upsert, hsame.points]
  constructor
  · intro h p
    rw [← hupsert, ← h.points "semantic_cache" p, hcache, Option.getD_some]
  · intro h
    refine ⟨hsame.checkpoints, hsame.queue, fun name => ?_, fun name p => ?_⟩
    · by_cases hname : name = "semantic_cache"
      · rw [hname, hcache, hexists, Option.isSome_some]
      · rw [hother name hname]
        exact hsame.exist name
    · by_cases hname : name = "semantic_cache"
      · rw [hname, hcache, Option.getD_some, hupsert, h]
      · rw [hother name hname]
        exact hsame.points name p

/-! ### The deeds of an anonymous call -/

variable (x : Call) (e : Encounter C V)

/-- A deed that sends something or asks the cache to store. -/
def Deed.sendsOrCaches : Deed C → Prop
  | .send _ | .cacheSet _ _ _ => True
  | .openCheckpointer _ | .save _ _ | .publish _ => False

/-- Without a checkpointer the loop only sends. -/
theorem hearAll_none_sends (p : Progress) (events : List (GraphEvent C)) :
    ∀ d ∈ (p.hearAll none events).1, d.sendsOrCaches := by
  induction events generalizing p with
  | nil => simp [Progress.hearAll]
  | cons event events ih =>
      rw [Progress.hearAll, List.forall_mem_append]
      refine ⟨?_, ih _⟩
      cases event with
      | chatModelStream node content =>
          by_cases h : node = "supervisor_router" ∨ content = "" <;>
            simp [Progress.hear, Deed.sendsOrCaches, h]
      | chainEnd name output =>
          by_cases h : name = "compiled_graph" <;> simp [Progress.hear, h]
      | other | checkpoint => simp [Progress.hear]

/-- **An anonymous call sends and asks the cache to store, and does nothing else.** -/
theorem anonymous_deeds (hanon : isAnonymous x.request.userId) :
    ∀ d ∈ (serve cache x e).1, d.sendsOrCaches := by
  have hloop : ∀ d ∈ loopDeeds x e, d.sendsOrCaches := by
    have hthread : x.threadId? = none := if_pos hanon
    rw [loopDeeds, hthread]
    simpa using hearAll_none_sends .start (heard x e)
  have hfinish : ∀ d ∈ (finish cache x e (progress x e)).1, d.sendsOrCaches := by
    have hpublication (p : Progress) : x.publication (C := C) p = [] := by
      simp [Call.publication, hanon]
    intro d hd
    rcases mem_finish cache x e hd with hpublish | rfl | ⟨receipt, rfl⟩
    · rw [hpublication] at hpublish
      exact absurd hpublish List.not_mem_nil
    · trivial
    · trivial
  rcases serve_cases cache x e with ⟨-, heq⟩ | ⟨cachedReply, -, heq⟩ | ⟨-, -, hdeeds⟩
  · rw [heq, List.forall_mem_append]
    exact ⟨hloop, hfinish⟩
  · rw [heq, List.forall_mem_singleton]
    trivial
  · exact fun d hd => hloop d (hdeeds.subset hd)

/-- **When an anonymous call leaves no trace:** exactly when it does not come to the
cache, has no text, the cache does not take it, or holds it already. -/
theorem leavesNoTrace_iff (hanon : isAnonymous x.request.userId) :
    LeavesNoTrace cache x e ↔
      (Completes cache x e → Signs cache x e → e.cacheTakes →
        (∀ event ∈ heard x e, event.passed = "") ∨
        SoleUnder (cache.entry x.request.prompt (String.join ((heard x e).map GraphEvent.passed)))
          ((e.stores.collections "semantic_cache").getD [])) := by
  have hexists (h : Completes cache x e) : (e.stores.collections "semantic_cache").isSome := by
    have hmissed := h.missed
    unfold SemanticCache.get at hmissed
    cases hc : e.stores.collections "semantic_cache" with
    | none => simp [hc] at hmissed
    | some points => rfl
  rw [← join_map_eq_empty_iff, ← progress_text]
  constructor
  · intro h hcompletes hsigns htakes
    by_contra hnot
    rw [not_or] at hnot
    -- The stores just before and just after the entry is stored.
    obtain ⟨before, after, hdeeds⟩ := List.append_of_mem
      ((cacheSet_mem_serve cache x e).2 ⟨hcompletes, hsigns, hnot.1, rfl, rfl, rfl⟩)
    have hbefore := h before.length
    have hafter := h (before.length + 1)
    rw [storesAfter, hdeeds, List.take_left] at hbefore
    rw [storesAfter, hdeeds, List.take_length_add_append, List.foldl_append, htakes] at hafter
    exact hnot.2 ((same_apply_cacheSet cache hbefore (hexists hcompletes)).1 hafter)
  · intro h n
    have hmem : ∀ d ∈ (serve cache x e).1.take n, d ∈ (serve cache x e).1 :=
      fun d hd => List.mem_of_mem_take hd
    unfold storesAfter
    generalize (serve cache x e).1.take n = deeds at hmem
    suffices ∀ s : Stores C V, s.Same e.stores → (deeds.foldl (Stores.apply cache) s).Same e.stores
      from this _ (.refl _)
    induction deeds with
    | nil => exact fun s hs => hs
    | cons d deeds ih =>
        rw [List.forall_mem_cons] at hmem
        intro s hs
        refine ih hmem.2 _ ?_
        have hd := anonymous_deeds cache x e hanon d hmem.1
        cases d with
        | send => exact hs
        | cacheSet prompt response taken =>
            obtain ⟨hcompletes, hsigns, htext, rfl, rfl, rfl⟩ :=
              (cacheSet_mem_serve cache x e).1 hmem.1
            cases htakes : e.cacheTakes with
            | false => exact hs
            | true =>
                refine (same_apply_cacheSet cache hs (hexists hcompletes)).2 ?_
                exact (h hcompletes hsigns htakes).resolve_left htext
        | openCheckpointer | save | publish => exact absurd hd id

/-- An anonymous call whose graph says nothing leaves no trace. -/
theorem silent_call_leaves_no_trace :
    LeavesNoTrace plainCache (tidesCall .chatStream "anon_7")
      (smoothEncounter [("supervisor_router", "medium")] []) :=
  (leavesNoTrace_iff plainCache _ _ rfl).2 fun _ _ _ => .inl (by
    simp [heard, tidesCall, smoothEncounter, GraphEvent.passed])

/-- The question and the answer of an anonymous user are in the cache afterwards. -/
theorem anonymous_answer_cached : ¬ ∀ e : Encounter Unit Unit,
    LeavesNoTrace plainCache (tidesCall .streamChat "anon_7") e := by
  intro h
  let e : Encounter Unit Unit := smoothEncounter [("final_synthesizer", "The moon.")] []
  have hmem : plainCache.entry "What makes the tides?" "The moon."
      ∈ ((storesAfter plainCache (tidesCall .streamChat "anon_7") e 2).collections
        "semantic_cache").getD [] := .head _
  exact absurd (((h e 2).points "semantic_cache" _).1 hmem) List.not_mem_nil

end Server
end CognitiveEngine
