/-
# A deployment without collections

`QdrantSemanticCache.get` searches `semantic_cache` without asking whether it is there;
`search` and `hybrid_search` of the vector store do ask.  The collection is made by the
first point that is added to it, and a chat request adds one only after its lookup.

So chat requests alone never get past their lookup, and pruning makes no collection.
`servesAll_iff` says what has to come first: an extraction task that stores a fact under
that very name.

Chat requests, deliveries of extraction tasks and runs of the pruning policy come one
after the other; a request may be broken off after any of its deeds, and a worker after
any of its writes.
-/

import CognitiveEngine.Memory.Pruning
import CognitiveEngine.Memory.Worker
import CognitiveEngine.Server.AnonymousCalls

namespace CognitiveEngine
namespace Server

open CognitiveEngine.Graph CognitiveEngine.Machine CognitiveEngine.Memory

variable {C V : Type}

/-! ### The deployment -/

/-- What happens to the stores. -/
inductive Operation (C V : Type) where
  /-- A chat request, which gets as far as a number of its deeds. -/
  | chat (x : Call) (e : Encounter C V) (deeds : ℕ)
  /-- A delivery of an extraction task, and how many of its writes are made. -/
  | extract (o : Memory.Outside) (writes : ℕ)
  | prune (currentTimestamp : ℕ)

/-- The writes of a delivery that are made. -/
def writesOf (store : MemoryStore V) (o : Memory.Outside) (n : ℕ) : List (String × Point V) :=
  (o.processMessage store).1.writes.take n

variable (cache : SemanticCache V) (store : MemoryStore V) (scroll : Scroll V)

/-- The stores after an operation. -/
def Stores.after (s : Stores C V) : Operation C V → Stores C V
  | .chat x e deeds => storesAfter cache x { e with stores := s } deeds
  | .extract o writes =>
      { s with collections := (writesOf store o writes).foldl land s.collections }
  | .prune currentTimestamp =>
      { s with collections := runPruningPolicy scroll currentTimestamp s.collections }

/-- What a lookup in the semantic cache comes to; `none` when it raises, and no lookup is
made for the other operations. -/
def Stores.lookup (s : Stores C V) : Operation C V → Option (Option String)
  | .chat x _ _ => cache.get (s.collections "semantic_cache") x.request.prompt
  | _ => some none

/-- One operation, and its lookup. -/
def OperationStep (s : Stores C V) (operation : Operation C V) (found : Option (Option String))
    (s' : Stores C V) : Prop :=
  found = s.lookup cache operation ∧ s' = s.after cache store scroll operation

/-- An operation and its lookup. -/
abbrev OperationEvent (C V : Type) : Type :=
  Event (Stores C V) (Operation C V) (Option (Option String))

/-- The stores of a fresh deployment. -/
def Stores.fresh : Stores C V := ⟨fun _ => none, [], fun _ => none⟩

/-- A chat request is served: its lookup is a hit or a miss, and with no answer in the
cache a request whose configuration can be read goes on to run the graph. -/
structure Serves (x : Call) (e : Encounter C V) : Prop where
  looksUp : cache.get (e.stores.collections "semantic_cache") x.request.prompt ≠ none
  runs : (∀ cachedReply, cache.get (e.stores.collections "semantic_cache") x.request.prompt
      ≠ some (some cachedReply)) → x.config.isSome → serve cache x e = runGraph cache x e

/-- **A deployment serves its requests.** -/
def ServesAll (es : List (OperationEvent C V)) : Prop :=
  ∀ event ∈ es, ∀ x e deeds, event.input = .chat x e deeds →
    event.output ≠ none ∧ Serves cache x { e with stores := event.before }

/-- An extraction task stores a fact in `semantic_cache`. -/
def StoresInCache (operation : Operation C V) : Prop :=
  ∃ o writes, operation = .extract o writes ∧
    ∃ w ∈ writesOf store o writes, w.1 = "semantic_cache"

/-- Before every chat request an extraction task has stored a fact in
`semantic_cache`. -/
def FactComesFirst (operations : List (Operation C V)) : Prop :=
  ∀ before x e deeds after, operations = before ++ .chat x e deeds :: after →
    ∃ operation ∈ before, StoresInCache store operation

/-! ### When the collection is there -/

variable {cache store scroll}

/-- A lookup raises exactly when the collection is not there. -/
theorem get_eq_none {collection : Option (List (Point V))} {query : String} :
    cache.get collection query = none ↔ collection = none :=
  Option.map_eq_none_iff

/-- The deeds of a request drop no collection. -/
theorem isSome_foldl_apply {deeds : List (Deed C)} {s : Stores C V} {c : String}
    (h : (s.collections c).isSome) :
    ((deeds.foldl (Stores.apply cache) s).collections c).isSome := by
  induction deeds generalizing s with
  | nil => exact h
  | cons d deeds ih =>
      refine ih ?_
      cases d with
      | send | openCheckpointer | save | publish => exact h
      | cacheSet prompt response taken =>
          cases taken with
          | false => exact h
          | true =>
              by_cases hc : c = "semantic_cache"
              · simp [Stores.apply, SemanticCache.set, hc]
              · simpa [Stores.apply, hc] using h

/-- **No operation drops a collection.** -/
theorem isSome_after {s : Stores C V} {c : String} (h : (s.collections c).isSome)
    (operation : Operation C V) :
    ((s.after cache store scroll operation).collections c).isSome := by
  cases operation with
  | chat x e deeds => exact isSome_foldl_apply h
  | extract o writes => exact isSome_foldl_land.2 (.inl h)
  | prune currentTimestamp => exact (isSome_runPruningPolicy scroll _ _ c).trans h

/-- **What makes the collection of the cache:** a fact stored in it.  A chat request
fails at its lookup before it makes anything. -/
theorem after_eq_none {s : Stores C V} (h : s.collections "semantic_cache" = none)
    {operation : Operation C V} (hnot : ¬ StoresInCache store operation) :
    (s.after cache store scroll operation).collections "semantic_cache" = none := by
  cases operation with
  | chat x e deeds =>
      have hserve : serve cache x { e with stores := s } = ([], true) := by
        unfold serve
        rw [get_eq_none.2 h]
      rw [Stores.after, storesAfter, hserve, List.take_nil]
      exact h
  | extract o writes =>
      rw [← Option.not_isSome_iff_eq_none, Stores.after, isSome_foldl_land, h]
      rintro (hsome | hwrite)
      · exact absurd hsome (by simp)
      · exact hnot ⟨o, writes, rfl, hwrite⟩
  | prune currentTimestamp =>
      rw [← Option.not_isSome_iff_eq_none, Stores.after, isSome_runPruningPolicy, h]
      simp

/-- After some operations the collection is there exactly when it was there before, or
one of them stored a fact in it. -/
theorem isSome_of_trace {s s' : Stores C V} {es : List (OperationEvent C V)}
    (ht : Trace (OperationStep cache store scroll) s es s') :
    (s'.collections "semantic_cache").isSome ↔
      (s.collections "semantic_cache").isSome ∨
        ∃ operation ∈ es.map Event.input, StoresInCache store operation := by
  induction ht with
  | nil s => simp
  | @cons s s₁ s' operation found es hstep ht ih =>
      obtain ⟨-, rfl⟩ := hstep
      rw [ih, List.map_cons, List.exists_mem_cons_iff, ← or_assoc]
      refine or_congr ⟨fun h => ?_, ?_⟩ Iff.rfl
      · by_contra hnot
        rw [not_or, Option.not_isSome_iff_eq_none] at hnot
        rw [after_eq_none hnot.1 hnot.2] at h
        exact absurd h (by simp)
      · rintro (h | ⟨o, writes, rfl, hwrite⟩)
        · exact isSome_after h operation
        · exact isSome_foldl_land.2 (.inr hwrite)

/-- **When a fresh deployment serves its requests.**  In every sequence of chat requests,
extraction tasks and runs of the pruning policy: exactly when an extraction task has
stored a fact in `semantic_cache` before the first chat request. -/
theorem servesAll_iff {s : Stores C V} {es : List (OperationEvent C V)}
    (ht : Trace (OperationStep cache store scroll) .fresh es s) :
    ServesAll cache es ↔ FactComesFirst store (es.map Event.input) := by
  -- What a chat request finds depends on the operations before it.
  have hfinds : ∀ {before after : List (OperationEvent C V)} {event : OperationEvent C V},
      es = before ++ event :: after →
      ((event.before.collections "semantic_cache").isSome ↔
        ∃ operation ∈ before.map Event.input, StoresInCache store operation) ∧
      event.output = event.before.lookup cache event.input := by
    rintro before after event rfl
    obtain ⟨hbefore, s₁, ⟨hfound, -⟩, -⟩ := ht.split
    rw [isSome_of_trace hbefore, Stores.fresh, Option.isSome_none]
    simp [hfound]
  constructor
  · intro hserves operations x e deeds operations' hoperations
    obtain ⟨before, event, after, rfl, rfl, hinput, rfl⟩ := exists_event_of_inputs hoperations
    obtain ⟨-, hlooks⟩ :=
      hserves event (List.mem_append_right _ List.mem_cons_self) x e deeds hinput
    rw [← (hfinds rfl).1, Option.isSome_iff_ne_none]
    exact fun hnone => hlooks.looksUp (get_eq_none.2 hnone)
  · intro hfirst event hevent x e deeds hinput
    obtain ⟨before, after, rfl⟩ := List.append_of_mem hevent
    obtain ⟨hsome, houtput⟩ := hfinds rfl
    have hthere : (event.before.collections "semantic_cache").isSome :=
      hsome.2 (hfirst _ x e deeds (after.map Event.input) (by simp [hinput]))
    have hget : cache.get (event.before.collections "semantic_cache") x.request.prompt ≠ none :=
      fun hnone => Option.isSome_iff_ne_none.1 hthere (get_eq_none.1 hnone)
    rw [houtput, hinput]
    refine ⟨hget, hget, fun hmiss hconfig => ?_⟩
    obtain ⟨found, hfound⟩ := Option.ne_none_iff_exists'.1 hget
    obtain ⟨config, hconfig⟩ := Option.isSome_iff_exists.1 hconfig
    unfold serve
    dsimp only
    rw [hfound, hconfig]
    cases found with
    | none => rfl
    | some cachedReply => exact absurd hfound (hmiss cachedReply)

/-! ### The first request -/

/-- A delivery that stores a fact under the name of the cache. -/
def factForCache : Memory.Outside :=
  { refusedWrite with
    body := some (.obj [("user_id", .str "alice"), ("session_id", .str "s1"),
      ("target_rag_domain", .str "semantic_cache")])
    storeTakes := fun _ => true }

/-- It stores the fact there. -/
theorem storesInCache_factForCache :
    StoresInCache listedStore (.extract factForCache 1 : Operation Unit Unit) := by
  let item : FactItem := ⟨.userPreference, "Drinks tea.", [], 1 / 2⟩
  let w := listedStore.write (factForCache.factCall (.str "alice") "semantic_cache" 0 item)
  have hwrites : (factForCache.processMessage listedStore).1.writes = [w] := by
    have hinput : factForCache.workerInput = some (.str "alice", .str "semantic_cache",
        [.human "I only drink tea.", .ai "Noted." []]) := rfl
    rcases factForCache.processMessage_cases listedStore with ⟨-, hnone, -⟩ | ⟨-, hnone, -⟩ |
      ⟨userId, target, messages, hsome, -, heq⟩
    · exact absurd (hinput.symm.trans hnone) nofun
    · exact absurd (hinput.symm.trans hnone) nofun
    · rw [hinput, Option.some.injEq, Prod.mk.injEq, Prod.mk.injEq] at hsome
      obtain ⟨rfl, rfl, rfl⟩ := hsome
      have hextract : factForCache.extract [.human "I only drink tea.", .ai "Noted." []]
          = some (some [item]) := rfl
      rw [heq]
      dsimp only
      rw [Memory.Outside.processExtractionTask, hextract]
      dsimp only
      rw [Memory.Outside.addFacts, Memory.Outside.addFacts, Memory.Outside.addFact_factCall]
      rfl
  refine ⟨_, _, rfl, w, ?_, rfl⟩
  rw [writesOf, hwrites]
  exact List.mem_cons_self

/-- A question about the tides, all of whose deeds are done. -/
def tidesOperation : Operation Unit Unit :=
  .chat (tidesCall .chatStream "alice")
    (smoothEncounter [("final_synthesizer", "The moon.")] []) 9

/-- With such a fact stored before, the first question is served. -/
theorem served_after_fact :
    ∃ es : List (OperationEvent Unit Unit), es.map Event.input
        = [.extract factForCache 1, tidesOperation] ∧ ServesAll plainCache es := by
  have hstep (s : Stores Unit Unit) (operation : Operation Unit Unit) :
      ∃ found s', OperationStep plainCache listedStore insertionScroll s operation found s' :=
    ⟨_, _, rfl, rfl⟩
  obtain ⟨es, s, ht, hes⟩ := exists_trace hstep [.extract factForCache 1, tidesOperation] .fresh
  refine ⟨es, hes, (servesAll_iff ht).2 ?_⟩
  rw [hes]
  intro before x e deeds after hoperations
  cases before with
  | nil => exact absurd (List.cons.inj hoperations).1 nofun
  | cons operation before =>
      rw [← (List.cons.inj hoperations).1]
      exact ⟨_, List.mem_cons_self, storesInCache_factForCache⟩

/-- The first question to a fresh deployment raises. -/
theorem first_request_raises :
    ¬ ∀ (es : List (OperationEvent Unit Unit)) (s : Stores Unit Unit),
      Trace (OperationStep plainCache listedStore insertionScroll) .fresh es s →
      ServesAll plainCache es := by
  intro h
  have ht : Trace (OperationStep (C := Unit) plainCache listedStore insertionScroll) .fresh
      [⟨.fresh, tidesOperation, none⟩] _ := .cons ⟨rfl, rfl⟩ (.nil _)
  exact (h _ _ ht _ List.mem_cons_self _ _ _ rfl).1 rfl

end Server
end CognitiveEngine
