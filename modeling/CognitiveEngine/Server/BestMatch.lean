/-
# Which entry the semantic cache answers with

`QdrantSemanticCache.get` leaves the search to find the `top_k` most similar entries, orders
these by a score of its own, and answers with the first.  So an entry with a better score can
be passed over, but only when it was cut off before: `lookup_spec` says which points a lookup
can end at.

`get_setAll_spec` says the same of the calls of `set`, whatever they are: a query is missed
when nothing like it was ever stored, and otherwise answered as one of the queries like it was
answered last.
-/

import CognitiveEngine.Machine.StableSort
import CognitiveEngine.Machine.TopK
import CognitiveEngine.Server.CacheRoundTrip

namespace CognitiveEngine
namespace Server

open CognitiveEngine.Graph Machine

variable {V : Type}

namespace SemanticCache

variable (cache : SemanticCache V)

/-! ### A lookup -/

/-- The similarity of a stored point to a query. -/
def similarity (query : String) (p : Point V) : ℚ :=
  cache.vectorStore.score (cache.embed query) p.dense

/-- A point is a better match than another: its final score is higher, or is the same and it
is more similar. -/
def Better (query : String) (p p' : Point V) : Prop :=
  cache.finalScore query p' < cache.finalScore query p ∨
    (cache.finalScore query p = cache.finalScore query p' ∧
      cache.similarity query p' < cache.similarity query p)

/-- The points a lookup can end at. -/
structure BestMatch (points : List (Point V)) (query : String) (p : Point V) : Prop where
  mem : p ∈ points
  eligible : cache.eligible query p = true
  /-- Few are more similar. -/
  near : points.countP (fun x => cache.eligible query x &&
    cache.similarity query p < cache.similarity query x) < cache.topK
  /-- A better one has been cut off. -/
  best : ∀ p' ∈ points, cache.eligible query p' = true → cache.Better query p' p →
    cache.topK < points.countP (fun x => cache.eligible query x &&
      cache.similarity query p' ≤ cache.similarity query x)

variable {cache} {points : List (Point V)} {query : String}

/-- **What the search finds and how it is reordered:** points with their scores, in order,
of which the first ones are taken. -/
theorem exists_ranked (htop : cache.vectorStore.ReturnsTop) (points : List (Point V))
    (query : String) :
    ∃ ranked : List (Point V), ranked.Perm (points.filter (cache.eligible query)) ∧
      ranked.Pairwise (fun a b => cache.similarity query b ≤ cache.similarity query a) ∧
      cache.rerank query (cache.vectorStore.search points (cache.embed query) cache.versionFilter
          cache.topK cache.threshold)
        = ((ranked.take cache.topK).map fun p => (cache.finalScore query p, p)).insertionSort
            fun a b => b.1 ≤ a.1 := by
  obtain ⟨scored, hperm, hsorted, hsearch⟩ :=
    htop points (cache.embed query) cache.versionFilter cache.topK cache.threshold
  have hscore : ∀ c ∈ scored, c.1 = cache.similarity query c.2 := by
    intro c hc
    obtain ⟨p, -, rfl⟩ := List.mem_map.1 (hperm.mem_iff.1 hc)
    rfl
  refine ⟨scored.map Prod.snd, ?_, ?_, ?_⟩
  · have hpoints := hperm.map Prod.snd
    rw [List.map_map] at hpoints
    refine hpoints.trans (.of_eq ?_)
    exact (List.map_congr_left fun _ _ => rfl).trans (List.map_id _)
  · rw [List.pairwise_map]
    refine hsorted.imp_of_mem fun {a b} ha hb hab => ?_
    rwa [hscore a ha, hscore b hb] at hab
  · rw [hsearch, rerank, ← List.map_take, List.map_map]
    congr 1
    refine List.map_congr_left fun c hc => ?_
    rw [hscore c (List.mem_of_mem_take hc)]
    rfl

/-- Counting among the points that are eligible. -/
theorem countP_ranked {ranked : List (Point V)}
    (hperm : ranked.Perm (points.filter (cache.eligible query))) (P : Point V → Bool) :
    points.countP (fun x => cache.eligible query x && P x) = ranked.countP P := by
  rw [hperm.countP_eq, List.countP_filter]
  exact List.countP_congr fun x _ => by rw [Bool.and_comm]

/-- **Where a lookup ends.**  It is a miss when nothing is eligible; otherwise it ends at a
best match, and is a miss if that has no document. -/
theorem lookup_spec (htop : cache.vectorStore.ReturnsTop) (hlimit : 1 ≤ cache.topK)
    (points : List (Point V)) (query : String) :
    (cache.lookup points query = none ∧ ∀ p ∈ points, cache.eligible query p = false) ∨
      ∃ p, cache.BestMatch points query p ∧
        cache.lookup points query
          = if p.text "document" = "" then none else some (p.text "document") := by
  obtain ⟨ranked, hperm, hsorted, hrerank⟩ := exists_ranked htop points query
  have hmem (p : Point V) : p ∈ ranked ↔ p ∈ points ∧ cache.eligible query p = true := by
    rw [hperm.mem_iff, List.mem_filter]
  have : Std.Total fun a b : ℚ × Point V => b.1 ≤ a.1 := ⟨fun a b => le_total b.1 a.1⟩
  have : IsTrans (ℚ × Point V) fun a b => b.1 ≤ a.1 := ⟨fun a b c hab hbc => hbc.trans hab⟩
  set scored := (ranked.take cache.topK).map fun p => (cache.finalScore query p, p)
  have hties : (scored.insertionSort fun a b => b.1 ≤ a.1).Pairwise (TieBroken
      (fun a b => b.1 ≤ a.1)
      fun a b => cache.similarity query b.2 ≤ cache.similarity query a.2) := by
    refine pairwise_insertionSort_of_pairwise (List.pairwise_map.2 ?_)
    exact hsorted.sublist (List.take_sublist _ _)
  have hscored (c : ℚ × Point V) : (c ∈ scored.insertionSort fun a b => b.1 ≤ a.1) ↔
      ∃ p ∈ ranked.take cache.topK, (cache.finalScore query p, p) = c := by
    rw [List.mem_insertionSort, List.mem_map]
  cases hsort : scored.insertionSort fun a b => b.1 ≤ a.1 with
  | nil =>
      refine .inl ⟨by rw [lookup, hrerank, hsort], fun p hp => Bool.eq_false_iff.2 fun he => ?_⟩
      have hnone : (ranked.take cache.topK).length = 0 := by
        have hlength := (List.perm_insertionSort (fun a b => b.1 ≤ a.1) scored).length_eq
        rwa [hsort, List.length_nil, List.length_map, eq_comm] at hlength
      have hpos := List.length_pos_of_mem ((hmem p).2 ⟨hp, he⟩)
      rw [List.length_take] at hnone
      omega
  | cons best rest =>
      rw [hsort] at hties hscored
      obtain ⟨p, hp, rfl⟩ := (hscored best).1 List.mem_cons_self
      refine .inr ⟨p, ⟨((hmem p).1 (List.mem_of_mem_take hp)).1,
        ((hmem p).1 (List.mem_of_mem_take hp)).2, ?_, fun p' hp' he hbetter => ?_⟩,
        by rw [lookup, hrerank, hsort]⟩
      · rw [countP_ranked hperm]
        refine countP_lt_of_mem_take hsorted hp (decide_eq_false (lt_irrefl _)) fun b hb => ?_
        exact decide_eq_false hb.not_gt
      · -- Had it been taken, it would stand before the first.
        have hnot : p' ∉ ranked.take cache.topK := by
          intro htaken
          rcases List.mem_cons.1 ((hscored _).2 ⟨p', htaken, rfl⟩) with heq | hrest
          · rw [(Prod.mk.inj heq).2] at hbetter
            rcases hbetter with hlt | ⟨-, hlt⟩ <;> exact lt_irrefl _ hlt
          · have hafter := (List.pairwise_cons.1 hties).1 _ hrest
            rcases hbetter with hlt | ⟨heq, hlt⟩
            · exact hafter.1.not_gt hlt
            · exact (hafter.2 heq.ge).not_gt hlt
        rw [countP_ranked hperm]
        have hle := le_countP_of_notMem_take hsorted ((hmem p').2 ⟨hp', he⟩) hnot
          (P := fun x => cache.similarity query p' ≤ cache.similarity query x)
          fun b hb => decide_eq_true hb
        rwa [if_pos (decide_eq_true (le_refl _))] at hle

/-! ### After calls of `set` -/

variable (cache) in
/-- The similarity of a stored query to a query. -/
def likeness (query cachedQuery : String) : ℚ :=
  cache.vectorStore.score (cache.embed query) (cache.embed cachedQuery)

variable (cache) in
/-- The score of the reranker. -/
def blended (query cachedQuery : String) : ℚ :=
  cache.rerankAlpha * cache.likeness query cachedQuery +
    (1 - cache.rerankAlpha) * cache.lexicalScore query cachedQuery

variable (cache) in
/-- How many stored queries are like a query, and meet a condition besides. -/
def countLike (calls : List (String × String)) (query : String) (P : ℚ → Bool) : ℕ :=
  (lastWrites Prod.fst calls).countP fun call =>
    cache.threshold ≤ cache.likeness query call.1 && P (cache.likeness query call.1)

variable (cache) in
/-- The calls of `set` that a query can be answered from. -/
structure Answers (calls : List (String × String)) (query cachedQuery response : String) :
    Prop where
  last : LastWrite Prod.fst calls (cachedQuery, response)
  similar : cache.threshold ≤ cache.likeness query cachedQuery
  near : cache.countLike calls query (cache.likeness query cachedQuery < ·) < cache.topK
  best : ∀ other response', LastWrite Prod.fst calls (other, response') →
    cache.threshold ≤ cache.likeness query other →
    cache.blended query cachedQuery < cache.blended query other ∨
      (cache.blended query other = cache.blended query cachedQuery ∧
        cache.likeness query cachedQuery < cache.likeness query other) →
    cache.topK < cache.countLike calls query (cache.likeness query other ≤ ·)

/-- Entries are eligible by their query. -/
theorem eligible_entry_eq (cachedQuery response : String) :
    cache.eligible query (cache.entry cachedQuery response)
      = decide (cache.threshold ≤ cache.likeness query cachedQuery) := by
  have hversion : cache.versionFilter (cache.entry cachedQuery response) = true :=
    beq_self_eq_true _
  rw [eligible, hversion, Bool.true_and]
  rfl

/-- What is counted among the entries is counted among the calls. -/
theorem countP_entries (calls : List (String × String)) (P : ℚ → Bool) :
    ((lastWrites Prod.fst calls).map fun call => cache.entry call.1 call.2).countP (fun x =>
        cache.eligible query x && P (cache.similarity query x))
      = cache.countLike calls query P := by
  rw [List.countP_map]
  refine List.countP_congr fun call _ => ?_
  rw [Function.comp_apply, eligible_entry_eq]
  rfl

/-- A lookup among the entries of some calls, and others that are not eligible. -/
theorem lookup_entries (htop : cache.vectorStore.ReturnsTop) (hlimit : 1 ≤ cache.topK)
    {others : List (Point V)} (hothers : ∀ p ∈ others, cache.eligible query p = false)
    (calls : List (String × String)) :
    let points := others ++
      (lastWrites Prod.fst calls).map fun call => cache.entry call.1 call.2
    (cache.lookup points query = none ∧
      ∀ call ∈ calls, cache.likeness query call.1 < cache.threshold) ∨
    ∃ cachedQuery response, cache.Answers calls query cachedQuery response ∧
      cache.lookup points query = if response = "" then none else some response := by
  intro points
  have hentry {call : String × String} (hcall : LastWrite Prod.fst calls call) :
      cache.entry call.1 call.2 ∈ points :=
    List.mem_append_right _ (List.mem_map.2 ⟨call, mem_lastWrites.2 hcall, rfl⟩)
  have hcount (P : ℚ → Bool) : points.countP (fun x =>
      cache.eligible query x && P (cache.similarity query x)) = cache.countLike calls query P := by
    rw [List.countP_append, List.countP_eq_zero.2 fun p hp => by simp [hothers p hp], Nat.zero_add,
      countP_entries]
  rcases lookup_spec htop hlimit points query with ⟨hmiss, hnone⟩ | ⟨p, hbest, hlookup⟩
  · refine .inl ⟨hmiss, fun call hcall => ?_⟩
    obtain ⟨last, hlast, hquery⟩ : ∃ last, LastWrite Prod.fst calls last ∧ last.1 = call.1 :=
      exists_lastWrite hcall
    have hentry' := hnone _ (hentry hlast)
    rw [eligible_entry_eq, decide_eq_false_iff_not, not_le, hquery] at hentry'
    exact hentry'
  · have hmem := (List.mem_append.1 hbest.mem).resolve_left fun hp =>
      Bool.false_ne_true ((hothers p hp).symm.trans hbest.eligible)
    obtain ⟨⟨cachedQuery, response⟩, hlast, rfl⟩ := List.mem_map.1 hmem
    refine .inr ⟨cachedQuery, response, ⟨mem_lastWrites.1 hlast, ?_, ?_, ?_⟩, hlookup⟩
    · have heligible := hbest.eligible
      rwa [eligible_entry_eq, decide_eq_true_iff] at heligible
    · have hnear := hbest.near
      rwa [hcount (cache.similarity query (cache.entry cachedQuery response) < ·)] at hnear
    · intro other response' hother hsimilar hbetter
      have heligible : cache.eligible query (cache.entry other response') = true := by
        rw [eligible_entry_eq, decide_eq_true_iff]
        exact hsimilar
      have hcut := hbest.best _ (hentry hother) heligible hbetter
      rwa [hcount (cache.similarity query (cache.entry other response') ≤ ·)] at hcut

/-- **What a query is answered with.**  After any calls of `set` on a collection without
entries of the same version: nothing, when no query like it was ever stored; and otherwise
the last response to one of the `top_k` that are most like it, better than all others but
those that were cut off. -/
theorem get_setAll_spec (htop : cache.vectorStore.ReturnsTop) (hlimit : 1 ≤ cache.topK)
    (hsha : Function.Injective cache.sha256) (huuid : Function.Injective cache.uuid5)
    {collection : Option (List (Point V))}
    (hothers : ∀ p ∈ collection.getD [], cache.versionFilter p = false)
    {calls : List (String × String)} (hne : calls ≠ []) (query : String) :
    (cache.get (cache.setAll collection calls) query = some none ∧
      ∀ call ∈ calls, cache.likeness query call.1 < cache.threshold) ∨
    ∃ cachedQuery response, cache.Answers calls query cachedQuery response ∧
      cache.get (cache.setAll collection calls) query
        = some (if response = "" then none else some response) := by
  have hleft : lastWrites Point.id (calls.map fun call => cache.entry call.1 call.2)
      = (lastWrites Prod.fst calls).map fun call => cache.entry call.1 call.2 :=
    lastWrites_map fun _ _ => cache.entry_id_inj hsha huuid
  rw [cache.setAll_eq_some hne, foldl_upsert, hleft, get, Option.map_some, Option.some_inj]
  have hnot : ∀ p ∈ (collection.getD []).filter (fun p : Point V =>
      ∀ w ∈ calls.map fun call : String × String => cache.entry call.1 call.2, w.id ≠ p.id),
      cache.eligible query p = false := by
    intro p hp
    rw [eligible, hothers p (List.mem_filter.1 hp).1, Bool.false_and]
  rcases lookup_entries htop hlimit hnot calls with hmiss | ⟨q, response, hanswers, hlookup⟩
  · exact .inl hmiss
  · exact .inr ⟨q, response, hanswers, congrArg some hlookup⟩

end SemanticCache

/-- The question about the tides is answered from what was stored. -/
theorem tides_answered : ∃ cachedQuery response,
    exactCache.Answers tidesCalls "What makes the tides?" cachedQuery response ∧
      exactCache.get (exactCache.setAll none tidesCalls) "What makes the tides?"
        = some (if response = "" then none else some response) := by
  have hlikeness : ∀ a b, exactCache.likeness a b = if a = b then 1 else 0 := fun _ _ => rfl
  refine (exactCache.get_setAll_spec (Qdrant.exhaustive_returnsTop _) (by decide)
    listedSha256.value_injective listedUuid5.value_injective
    (List.forall_mem_nil _) (by decide) "What makes the tides?").resolve_left ?_
  rintro ⟨-, hnone⟩
  have hlt := hnone ("What makes the tides?", "The moon.") (by decide)
  rw [hlikeness, if_pos rfl] at hlt
  norm_num [exactCache] at hlt

end Server
end CognitiveEngine
