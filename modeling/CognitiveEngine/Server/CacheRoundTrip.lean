/-
# The round trip of the semantic cache

What `QdrantSemanticCache.set` stored last for a query is what `get` answers it with.
The search returns the entries with the highest scores, the reranker puts them in an
order of its own, and every other entry of the collection competes: `lookup_of_best`
says which point a lookup ends at, and `finalScore_lt` that no other query's entry
gets past that of the query itself.  For a query without words the reranker has no
word overlap to go by, for any entry.

The embedding tells queries apart: the score of a query with itself is one, that with
any other cached query is less.
-/

import Mathlib.Algebra.Order.Field.Rat
import Mathlib.Tactic.Linarith
import CognitiveEngine.Machine.Positions
import CognitiveEngine.Server.SemanticCache

namespace CognitiveEngine
namespace Server

open CognitiveEngine.Graph Machine

variable {V : Type}

namespace SemanticCache

variable (cache : SemanticCache V)

/-! ### The reranker -/

/-- The score the reranker gives to a point. -/
def finalScore (query : String) (p : Point V) : ℚ :=
  cache.rerankAlpha * cache.vectorStore.score (cache.embed query) p.dense +
    (1 - cache.rerankAlpha) * cache.lexicalScore query (p.text "query")

/-- The lexical score is at most one. -/
theorem lexicalScore_le_one (query cachedQuery : String) :
    cache.lexicalScore query cachedQuery ≤ 1 := by
  unfold lexicalScore
  dsimp only
  split
  · exact zero_le_one
  · refine div_le_one_of_le₀ ?_ (Nat.cast_nonneg _)
    rw [Nat.cast_le, List.length_append]
    exact (List.length_filter_le _ _).trans (Nat.le_add_right _ _)

/-- A query without words overlaps with nothing, and any other one fully with itself. -/
theorem lexicalScore_le_self (query cachedQuery : String) :
    cache.lexicalScore query cachedQuery ≤ cache.lexicalScore query query := by
  by_cases hblank : (pySplit (cache.lower query)).dedup = []
  · have hzero : ∀ other, cache.lexicalScore query other = 0 := fun other => if_pos (.inl hblank)
    rw [hzero, hzero]
  · have hself : cache.lexicalScore query query = 1 := by
      have hlength : ((pySplit (cache.lower query)).dedup.length : ℚ) ≠ 0 := by
        rw [Nat.cast_ne_zero]
        exact fun hzero => hblank (List.length_eq_zero_iff.1 hzero)
      have hall : (pySplit (cache.lower query)).dedup.filter
          (· ∈ (pySplit (cache.lower query)).dedup) = (pySplit (cache.lower query)).dedup :=
        List.filter_eq_self.2 fun word hword => decide_eq_true hword
      have hnone : (pySplit (cache.lower query)).dedup.filter
          (· ∉ (pySplit (cache.lower query)).dedup) = [] :=
        List.filter_eq_nil_iff.2 fun word hword => by simpa using hword
      unfold lexicalScore
      dsimp only
      rw [if_neg (not_or.2 ⟨hblank, hblank⟩), hall, hnone, List.append_nil, div_self hlength]
    rw [hself]
    exact cache.lexicalScore_le_one query cachedQuery

/-- **No other entry gets past that of the query itself** when its score is less. -/
theorem finalScore_lt (hpos : 0 < cache.rerankAlpha) (hle : cache.rerankAlpha ≤ 1)
    {query other response response' : String}
    (hscore : cache.vectorStore.score (cache.embed query) (cache.embed other)
      < cache.vectorStore.score (cache.embed query) (cache.embed query)) :
    cache.finalScore query (cache.entry other response)
      < cache.finalScore query (cache.entry query response') := by
  have hlexical := mul_le_mul_of_nonneg_left (cache.lexicalScore_le_self query other)
    (sub_nonneg.2 hle)
  have hsemantic := mul_lt_mul_of_pos_left hscore hpos
  exact add_lt_add_of_lt_of_le hsemantic hlexical

/-- **Where a lookup ends:** at the eligible point whose score and whose final score
are the highest. -/
theorem lookup_of_best (htop : cache.vectorStore.ReturnsTop) (hlimit : 1 ≤ cache.topK)
    {points : List (Point V)} {query : String} {p : Point V} (hp : p ∈ points)
    (he : cache.eligible query p)
    (hbest : ∀ p' ∈ points, cache.eligible query p' → p' = p ∨
      (cache.vectorStore.score (cache.embed query) p'.dense
          < cache.vectorStore.score (cache.embed query) p.dense ∧
        cache.finalScore query p' < cache.finalScore query p)) :
    cache.lookup points query
      = if p.text "document" = "" then none else some (p.text "document") := by
  obtain ⟨ranked, hperm, hranked, hsearch⟩ :=
    htop points (cache.embed query) cache.versionFilter cache.topK cache.threshold
  have hmem : ∀ c, c ∈ ranked ↔ ∃ p' ∈ points, cache.eligible query p' ∧
      (cache.vectorStore.score (cache.embed query) p'.dense, p') = c := by
    intro c
    rw [hperm.mem_iff, List.mem_map]
    simp only [List.mem_filter, and_assoc]
    rfl
  -- The point is the first of those found, and stays so when they are ranked again.
  have hfirst : ranked.head? = some (cache.vectorStore.score (cache.embed query) p.dense, p) := by
    refine head?_of_best hranked ((hmem _).2 ⟨p, hp, he, rfl⟩) fun c hc => ?_
    obtain ⟨p', hp', he', rfl⟩ := (hmem c).1 hc
    rcases hbest p' hp' he' with rfl | ⟨hlt, -⟩
    · exact .inl rfl
    · exact .inr hlt
  obtain ⟨others, hothers⟩ := List.head?_eq_some_iff.1 hfirst
  have hcandidate : (cache.vectorStore.score (cache.embed query) p.dense, p)
      ∈ ranked.take cache.topK := by
    obtain ⟨k, hk⟩ := Nat.exists_eq_add_of_le' hlimit
    rw [hothers, hk, List.take_succ_cons]
    exact List.mem_cons_self
  have : Std.Total fun a b : ℚ × Point V => b.1 ≤ a.1 := ⟨fun a b => le_total b.1 a.1⟩
  have : IsTrans (ℚ × Point V) fun a b => b.1 ≤ a.1 := ⟨fun a b c hab hbc => hbc.trans hab⟩
  have hreranked : (((ranked.take cache.topK).map fun candidate =>
      (cache.rerankAlpha * candidate.1 +
        (1 - cache.rerankAlpha) * cache.lexicalScore query (candidate.2.text "query"),
        candidate.2)).insertionSort (fun a b => b.1 ≤ a.1)).head?
      = some (cache.finalScore query p, p) := by
    refine head?_of_best (List.pairwise_insertionSort _ _) ?_ fun r hr => ?_
    · rw [List.mem_insertionSort]
      exact List.mem_map.2 ⟨_, hcandidate, rfl⟩
    · rw [List.mem_insertionSort] at hr
      obtain ⟨c, hc, rfl⟩ := List.mem_map.1 hr
      obtain ⟨p', hp', he', rfl⟩ := (hmem c).1 (List.mem_of_mem_take hc)
      rcases hbest p' hp' he' with rfl | ⟨-, hlt⟩
      · exact .inl rfl
      · exact .inr hlt
  obtain ⟨rest, hsorted⟩ := List.head?_eq_some_iff.1 hreranked
  unfold lookup
  rw [hsearch, rerank, hsorted]

/-! ### What is stored -/

/-- A sequence of calls of `set`, of a query and a response each. -/
def setAll (collection : Option (List (Point V))) (calls : List (String × String)) :
    Option (List (Point V)) :=
  calls.foldl (fun collection call => cache.set collection call.1 call.2) collection

/-- What the calls leave behind, when there are any. -/
theorem setAll_eq_some {collection : Option (List (Point V))} {calls : List (String × String)}
    (h : calls ≠ []) :
    cache.setAll collection calls
      = some ((calls.map fun call => cache.entry call.1 call.2).foldl
          (fun points p => upsert p points) (collection.getD [])) := by
  induction calls generalizing collection with
  | nil => exact absurd rfl h
  | cons call calls ih =>
      have hset : cache.setAll collection (call :: calls)
          = cache.setAll (cache.set collection call.1 call.2) calls := rfl
      rw [hset]
      by_cases hnil : calls = []
      · rw [hnil]
        rfl
      · rw [ih hnil]
        rfl

/-- The entries of two queries have the same id when the queries are the same. -/
theorem entry_id_inj (hsha : Function.Injective cache.sha256)
    (huuid : Function.Injective cache.uuid5) {query query' response response' : String} :
    (cache.entry query response).id = (cache.entry query' response').id ↔ query = query' := by
  rw [entry, entry, huuid.eq_iff, docId, docId, hsha.eq_iff, String.append_right_inj]

/-- **The round trip.**  After any calls of `set`, a query is answered with the response
that was stored for it last. -/
theorem get_setAll (htop : cache.vectorStore.ReturnsTop) (hpos : 0 < cache.rerankAlpha)
    (hle : cache.rerankAlpha ≤ 1) (hthreshold : cache.threshold ≤ 1) (hlimit : 1 ≤ cache.topK)
    (hsha : Function.Injective cache.sha256) (huuid : Function.Injective cache.uuid5)
    {collection : Option (List (Point V))}
    (hothers : ∀ p ∈ collection.getD [], cache.versionFilter p = false)
    {calls : List (String × String)} {query response : String}
    (hlast : LastWrite Prod.fst calls (query, response)) (hsome : response ≠ "")
    (hself : cache.vectorStore.score (cache.embed query) (cache.embed query) = 1)
    (hapart : ∀ call ∈ calls, call.1 ≠ query →
      cache.vectorStore.score (cache.embed query) (cache.embed call.1) < 1) :
    cache.get (cache.setAll collection calls) query = some (some response) := by
  have hne : calls ≠ [] := List.ne_nil_of_mem hlast.mem
  have hleft : lastWrites Point.id (calls.map fun call => cache.entry call.1 call.2)
      = (lastWrites Prod.fst calls).map fun call => cache.entry call.1 call.2 :=
    lastWrites_map fun _ _ => cache.entry_id_inj hsha huuid
  rw [cache.setAll_eq_some hne, foldl_upsert, hleft, get, Option.map_some, Option.some.injEq]
  have hdocument : (cache.entry query response).text "document" = response := rfl
  rw [cache.lookup_of_best htop hlimit (p := cache.entry query response), hdocument, if_neg hsome]
  · exact List.mem_append_right _ (List.mem_map.2 ⟨_, mem_lastWrites.2 hlast, rfl⟩)
  · have hscore : cache.threshold ≤
        cache.vectorStore.score (cache.embed query) (cache.entry query response).dense := by
      rw [entry, hself]
      exact hthreshold
    have hversion : cache.versionFilter (cache.entry query response) = true := beq_self_eq_true _
    rw [eligible, hversion, decide_eq_true hscore]
    rfl
  · intro p hp he
    rcases List.mem_append.1 hp with hp | hp
    · -- A point from before is of another version.
      have hversion := hothers p (List.mem_filter.1 hp).1
      rw [eligible, hversion] at he
      exact absurd he (by simp)
    · obtain ⟨call, hcall, rfl⟩ := List.mem_map.1 hp
      have hcall' := mem_lastWrites.1 hcall
      by_cases hquery : call.1 = query
      · obtain rfl := hcall'.unique hlast hquery
        exact .inl rfl
      · have hlt := hapart call hcall'.mem hquery
        rw [← hself] at hlt
        exact .inr ⟨hlt, cache.finalScore_lt hpos hle hlt⟩

end SemanticCache

/-- A cache over an embedding that tells all texts apart. -/
def exactCache : SemanticCache String where
  vectorStore := .exhaustive fun a b => if a = b then 1 else 0
  embed := id
  modelVersion := "gpt-4o"
  threshold := 23 / 25
  topK := 5
  rerankAlpha := 4 / 5
  lower := String.toLower
  sha256 := listedSha256.value
  uuid5 := listedUuid5.value

/-- Calls for one query twice, for its words in another order and for a blank one. -/
def tidesCalls : List (String × String) :=
  [("What makes the tides?", "The wind."), ("the tides? What makes", "The sun."),
    ("What makes the tides?", "The moon."), ("  ", "Ask me something.")]

/-- The second answer to the query is found. -/
theorem tides_round_trip :
    exactCache.get (exactCache.setAll none tidesCalls) "What makes the tides?"
      = some (some "The moon.") := by
  have hscore : ∀ a b, exactCache.vectorStore.score (exactCache.embed a) (exactCache.embed b)
      = if a = b then 1 else 0 := fun _ _ => rfl
  refine exactCache.get_setAll (Qdrant.exhaustive_returnsTop _) ?_ ?_ ?_ ?_ ?_ ?_ ?_ ?_ ?_ ?_ ?_
  · norm_num [exactCache]
  · norm_num [exactCache]
  · norm_num [exactCache]
  · decide
  · exact listedSha256.value_injective
  · exact listedUuid5.value_injective
  · exact List.forall_mem_nil _
  · exact mem_lastWrites.1 (by decide)
  · decide
  · rw [hscore, if_pos rfl]
  · intro call _ hne
    rw [hscore, if_neg (Ne.symm hne)]
    exact zero_lt_one

end Server
end CognitiveEngine
