/-
# The vector store and the retriever

Qdrant, as `QdrantVectorStore` and its callers use it, and
`HybridRetriever.retrieve` (`app/retrieval/hybrid_retriever.py`).

The engine itself is not part of the repository.  `Qdrant` is what the code relies
on: a search answers from the points that pass its filter (and its score
threshold), and from nothing else.  The filter of a hybrid query holds for the
prefetches below it, and the sparse vectors carry no collection-wide statistics, so
the same is true of `query_points`.  Scores are exact rationals here, and how the
engine ranks and cuts off is left open.
-/

import Mathlib.Algebra.Order.Ring.Rat
import CognitiveEngine.Graph.Environment
import CognitiveEngine.Machine.LastWrite

namespace CognitiveEngine
namespace Server

open CognitiveEngine.Graph CognitiveEngine.Machine

variable {V : Type}

/-! ### Points -/

/-- A payload, as the entries of the dictionary literal that builds it. -/
abbrev Payload : Type := List (String × Json)

/-- `payload.get(key)`; of two entries of a key the later one counts. -/
def Payload.get (payload : Payload) (key : String) : Option Json := payload.reverse.lookup key

/-- A stored point.  The sparse vector is computed from the document. -/
structure Point (V : Type) where
  id : String
  dense : V
  payload : Payload

/-- `payload.get(key, "")` of a key whose values are texts. -/
def Point.text (p : Point V) (key : String) : String :=
  match p.payload.get key with
  | some (.str value) => value
  | _ => ""

/-- `FieldCondition(key=key, match=MatchValue(value=value))`, for a text. -/
def fieldCondition (key value : String) (p : Point V) : Bool :=
  match p.payload.get key with
  | some (.str v) => v == value
  | _ => false

/-- `upsert` of one point: a point with the same id is replaced. -/
def upsert (p : Point V) (points : List (Point V)) : List (Point V) :=
  points.filter (fun q => q.id ≠ p.id) ++ [p]

theorem mem_upsert {p q : Point V} {points : List (Point V)} :
    q ∈ upsert p points ↔ (q ∈ points ∧ q.id ≠ p.id) ∨ q = p := by
  simp [upsert]

/-- **What is left of some upserts:** the last one at each id, after what was stored
under other ids. -/
theorem foldl_upsert (ws points : List (Point V)) :
    ws.foldl (fun points p => upsert p points) points
      = points.filter (fun p => ∀ w ∈ ws, w.id ≠ p.id) ++ lastWrites Point.id ws := by
  induction ws generalizing points with
  | nil => simp [lastWrites]
  | cons w ws ih =>
      have hkept : (points.filter (fun p => p.id ≠ w.id)).filter (fun p => ∀ v ∈ ws, v.id ≠ p.id)
          = points.filter (fun p => ∀ v ∈ w :: ws, v.id ≠ p.id) := by
        rw [List.filter_filter]
        refine List.filter_congr fun p _ => ?_
        rw [← Bool.decide_and, decide_eq_decide, List.forall_mem_cons, ne_comm, and_comm]
      rw [List.foldl_cons, ih, upsert, List.filter_append, hkept, lastWrites, List.append_assoc]
      by_cases hw : ∃ v ∈ ws, v.id = w.id
      · obtain ⟨v, hv, hid⟩ := hw
        have hnot : ¬ ∀ v ∈ ws, v.id ≠ w.id := fun h => h v hv hid
        rw [if_pos ⟨v, hv, hid⟩, List.filter_singleton, decide_eq_false hnot]
        rfl
      · have hall : ∀ v ∈ ws, v.id ≠ w.id := fun v hv hid => hw ⟨v, hv, hid⟩
        rw [if_neg hw, List.filter_singleton, decide_eq_true hall]
        rfl

/-- The collections of the store, by name; `none` for one that does not exist. -/
abbrev Collections (V : Type) : Type := String → Option (List (Point V))

/-- What the code relies on of the search engine. -/
structure Qdrant (V : Type) where
  /-- The similarity of a query and a stored vector. -/
  score : V → V → ℚ
  /-- `client.search` with a filter, a limit and a score threshold. -/
  search : List (Point V) → V → (Point V → Bool) → ℕ → ℚ → List (ℚ × Point V)
  /-- `client.query_points` with the sparse and dense prefetches of a query text and
  its embedding, a filter and a limit; `none` when the call raises. -/
  queryPoints : List (Point V) → String → V → (Point V → Bool) → ℕ → Option (List (Point V))
  search_congr : ∀ (points points' : List (Point V)) (v : V) (filter : Point V → Bool)
    (limit : ℕ) (threshold : ℚ),
    points.filter (fun p => filter p && threshold ≤ score v p.dense)
      = points'.filter (fun p => filter p && threshold ≤ score v p.dense) →
    search points v filter limit threshold = search points' v filter limit threshold
  queryPoints_congr : ∀ (points points' : List (Point V)) (text : String) (v : V)
    (filter : Point V → Bool) (limit : ℕ), points.filter filter = points'.filter filter →
    queryPoints points text v filter limit = queryPoints points' text v filter limit
  queryPoints_mem : ∀ (points : List (Point V)) (text : String) (v : V) (filter : Point V → Bool)
    (limit : ℕ) (found : List (Point V)), queryPoints points text v filter limit = some found →
    ∀ p ∈ found, p ∈ points ∧ filter p

/-- The engine that ranks every point that passes by its score. -/
def Qdrant.exhaustive (score : V → V → ℚ) : Qdrant V where
  score := score
  search points v filter limit threshold :=
    (((points.filter fun p => filter p && threshold ≤ score v p.dense).map
      fun p => (score v p.dense, p)).insertionSort fun a b => b.1 ≤ a.1).take limit
  queryPoints points _ v filter limit :=
    some (((points.filter filter).insertionSort fun a b =>
      score v b.dense ≤ score v a.dense).take limit)
  search_congr points points' v filter limit threshold h := by rw [h]
  queryPoints_congr points points' text v filter limit h := by rw [h]
  queryPoints_mem points text v filter limit found h p hp := by
    obtain rfl := Option.some.inj h
    have hmem := List.mem_of_mem_take hp
    rw [List.mem_insertionSort] at hmem
    exact List.mem_filter.1 hmem

/-- A search returns the points with the highest scores among those that pass. -/
def Qdrant.ReturnsTop (engine : Qdrant V) : Prop :=
  ∀ (points : List (Point V)) (v : V) (filter : Point V → Bool) (limit : ℕ) (threshold : ℚ),
    ∃ ranked : List (ℚ × Point V),
      ranked.Perm ((points.filter fun p => filter p && threshold ≤ engine.score v p.dense).map
        fun p => (engine.score v p.dense, p)) ∧
      ranked.Pairwise (fun a b => b.1 ≤ a.1) ∧
      engine.search points v filter limit threshold = ranked.take limit

/-- A search finds only points of the collection that pass its filter and threshold. -/
def Qdrant.SearchesEligible (engine : Qdrant V) : Prop :=
  ∀ (points : List (Point V)) (v : V) (filter : Point V → Bool) (limit : ℕ) (threshold : ℚ),
    ∀ c ∈ engine.search points v filter limit threshold,
      c.2 ∈ points ∧ filter c.2 ∧ threshold ≤ engine.score v c.2.dense

theorem Qdrant.ReturnsTop.searchesEligible {engine : Qdrant V} (h : engine.ReturnsTop) :
    engine.SearchesEligible := by
  intro points v filter limit threshold c hc
  obtain ⟨ranked, hperm, -, hsearch⟩ := h points v filter limit threshold
  rw [hsearch] at hc
  obtain ⟨p, hp, rfl⟩ := List.mem_map.1 (hperm.mem_iff.1 (List.mem_of_mem_take hc))
  rw [List.mem_filter, Bool.and_eq_true, decide_eq_true_iff] at hp
  exact hp

theorem Qdrant.exhaustive_returnsTop (score : V → V → ℚ) : (Qdrant.exhaustive score).ReturnsTop := by
  intro points v filter limit threshold
  have : Std.Total fun a b : ℚ × Point V => b.1 ≤ a.1 := ⟨fun a b => le_total b.1 a.1⟩
  have : IsTrans (ℚ × Point V) fun a b => b.1 ≤ a.1 := ⟨fun a b c hab hbc => hbc.trans hab⟩
  exact ⟨_, List.perm_insertionSort _ _, List.pairwise_insertionSort _ _, rfl⟩

/-! ### Retrieval -/

/-- `HybridRetriever`, with `str.upper`, which its answer goes through. -/
structure HybridRetriever (V : Type) where
  vectorStore : Qdrant V
  embed : String → V
  upper : String → String

/-- `QdrantVectorStore.hybrid_search` with the filter `{"user_id": user_id}`; a
collection that does not exist has no results. -/
def HybridRetriever.hybridSearch (r : HybridRetriever V) (collections : Collections V)
    (userId query collection : String) (k : ℕ) : Option (List (Point V)) :=
  match collections collection with
  | none => some []
  | some points =>
      r.vectorStore.queryPoints points query (r.embed query) (fieldCondition "user_id" userId) k

/-- `HybridRetriever.retrieve`; nothing found and a search that raises are the empty
text. -/
def HybridRetriever.retrieve (r : HybridRetriever V) (collections : Collections V)
    (userId query collection : String) (k : ℕ) : String :=
  match r.hybridSearch collections userId query collection k with
  | some (p :: ps) =>
      "Known context extracted out of dedicated partition [" ++ r.upper collection ++ "]:\n- " ++
        String.intercalate "\n- " ((p :: ps).map fun p => p.text "document")
  | _ => ""

/-- The points of a collection that carry a user's id. -/
def pointsOf (userId : String) (collections : Collections V) (collection : String) :
    List (Point V) :=
  ((collections collection).getD []).filter (fieldCondition "user_id" userId)

/-- Nothing of the user is stored, nothing is retrieved. -/
theorem retrieve_eq_empty (r : HybridRetriever V) {collections : Collections V}
    {userId collection : String} (h : pointsOf userId collections collection = [])
    (query : String) (k : ℕ) : r.retrieve collections userId query collection k = "" := by
  unfold HybridRetriever.retrieve
  cases hfound : r.hybridSearch collections userId query collection k with
  | none => rfl
  | some found =>
      cases found with
      | nil => rfl
      | cons p ps =>
          unfold HybridRetriever.hybridSearch at hfound
          cases hc : collections collection with
          | none => simp [hc] at hfound
          | some points =>
              rw [hc] at hfound
              obtain ⟨hp, hu⟩ := r.vectorStore.queryPoints_mem _ _ _ _ _ _ hfound p
                List.mem_cons_self
              rw [pointsOf, hc, Option.getD_some, List.filter_eq_nil_iff] at h
              exact absurd hu (h p hp)

/-- **Retrieval reads only the user's own points.** -/
theorem retrieve_congr (r : HybridRetriever V) {collections collections' : Collections V}
    {userId collection : String}
    (h : pointsOf userId collections collection = pointsOf userId collections' collection)
    (query : String) (k : ℕ) :
    r.retrieve collections userId query collection k
      = r.retrieve collections' userId query collection k := by
  by_cases hnil : pointsOf userId collections collection = []
  · rw [retrieve_eq_empty r hnil, retrieve_eq_empty r (h ▸ hnil)]
  · obtain ⟨points, hc⟩ : ∃ points, collections collection = some points := by
      refine Option.ne_none_iff_exists'.1 fun hnone => hnil ?_
      rw [pointsOf, hnone]
      rfl
    obtain ⟨points', hc'⟩ : ∃ points', collections' collection = some points' := by
      refine Option.ne_none_iff_exists'.1 fun hnone => hnil ?_
      rw [h, pointsOf, hnone]
      rfl
    rw [pointsOf, pointsOf, hc, hc', Option.getD_some, Option.getD_some] at h
    have hsearch : r.hybridSearch collections userId query collection k
        = r.hybridSearch collections' userId query collection k := by
      unfold HybridRetriever.hybridSearch
      rw [hc, hc']
      exact r.vectorStore.queryPoints_congr _ _ _ _ _ _ h
    unfold HybridRetriever.retrieve
    rw [hsearch]

end Server
end CognitiveEngine
