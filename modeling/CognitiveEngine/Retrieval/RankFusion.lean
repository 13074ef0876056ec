/-
# Reciprocal rank fusion

`RRF._reciprocal_rank_fusion` (`app/retrieval/rrf_search.py`), in exact rational
arithmetic.  Two loops add up the scores of the ids in one dictionary and keep the
last document of each id in another; the scores are sorted, highest first, and every
id is turned back into its document.

`Fused` says what the result is to be, by the positions of the ids in the two lists
alone: `reciprocalRankFusion_spec` says that the code returns exactly that.
`reciprocalRankFusion_dominance` says that a result which is ranked before another
wherever that one is ranked at all comes out before it.
-/

import Mathlib.Algebra.BigOperators.Intervals
import Mathlib.Algebra.Order.Field.Basic
import Mathlib.Algebra.Order.Field.Rat
import Mathlib.Tactic.Linarith
import Mathlib.Tactic.Positivity
import CognitiveEngine.Machine.Dict
import CognitiveEngine.Machine.Fallible
import CognitiveEngine.Machine.LastWrite
import CognitiveEngine.Machine.StableSort

namespace CognitiveEngine
namespace Retrieval

open CognitiveEngine.Machine

variable {V : Type}

/-! ### Documents -/

/-- A value in the dictionary of a result: one that a search gave, or a fused score. -/
inductive Value (V : Type) where
  | given (v : V)
  | score (q : ℚ)

/-- A result, which has an `id`. -/
structure Doc (V : Type) where
  fields : Dict String (Value V)
  id : V
  fields_id : fields.get? "id" = some (.given id)

/-- `hydrated_doc = doc.copy()`, with its `rrf_score` set. -/
def Doc.withScore (doc : Doc V) (score : ℚ) : Doc V where
  fields := doc.fields.set "rrf_score" (.score score)
  id := doc.id
  fields_id := by rw [Dict.get?_set, if_neg (by decide), doc.fields_id]

/-- The result that has an id and nothing else. -/
def Doc.bare (i : V) : Doc V where
  fields := Dict.empty.set "id" (.given i)
  id := i
  fields_id := by rw [Dict.get?_set, if_pos rfl]

/-! ### The two loops -/

variable [DecidableEq V]

/-- The two dictionaries. -/
structure Fusion (V : Type) where
  rrfScores : Dict V ℚ
  docMapping : Dict V (Doc V)

/-- Before the first loop. -/
def Fusion.start : Fusion V := ⟨.empty, .empty⟩

/-- What a loop does with a document and its rank. -/
def Fusion.rank (k : ℕ) (f : Fusion V) (doc : Doc V) (rank : ℕ) : Fusion V :=
  let docMapping := f.docMapping.set doc.id doc
  let rrfScores :=
    if doc.id ∈ f.rrfScores.keys then f.rrfScores else f.rrfScores.set doc.id 0
  ⟨rrfScores.set doc.id ((rrfScores.get? doc.id).getD 0 + 1 / (k + rank + 1)), docMapping⟩

/-- `for rank, doc in enumerate(results)`. -/
def Fusion.rankAll (k : ℕ) (f : Fusion V) (results : List (Doc V)) : Fusion V :=
  results.zipIdx.foldl (fun f (doc, rank) => f.rank k doc rank) f

/-- `_reciprocal_rank_fusion`; `none` if an id has no document. -/
def reciprocalRankFusion (denseResults lexicalResults : List (Doc V)) (k : ℕ) :
    Option (List (Doc V)) :=
  let f := (Fusion.start.rankAll k denseResults).rankAll k lexicalResults
  let sortedDocs := f.rrfScores.items.insertionSort fun a b => b.2 ≤ a.2
  sortedDocs.mapM fun (docId, score) => (f.docMapping.get? docId).map (Doc.withScore · score)

/-! ### What is to come out -/

/-- The sum of the reciprocal ranks of the positions at which an id stands. -/
def reciprocalRanks (k : ℕ) (ids : List V) (i : V) : ℚ :=
  ∑ p ∈ Finset.range ids.length with ids[p]? = some i, 1 / ((k : ℚ) + p + 1)

/-- The score of an id in both lists. -/
def fusedScore (k : ℕ) (dense lexical : List (Doc V)) (i : V) : ℚ :=
  reciprocalRanks k (dense.map Doc.id) i + reciprocalRanks k (lexical.map Doc.id) i

/-- The position at which an id first occurs in the one list followed by the other. -/
def firstPlace (dense lexical : List (Doc V)) (i : V) : ℕ :=
  ((dense ++ lexical).map Doc.id).idxOf i

/-- A higher score comes first, and of equal scores the id that was seen first. -/
def RanksBefore (k : ℕ) (dense lexical : List (Doc V)) (i j : V) : Prop :=
  fusedScore k dense lexical j < fusedScore k dense lexical i ∨
    (fusedScore k dense lexical i = fusedScore k dense lexical j ∧
      firstPlace dense lexical i < firstPlace dense lexical j)

/-- The fusion of two lists. -/
structure Fused (dense lexical : List (Doc V)) (k : ℕ) (out : List (Doc V)) : Prop where
  nodup : (out.map Doc.id).Nodup
  mem_iff : ∀ i, i ∈ out.map Doc.id ↔ i ∈ dense.map Doc.id ∨ i ∈ lexical.map Doc.id
  /-- The last document of its id, with the score of the id. -/
  hydrated : ∀ doc ∈ out, ∃ last, LastWrite Doc.id (dense ++ lexical) last ∧
    last.id = doc.id ∧ doc = last.withScore (fusedScore k dense lexical doc.id)
  ordered : (out.map Doc.id).Pairwise (RanksBefore k dense lexical)

/-! ### The loops, taken as a whole -/

variable {k : ℕ}

/-- A document adds its reciprocal rank to the score of its id. -/
theorem rank_rrfScores (f : Fusion V) (doc : Doc V) (rank : ℕ) :
    (f.rank k doc rank).rrfScores
      = f.rrfScores.set doc.id ((f.rrfScores.get? doc.id).getD 0 + 1 / (k + rank + 1)) := by
  unfold Fusion.rank
  dsimp only
  by_cases h : doc.id ∈ f.rrfScores.keys
  · rw [if_pos h]
  · have hnone : f.rrfScores.get? doc.id = none := by
      simpa [Dict.mem_keys_iff] using h
    rw [if_neg h, Dict.set_set, Dict.get?_set, if_pos rfl, hnone, Option.getD_some,
      Option.getD_none]

/-- What the loops have come to after some documents, each with its rank. -/
structure Fusion.Ranked (k : ℕ) (ranked : List (Doc V × ℕ)) (f : Fusion V) : Prop where
  seen : FirstSeen ((ranked.map Prod.fst).map Doc.id) f.rrfScores.keys
  score : ∀ i, (f.rrfScores.get? i).getD 0
    = ((ranked.filter fun w => w.1.id = i).map fun w => 1 / ((k : ℚ) + w.2 + 1)).sum
  mapped : ∀ i doc, f.docMapping.get? i = some doc ↔
    LastWrite Doc.id (ranked.map Prod.fst) doc ∧ doc.id = i

theorem ranked_start : Fusion.Ranked k [] (Fusion.start : Fusion V) where
  seen := .nil
  score i := rfl
  mapped i doc := by
    refine iff_of_false nofun ?_
    rintro ⟨hlast, -⟩
    exact absurd hlast.mem List.not_mem_nil

/-- **One document more.** -/
theorem Fusion.Ranked.rank {ranked : List (Doc V × ℕ)} {f : Fusion V} (h : f.Ranked k ranked)
    (doc : Doc V) (rank : ℕ) : (f.rank k doc rank).Ranked k (ranked ++ [(doc, rank)]) where
  seen := by
    rw [rank_rrfScores, List.map_append, List.map_append]
    exact h.seen.set _ _
  score i := by
    rw [rank_rrfScores, Dict.get?_set, List.filter_append, List.map_append, List.sum_append,
      ← h.score]
    by_cases hi : i = doc.id
    · simp [hi]
    · simp [hi, Ne.symm hi]
  mapped i last := by
    have hset : (f.rank k doc rank).docMapping = f.docMapping.set doc.id doc := rfl
    rw [hset, Dict.get?_set, List.map_append, List.map_singleton, lastWrite_concat]
    by_cases hi : i = doc.id
    · subst hi
      rw [if_pos rfl, Option.some_inj]
      constructor
      · rintro rfl
        exact ⟨.inl rfl, rfl⟩
      · rintro ⟨rfl | ⟨-, hne⟩, hid⟩
        · rfl
        · exact absurd hid.symm hne
    · rw [if_neg hi, h.mapped]
      constructor
      · rintro ⟨hlast, rfl⟩
        exact ⟨.inr ⟨hlast, Ne.symm hi⟩, rfl⟩
      · rintro ⟨rfl | ⟨hlast, -⟩, hid⟩
        · exact absurd hid.symm hi
        · exact ⟨hlast, hid⟩

theorem Fusion.Ranked.foldl {ranked : List (Doc V × ℕ)} {f : Fusion V} (h : f.Ranked k ranked)
    (ws : List (Doc V × ℕ)) :
    (ws.foldl (fun f (doc, rank) => f.rank k doc rank) f).Ranked k (ranked ++ ws) := by
  induction ws generalizing ranked f with
  | nil => rwa [List.append_nil]
  | cons w ws ih =>
      rw [List.foldl_cons, List.append_cons]
      exact ih (h.rank w.1 w.2)

/-- **After both loops.** -/
theorem ranked_both (dense lexical : List (Doc V)) :
    ((Fusion.start.rankAll k dense).rankAll k lexical).Ranked k (dense.zipIdx ++ lexical.zipIdx) :=
  (ranked_start.foldl dense.zipIdx).foldl lexical.zipIdx

/-- The scores added in one loop are the reciprocal ranks of the id. -/
theorem sum_zipIdx (results : List (Doc V)) (i : V) :
    ((results.zipIdx.filter fun w => w.1.id = i).map fun w => 1 / ((k : ℚ) + w.2 + 1)).sum
      = reciprocalRanks k (results.map Doc.id) i := by
  induction results using List.reverseRecOn with
  | nil => simp [reciprocalRanks]
  | append_singleton results doc ih =>
      have hbefore : ∀ p ∈ Finset.range (results.map Doc.id).length,
          (results.map Doc.id ++ [doc.id])[p]? = (results.map Doc.id)[p]? := by
        intro p hp
        exact List.getElem?_append_left (Finset.mem_range.1 hp)
      have hlast : (results.map Doc.id ++ [doc.id])[(results.map Doc.id).length]? = some doc.id :=
        List.getElem?_concat_length
      rw [List.zipIdx_append, List.filter_append, List.map_append, List.sum_append, ih,
        List.map_append, List.map_singleton]
      unfold reciprocalRanks
      rw [List.length_append, List.length_singleton, Finset.sum_filter, Finset.sum_filter,
        Finset.sum_range_succ, hlast]
      congr 1
      · refine Finset.sum_congr rfl fun p hp => ?_
        rw [hbefore p hp]
      · by_cases hi : doc.id = i <;> simp [hi]

/-- **The score of an id after both loops.** -/
theorem Fusion.Ranked.fusedScore {f : Fusion V} {dense lexical : List (Doc V)}
    (h : f.Ranked k (dense.zipIdx ++ lexical.zipIdx)) (i : V) :
    (f.rrfScores.get? i).getD 0 = fusedScore k dense lexical i := by
  rw [h.score, List.filter_append, List.map_append, List.sum_append, sum_zipIdx, sum_zipIdx]
  rfl

/-! ### What comes out -/

omit [DecidableEq V] in
theorem map_fst_both (dense lexical : List (Doc V)) :
    (dense.zipIdx ++ lexical.zipIdx).map Prod.fst = dense ++ lexical := by
  rw [List.map_append, List.zipIdx_map_fst, List.zipIdx_map_fst]

section Output

variable {f : Fusion V} {dense lexical : List (Doc V)}

/-- The ids with a score are those of the two lists. -/
theorem Fusion.Ranked.mem_keys_iff (h : f.Ranked k (dense.zipIdx ++ lexical.zipIdx)) (i : V) :
    i ∈ f.rrfScores.keys ↔ i ∈ dense.map Doc.id ∨ i ∈ lexical.map Doc.id := by
  rw [h.seen.mem_iff, map_fst_both, List.map_append, List.mem_append]

/-- An id has the score that it is listed with, and a document. -/
theorem Fusion.Ranked.item (h : f.Ranked k (dense.zipIdx ++ lexical.zipIdx)) {i : V} {q : ℚ}
    (hitem : (i, q) ∈ f.rrfScores.items) :
    q = Retrieval.fusedScore k dense lexical i ∧ ∃ last, f.docMapping.get? i = some last := by
  have hget := Dict.mem_items_iff.1 hitem
  refine ⟨by rw [← h.fusedScore, hget, Option.getD_some], ?_⟩
  have hkey : i ∈ (dense ++ lexical).map Doc.id := by
    rw [List.map_append, List.mem_append, ← h.mem_keys_iff, Dict.mem_keys_iff, hget]
    rfl
  obtain ⟨doc, hdoc, hid⟩ := List.mem_map.1 hkey
  obtain ⟨last, hlast, hsame⟩ : ∃ last, LastWrite Doc.id (dense ++ lexical) last ∧ last.id = doc.id :=
    exists_lastWrite hdoc
  refine ⟨last, (h.mapped i last).2 ⟨?_, hsame.trans hid⟩⟩
  rwa [map_fst_both]

/-- **The ids with their scores, sorted:** highest first, and of equal ones the one that
was seen first. -/
theorem Fusion.Ranked.sorted (h : f.Ranked k (dense.zipIdx ++ lexical.zipIdx)) :
    ((f.rrfScores.items.insertionSort fun a b => b.2 ≤ a.2).map Prod.fst).Pairwise
      (RanksBefore k dense lexical) := by
  have : Std.Total fun a b : V × ℚ => b.2 ≤ a.2 := ⟨fun a b => le_total b.2 a.2⟩
  have : IsTrans (V × ℚ) fun a b => b.2 ≤ a.2 := ⟨fun a b c hab hbc => hbc.trans hab⟩
  have hseen : f.rrfScores.items.Pairwise fun a b =>
      firstPlace dense lexical a.1 < firstPlace dense lexical b.1 := by
    have hordered := h.seen.ordered
    rw [map_fst_both, Dict.keys, List.pairwise_map] at hordered
    exact hordered
  refine List.pairwise_map.2 ((pairwise_insertionSort_of_pairwise hseen).imp_of_mem
    fun {a b} ha hb hab => ?_)
  have hscore (p : V × ℚ) (hp : p ∈ f.rrfScores.items.insertionSort fun a b => b.2 ≤ a.2) :
      p.2 = Retrieval.fusedScore k dense lexical p.1 :=
    (h.item ((List.mem_insertionSort _).1 hp)).1
  rw [RanksBefore, ← hscore a ha, ← hscore b hb]
  rcases hab.1.lt_or_eq with hlt | heq
  · exact .inl hlt
  · exact .inr ⟨heq.symm, hab.2 heq.ge⟩

end Output

theorem RanksBefore.asymm {dense lexical : List (Doc V)} {i j : V}
    (h : RanksBefore k dense lexical i j) : ¬ RanksBefore k dense lexical j i := by
  rintro (hlt | ⟨heq, hplace⟩)
  · rcases h with hlt' | ⟨heq', -⟩
    · exact lt_asymm hlt hlt'
    · exact hlt.ne heq'
  · rcases h with hlt' | ⟨-, hplace'⟩
    · exact hlt'.ne heq
    · exact lt_asymm hplace hplace'

/-- Two fusions of the same lists are equal. -/
theorem Fused.unique {dense lexical out out' : List (Doc V)} (h : Fused dense lexical k out)
    (h' : Fused dense lexical k out') : out = out' := by
  -- An id has one document.
  have hdoc : ∀ {l l' : List (Doc V)}, Fused dense lexical k l → Fused dense lexical k l' →
      ∀ doc ∈ l, doc ∈ l' := by
    intro l l' hl hl' doc hmem
    have hid : doc.id ∈ l'.map Doc.id :=
      (hl'.mem_iff _).2 ((hl.mem_iff _).1 (List.mem_map_of_mem hmem))
    obtain ⟨doc', hmem', hsame⟩ := List.mem_map.1 hid
    obtain ⟨last, hlast, hlastId, heq⟩ := hl.hydrated doc hmem
    obtain ⟨last', hlast', hlastId', heq'⟩ := hl'.hydrated doc' hmem'
    have hunique : last' = last := hlast'.unique hlast (by rw [hlastId, hlastId', hsame])
    rwa [heq, ← hunique, ← hsame, ← heq']
  have hperm : out.Perm out' :=
    (List.perm_ext_iff_of_nodup h.nodup.of_map h'.nodup.of_map).2 fun doc =>
      ⟨hdoc h h' doc, hdoc h' h doc⟩
  exact hperm.eq_of_pairwise (fun a b _ _ hab hba => absurd hba hab.asymm)
    (List.pairwise_map.1 h.ordered) (List.pairwise_map.1 h'.ordered)

/-- **Reciprocal rank fusion is what its name says.** -/
theorem reciprocalRankFusion_spec (denseResults lexicalResults : List (Doc V)) (k : ℕ) :
    ∃ out, reciprocalRankFusion denseResults lexicalResults k = some out ∧
      Fused denseResults lexicalResults k out ∧
      ∀ out', Fused denseResults lexicalResults k out' → out' = out := by
  have h := ranked_both (k := k) denseResults lexicalResults
  set f := (Fusion.start.rankAll k denseResults).rankAll k lexicalResults
  set sortedDocs := f.rrfScores.items.insertionSort fun a b => b.2 ≤ a.2
  have hperm : sortedDocs.Perm f.rrfScores.items := List.perm_insertionSort _ _
  have hitem (p : V × ℚ) (hp : p ∈ sortedDocs) :
      p.2 = fusedScore k denseResults lexicalResults p.1 ∧
        ∃ last, f.docMapping.get? p.1 = some last := h.item (hperm.mem_iff.1 hp)
  obtain ⟨out, hout, hvalues⟩ : ∃ out, reciprocalRankFusion denseResults lexicalResults k = some out ∧
      (sortedDocs.map fun p => (f.docMapping.get? p.1).map (Doc.withScore · p.2)) = out.map some := by
    refine exists_mapM_eq_some fun p hp => ?_
    obtain ⟨-, last, hlast⟩ := hitem p hp
    exact ⟨last.withScore p.2, congrArg (Option.map (Doc.withScore · p.2)) hlast⟩
  have hids : sortedDocs.map Prod.fst = out.map Doc.id := by
    have hsome : (sortedDocs.map Prod.fst).map some = (out.map Doc.id).map some := by
      have hmapped := congrArg (List.map (Option.map Doc.id)) hvalues
      rw [List.map_map, List.map_map] at hmapped
      rw [List.map_map, List.map_map]
      refine (List.map_congr_left fun p hp => ?_).trans hmapped
      obtain ⟨-, last, hlast⟩ := hitem p hp
      have hid : last.id = p.1 := ((h.mapped p.1 last).1 hlast).2
      simp [hlast, Doc.withScore, hid]
    exact List.map_injective_iff.2 (Option.some_injective V) hsome
  have hfused : Fused denseResults lexicalResults k out := by
    refine ⟨?_, fun i => ?_, fun doc hdoc => ?_, ?_⟩
    · rw [← hids, (hperm.map Prod.fst).nodup_iff]
      exact f.rrfScores.nodup
    · rw [← hids, (hperm.map Prod.fst).mem_iff]
      exact h.mem_keys_iff i
    · have hmem : some doc ∈ out.map some := List.mem_map_of_mem hdoc
      rw [← hvalues] at hmem
      obtain ⟨p, hp, hdocument⟩ := List.mem_map.1 hmem
      obtain ⟨last, hlast, rfl⟩ := Option.map_eq_some_iff.1 hdocument
      obtain ⟨hwrite, hid⟩ := (h.mapped p.1 last).1 hlast
      rw [map_fst_both] at hwrite
      refine ⟨last, hwrite, rfl, ?_⟩
      rw [(hitem p hp).1, ← hid]
      rfl
    · rw [← hids]
      exact h.sorted
  exact ⟨out, hout, hfused, fun out' hout' => hout'.unique hfused⟩

/-- An id that is given twice, and one that is in both lists. -/
example : (reciprocalRankFusion [.bare "a", .bare "b", .bare "a"] [.bare "c", .bare "b"] 60).map
    (fun out => out.map Doc.id) = some ["a", "b", "c"] := by
  decide +kernel

/-! ### Dominance -/

section Dominance

variable {ids : List V} {a b i : V}

/-- The one id is in the list, before the other. -/
def RankedAbove (ids : List V) (a b : V) : Prop := a ∈ ids ∧ ids.idxOf a < ids.idxOf b

theorem reciprocalRanks_nonneg (k : ℕ) (ids : List V) (i : V) : 0 ≤ reciprocalRanks k ids i :=
  Finset.sum_nonneg fun p _ => by positivity

/-- An id that is not in the list has no rank in it. -/
theorem reciprocalRanks_of_notMem (hi : i ∉ ids) : reciprocalRanks k ids i = 0 := by
  refine Finset.sum_eq_zero fun p hp => ?_
  exact absurd (List.mem_of_getElem? (Finset.mem_filter.1 hp).2) hi

/-- One that is in it once has one rank. -/
theorem reciprocalRanks_of_mem (hids : ids.Nodup) (hi : i ∈ ids) :
    reciprocalRanks k ids i = 1 / ((k : ℚ) + ids.idxOf i + 1) := by
  have hlt : ids.idxOf i < ids.length := List.idxOf_lt_length_of_mem hi
  have hplace : ids[ids.idxOf i]? = some i := List.getElem?_idxOf hi
  refine Finset.sum_eq_single_of_mem (ids.idxOf i)
    (Finset.mem_filter.2 ⟨Finset.mem_range.2 hlt, hplace⟩) fun p hp hne => ?_
  obtain ⟨hp, hpi⟩ := Finset.mem_filter.1 hp
  have hsame : ids[p]? = ids[ids.idxOf i]? := hpi.trans hplace.symm
  exact absurd ((List.getElem?_inj (Finset.mem_range.1 hp) hids).1 hsame) hne

/-- **An earlier place counts more.** -/
theorem reciprocalRanks_lt (hids : ids.Nodup) (hb : b ∈ ids) (h : RankedAbove ids a b) :
    reciprocalRanks k ids b < reciprocalRanks k ids a := by
  rw [reciprocalRanks_of_mem hids hb, reciprocalRanks_of_mem hids h.1]
  have hplace : (ids.idxOf a : ℚ) < ids.idxOf b := by exact_mod_cast h.2
  exact one_div_lt_one_div_of_lt (by positivity) (by linarith)

/-- In a list without the other id nothing is lost. -/
theorem reciprocalRanks_le (hids : ids.Nodup) (h : b ∈ ids → RankedAbove ids a b) :
    reciprocalRanks k ids b ≤ reciprocalRanks k ids a := by
  by_cases hb : b ∈ ids
  · exact (reciprocalRanks_lt hids hb (h hb)).le
  · rw [reciprocalRanks_of_notMem hb]
    exact reciprocalRanks_nonneg k ids a

/-- **Dominance.**  An id that stands before another in every list in which that one
stands comes out before it. -/
theorem reciprocalRankFusion_dominance {denseResults lexicalResults : List (Doc V)} (k : ℕ)
    (hdense : (denseResults.map Doc.id).Nodup) (hlexical : (lexicalResults.map Doc.id).Nodup)
    (hb : b ∈ denseResults.map Doc.id ∨ b ∈ lexicalResults.map Doc.id)
    (habove : b ∈ denseResults.map Doc.id → RankedAbove (denseResults.map Doc.id) a b)
    (habove' : b ∈ lexicalResults.map Doc.id → RankedAbove (lexicalResults.map Doc.id) a b) :
    ∃ out, reciprocalRankFusion denseResults lexicalResults k = some out ∧
      [a, b].Sublist (out.map Doc.id) := by
  obtain ⟨out, hout, hfused, -⟩ := reciprocalRankFusion_spec denseResults lexicalResults k
  have hscore : fusedScore k denseResults lexicalResults b
      < fusedScore k denseResults lexicalResults a := by
    rcases hb with hb | hb
    · exact add_lt_add_of_lt_of_le (reciprocalRanks_lt hdense hb (habove hb))
        (reciprocalRanks_le hlexical habove')
    · exact add_lt_add_of_le_of_lt (reciprocalRanks_le hdense habove)
        (reciprocalRanks_lt hlexical hb (habove' hb))
  have ha : a ∈ denseResults.map Doc.id ∨ a ∈ lexicalResults.map Doc.id :=
    hb.imp (fun hb => (habove hb).1) fun hb => (habove' hb).1
  refine ⟨out, hout, pair_sublist_of_pairwise hfused.ordered ((hfused.mem_iff a).2 ha)
    ((hfused.mem_iff b).2 hb) ?_ ?_⟩
  · rintro rfl
    exact lt_irrefl _ hscore
  · rintro (hlt | ⟨heq, -⟩)
    · exact lt_asymm hscore hlt
    · exact hscore.ne heq

/-- `"b"` is in one of the lists only, where `"a"` stands before it. -/
theorem dominance_a_b : ∃ out, reciprocalRankFusion [Doc.bare "c", .bare "a"]
    [.bare "a", .bare "c", .bare "b"] 60 = some out ∧ ["a", "b"].Sublist (out.map Doc.id) :=
  reciprocalRankFusion_dominance 60 (by decide) (by decide) (.inr (by decide))
    (fun h => absurd h (by decide)) fun _ => ⟨by decide, by decide⟩

end Dominance

end Retrieval
end CognitiveEngine
