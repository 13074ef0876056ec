/-
# The candidates of a keyword search

`BM25Retriever.retrieve` (`app/retrieval/bm25_search.py`).  It has `BM25Okapi` score a
corpus, keeps a copy of each document that matches at all, sorts the copies by their scores
and cuts the list off after `limit * 2` of them, as Python slices: a negative limit takes
members from the end.

`Candidates` says by the scores alone which positions of the corpus come out, and in which
order.  `retrieve_spec` says that the code returns exactly these, or raises, which it does
where a document has no text.  The scores are exact rationals.
-/

import Mathlib.Algebra.Order.Ring.Rat
import CognitiveEngine.Graph.Messages
import CognitiveEngine.Machine.Dict
import CognitiveEngine.Machine.Fallible
import CognitiveEngine.Machine.StableSort
import CognitiveEngine.Machine.TopK

namespace CognitiveEngine
namespace Retrieval

open CognitiveEngine.Graph CognitiveEngine.Machine

/-! ### Documents -/

/-- A document of a corpus. -/
abbrev Document : Type := Dict String Json

/-- `doc["text"]`; `none` stands for what raises, here or in `lower`. -/
def docText (doc : Document) : Option String :=
  match doc.get? "text" with
  | some (.str text) => some text
  | _ => none

/-- A result, which has a `bm25_score`. -/
structure LexicalResult where
  fields : Document
  bm25Score : ℚ
  fields_bm25Score : fields.get? "bm25_score" = some (.float bm25Score)

/-- `doc_copy = doc.copy()`, with its `bm25_score` set. -/
def withBm25Score (doc : Document) (score : ℚ) : LexicalResult where
  fields := doc.set "bm25_score" (.float score)
  bm25Score := score
  fields_bm25Score := by rw [Dict.get?_set, if_pos rfl]

/-! ### The search -/

/-- Where `xs[:n]` ends, for a list of a length. -/
def sliceEnd (length : ℕ) (n : ℤ) : ℕ := if 0 ≤ n then n.toNat else (length + n).toNat

/-- What the search relies on. -/
structure Bm25Retriever where
  /-- `BM25Okapi(corpus).get_scores(query)`. -/
  getScores : List (List String) → List String → List ℚ
  lower : String → String
  length_getScores : ∀ corpus query, corpus ≠ [] → (getScores corpus query).length = corpus.length

namespace Bm25Retriever

variable (r : Bm25Retriever)

/-- `text.lower().split(" ")`. -/
def tokenize (text : String) : List String := (r.lower text).splitOn " "

/-- `bm25_scores`. -/
def bm25Scores (query : String) (corpusDocs : List Document) : Option (List ℚ) :=
  (corpusDocs.mapM docText).map fun texts =>
    r.getScores (texts.map r.tokenize) (r.tokenize query)

/-- The loop over the scores. -/
def lexicalResults (corpusDocs : List Document) (scores : List ℚ) : Option (List LexicalResult) :=
  (scores.zipIdx.filter fun x => 0 < x.1).mapM fun (score, idx) =>
    corpusDocs[idx]?.map fun doc => withBm25Score doc score

/-- `retrieve`. -/
def retrieve (query : String) (corpusDocs : List Document) (limit : ℤ) :
    Option (List LexicalResult) :=
  if corpusDocs.isEmpty then some []
  else do
    let scores ← r.bm25Scores query corpusDocs
    let results ← lexicalResults corpusDocs scores
    let sorted := results.insertionSort fun a b => b.bm25Score ≤ a.bm25Score
    return sorted.take (sliceEnd sorted.length (limit * 2))

end Bm25Retriever

/-! ### What is to come out -/

/-- The score of the document at a position. -/
def scoreAt (scores : List ℚ) (i : ℕ) : ℚ := scores[i]?.getD 0

/-- The documents that match at all. -/
def hits (scores : List ℚ) : List ℕ :=
  (List.range scores.length).filter fun i => 0 < scoreAt scores i

/-- A higher score comes first, and of equal scores the document that stands first. -/
def Outranks (scores : List ℚ) (i j : ℕ) : Prop :=
  scoreAt scores j < scoreAt scores i ∨ (scoreAt scores i = scoreAt scores j ∧ i < j)

instance (scores : List ℚ) : DecidableRel (Outranks scores) := fun _ _ =>
  inferInstanceAs (Decidable (_ ∨ _))

/-- The positions that come out: they match, and not too many outrank them. -/
structure Candidates (scores : List ℚ) (limit : ℤ) (positions : List ℕ) : Prop where
  ordered : positions.Pairwise (Outranks scores)
  mem_iff : ∀ i, i ∈ positions ↔ 0 < scoreAt scores i ∧
    (List.range scores.length).countP (fun j => Outranks scores j i)
      < sliceEnd (hits scores).length (limit * 2)

theorem Outranks.asymm {scores : List ℚ} {i j : ℕ} (h : Outranks scores i j) :
    ¬ Outranks scores j i := by
  rintro (hlt | ⟨heq, hlt⟩)
  · rcases h with h | ⟨h, -⟩
    · exact lt_asymm h hlt
    · exact hlt.ne h
  · rcases h with h | ⟨-, h⟩
    · exact h.ne heq
    · exact lt_asymm h hlt

/-- What outranks a match is one. -/
theorem Outranks.pos {scores : List ℚ} {i j : ℕ} (h : Outranks scores j i)
    (hi : 0 < scoreAt scores i) : 0 < scoreAt scores j := by
  rcases h with h | ⟨h, -⟩
  · exact hi.trans h
  · exact h ▸ hi

theorem mem_hits {scores : List ℚ} {i : ℕ} : i ∈ hits scores ↔ 0 < scoreAt scores i := by
  rw [hits, List.mem_filter, List.mem_range, decide_eq_true_iff, and_iff_right_iff_imp]
  intro hpos
  by_contra hnot
  rw [scoreAt, List.getElem?_eq_none (by omega)] at hpos
  exact lt_irrefl _ hpos

/-- **Sorting and slicing the matches gives the candidates.** -/
theorem candidates_take (scores : List ℚ) (limit : ℤ) :
    Candidates scores limit
      (((hits scores).insertionSort fun i j => scoreAt scores j ≤ scoreAt scores i).take
        (sliceEnd (hits scores).length (limit * 2))) := by
  have : Std.Total fun i j => scoreAt scores j ≤ scoreAt scores i := ⟨fun i j => le_total _ _⟩
  have : IsTrans ℕ fun i j => scoreAt scores j ≤ scoreAt scores i :=
    ⟨fun _ _ _ hij hjk => hjk.trans hij⟩
  set sorted := (hits scores).insertionSort fun i j => scoreAt scores j ≤ scoreAt scores i
  have hordered : sorted.Pairwise (Outranks scores) := by
    have hrange : (hits scores).Pairwise (· < ·) := List.pairwise_lt_range.filter _
    refine (pairwise_insertionSort_of_pairwise hrange).imp fun {i j} h => ?_
    rcases h.1.lt_or_eq with hlt | heq
    · exact .inl hlt
    · exact .inr ⟨heq.symm, h.2 heq.ge⟩
  refine ⟨hordered.sublist (List.take_sublist _ _), fun i => ?_⟩
  rw [mem_take_iff hordered fun _ _ => Outranks.asymm, List.mem_insertionSort, mem_hits,
    and_congr_right_iff]
  intro hi
  have hcount : sorted.countP (fun j => Outranks scores j i)
      = (List.range scores.length).countP fun j => Outranks scores j i := by
    rw [(List.perm_insertionSort _ _).countP_eq, hits, List.countP_filter]
    refine List.countP_congr fun j _ => ?_
    simpa using fun h : Outranks scores j i => h.pos hi
  rw [hcount]

/-! ### What the code returns -/

/-- The result for the document at a position. -/
def resultAt (corpusDocs : List Document) (scores : List ℚ) (i : ℕ) : Option LexicalResult :=
  corpusDocs[i]?.map fun doc => withBm25Score doc (scoreAt scores i)

theorem zipIdx_filter_pos (scores : List ℚ) :
    (scores.zipIdx.filter fun x => 0 < x.1)
      = (hits scores).map fun i => (scoreAt scores i, i) := by
  have hzip : scores.zipIdx = (List.range scores.length).map fun i => (scoreAt scores i, i) := by
    refine List.ext_getElem (by simp) fun i hi hi' => ?_
    simp [scoreAt, List.getElem?_eq_getElem (show i < scores.length by simpa using hi)]
  rw [hzip, List.filter_map, hits]
  rfl

namespace Bm25Retriever

/-- **The loop, the sorting and the slice, on a corpus with its scores:** the results are
those of the candidates. -/
theorem exists_results {corpusDocs : List Document} {scores : List ℚ}
    (hlength : scores.length = corpusDocs.length) (limit : ℤ) :
    ∃ results positions, lexicalResults corpusDocs scores = some results ∧
      Candidates scores limit positions ∧
      positions.mapM (resultAt corpusDocs scores) = some
        ((results.insertionSort fun a b => b.bm25Score ≤ a.bm25Score).take
          (sliceEnd results.length (limit * 2))) := by
  let result (i : ℕ) : LexicalResult :=
    withBm25Score ((corpusDocs[i]?).getD Dict.empty) (scoreAt scores i)
  have hresult : ∀ i ∈ hits scores, resultAt corpusDocs scores i = some (result i) := by
    intro i hi
    rw [hits, List.mem_filter, List.mem_range, hlength] at hi
    simp only [resultAt, result, List.getElem?_eq_getElem hi.1, Option.map_some, Option.getD_some]
  have hmapM (l : List ℕ) (hl : ∀ i ∈ l, i ∈ hits scores) :
      l.mapM (resultAt corpusDocs scores) = some (l.map result) := by
    rw [mapM_eq_some_iff, List.map_map]
    exact List.map_congr_left fun i hi => hresult i (hl i hi)
  refine ⟨(hits scores).map result, _, ?_, candidates_take scores limit, ?_⟩
  · rw [lexicalResults, zipIdx_filter_pos, List.mapM_map]
    exact hmapM _ fun _ hi => hi
  · rw [hmapM _ fun i hi => (List.mem_insertionSort _).1 (List.mem_of_mem_take hi),
      List.length_map, List.map_take]
    congr 2
    exact List.map_insertionSort _ _ _ _ fun _ _ _ _ => Iff.rfl

variable (r : Bm25Retriever)

/-- **The search is exact.**  It raises when a document has no text.  Otherwise it returns
the candidates of the scores, best first, each with a copy of its document. -/
theorem retrieve_spec (query : String) (corpusDocs : List Document) (limit : ℤ) :
    (r.retrieve query corpusDocs limit = none ∧ ∃ doc ∈ corpusDocs, docText doc = none) ∨
    ∃ scores positions results, scores.length = corpusDocs.length ∧
      (corpusDocs ≠ [] → r.bm25Scores query corpusDocs = some scores) ∧
      Candidates scores limit positions ∧
      positions.mapM (resultAt corpusDocs scores) = some results ∧
      r.retrieve query corpusDocs limit = some results := by
  by_cases hempty : corpusDocs = []
  · subst hempty
    have hcandidates : Candidates [] limit [] := by simpa [hits] using candidates_take [] limit
    exact .inr ⟨[], [], [], rfl, fun h => absurd rfl h, hcandidates, rfl, rfl⟩
  · have hnonempty : corpusDocs.isEmpty = false := by simpa using hempty
    cases htexts : corpusDocs.mapM docText with
    | none =>
        refine .inl ⟨?_, ?_⟩
        · rw [retrieve, hnonempty, bm25Scores, htexts]
          rfl
        · by_contra hall
          obtain ⟨texts, h, -⟩ := exists_mapM_eq_some (f := docText) (l := corpusDocs)
            fun doc hdoc => Option.ne_none_iff_exists'.1 fun hnone => hall ⟨doc, hdoc, hnone⟩
          rw [htexts] at h
          cases h
    | some texts =>
        have hlengths : texts.length = corpusDocs.length := by
          simpa using (congrArg List.length (mapM_eq_some_iff.1 htexts)).symm
        have hscores : r.bm25Scores query corpusDocs
            = some (r.getScores (texts.map r.tokenize) (r.tokenize query)) := by
          rw [bm25Scores, htexts, Option.map_some]
        have hcorpus : texts.map r.tokenize ≠ [] := by
          rw [Ne, List.map_eq_nil_iff, ← List.length_eq_zero_iff, hlengths,
            List.length_eq_zero_iff]
          exact hempty
        have hlength : (r.getScores (texts.map r.tokenize) (r.tokenize query)).length
            = corpusDocs.length := by
          rw [r.length_getScores _ _ hcorpus, List.length_map, hlengths]
        obtain ⟨results, positions, hloop, hcandidates, hmapM⟩ := exists_results hlength limit
        refine .inr ⟨_, positions, _, hlength, fun _ => hscores, hcandidates, hmapM, ?_⟩
        rw [retrieve, hnonempty, hscores, if_neg Bool.false_ne_true, some_bind, hloop, some_bind]
        dsimp only
        rw [List.length_insertionSort]
        rfl

end Bm25Retriever

end Retrieval
end CognitiveEngine
