/-
# The token budget of the web search

What `search_web_logic` returns for its results is said to keep within the token budget.
The chunks it takes whole do (`count_compile_le`), and so does a cut one, but the marker
of a cut chunk is put after it, and no room was left for it.

`inBudget_iff` says for which budgets every tokenizer finds the reply within its budget,
and when a tokenizer does.
-/

import CognitiveEngine.Mcp.WebSearch

namespace CognitiveEngine
namespace Mcp

open CognitiveEngine.Machine

variable {τ : Type}

/-- A chunk is cut: it is the first that does not fit, with more than 20 tokens left. -/
def Cut (e : Encoding τ) (budget : ℕ) (chunks : List String) : Prop :=
  ∃ before chunk after, chunks = before ++ chunk :: after ∧
    e.total before + 20 < budget ∧ budget < e.total before + e.count chunk

/-- No chunk is cut when the budget is at most 20. -/
theorem not_cut_of_le {e : Encoding τ} {budget : ℕ} {chunks : List String} (h : budget ≤ 20) :
    ¬ Cut e budget chunks := by
  rintro ⟨before, chunk, after, -, hroom, -⟩
  omega

/-- **Whole chunks keep within the budget.** -/
theorem count_compile_le (t : Tokenizer τ) {budget : ℕ} {chunks : List String}
    (h : ¬ Cut t.toEncoding budget chunks) :
    t.count (String.join (compile t.toEncoding budget 0 chunks)) ≤ budget := by
  refine (t.count_join_le _).trans ?_
  rcases compile_cases t.toEncoding budget.zero_le chunks with ⟨hall, heq⟩ |
    ⟨before, chunk, after, hchunks, hbefore, hover, heq⟩
  · rw [heq]
    omega
  · have hroom : ¬ 20 < budget - (0 + t.total before) := by
      intro hroom
      exact h ⟨before, chunk, after, hchunks, by omega, by omega⟩
    rw [heq, if_neg hroom, List.append_nil]
    omega

/-- Nothing but the marker is left of a first chunk that a tokenizer spells with too many
tokens a character. -/
theorem compile_spelled {budget : ℕ} {chunk : String} {chunks : List String} (h : 20 < budget)
    (hchunk : chunk ≠ "") :
    compile (spelled budget).toEncoding budget 0 (chunk :: chunks) = [budgetLimit] := by
  have hlong : budget < 0 + (spelled budget).count chunk := by
    have hlength : 0 < chunk.length := by
      rw [Nat.pos_iff_ne_zero, ne_eq, String.length_eq_zero_iff]
      exact hchunk
    rw [count_spelled, Nat.zero_add]
    exact Nat.lt_of_lt_of_le (Nat.lt_succ_self _) (Nat.le_mul_of_pos_right _ hlength)
  rw [compile, if_pos hlong]
  dsimp only
  rw [Nat.sub_zero, if_pos h, cut_spelled _ le_rfl, String.empty_append]

/-- The marker alone is over the budget then. -/
theorem lt_count_budgetLimit (budget : ℕ) : budget < (spelled budget).count budgetLimit := by
  have hlength : 0 < budgetLimit.length := by decide
  rw [count_spelled]
  exact Nat.lt_of_lt_of_le (Nat.lt_succ_self _) (Nat.le_mul_of_pos_right _ hlength)

/-- The reply made of what is retrieved. -/
theorem searchWebLogic_of_ok (w : Web) (e : Encoding τ) (budget : ℕ) {query historySummary : String}
    {result : TavilyResult} {results : List TavilyResult} {chunks : List String}
    (hclient : w.tavilyClient)
    (h : w.retrieve query historySummary = .ok (result :: results, chunks)) :
    w.searchWebLogic e budget query historySummary = String.join (compile e budget 0 chunks) := by
  rw [Web.searchWebLogic, if_pos hclient, h]

/-- What is retrieved for a first result starts with a chunk. -/
theorem exists_chunk_of_ok {w : Web} {query historySummary : String} {result : TavilyResult}
    {results : List TavilyResult} {chunks : List String}
    (h : w.retrieve query historySummary = .ok (result :: results, chunks)) :
    ∃ chunk rest, chunk ≠ "" ∧ chunks = chunk :: rest := by
  obtain ⟨_, compressed, -, -, -, rfl⟩ := Web.retrieve_eq_ok_iff.1 h
  rw [formattedChunks, List.mapIdx_cons]
  refine ⟨_, _, fun hempty => ?_, rfl⟩
  have hlength := congrArg String.length hempty
  simp [formattedChunk] at hlength

/-- **When the reply keeps within the budget:** for every tokenizer exactly when the budget
is at most 20, and for a tokenizer when no chunk is cut. -/
theorem inBudget_iff (w : Web) (budget : ℕ) (query historySummary : String)
    (result : TavilyResult) (results : List TavilyResult) (chunks : List String)
    (hclient : w.tavilyClient)
    (h : w.retrieve query historySummary = .ok (result :: results, chunks)) :
    ((∀ (τ : Type) (t : Tokenizer τ),
        t.count (w.searchWebLogic t.toEncoding budget query historySummary) ≤ budget) ↔
      budget ≤ 20) ∧
    ∀ (τ : Type) (t : Tokenizer τ), ¬ Cut t.toEncoding budget chunks →
      t.count (w.searchWebLogic t.toEncoding budget query historySummary) ≤ budget := by
  have hcount : ∀ (τ : Type) (t : Tokenizer τ), ¬ Cut t.toEncoding budget chunks →
      t.count (w.searchWebLogic t.toEncoding budget query historySummary) ≤ budget := by
    intro τ t hcut
    rw [searchWebLogic_of_ok w _ budget hclient h]
    exact count_compile_le t hcut
  refine ⟨⟨fun hall => ?_, fun hle τ t => hcount τ t (not_cut_of_le hle)⟩, hcount⟩
  by_contra hlarge
  obtain ⟨chunk, rest, hchunk, rfl⟩ := exists_chunk_of_ok h
  have hover := hall _ (spelled budget)
  rw [searchWebLogic_of_ok w _ budget hclient h, compile_spelled (Nat.not_le.1 hlarge) hchunk,
    String.join_cons, String.join_nil, String.append_empty] at hover
  exact absurd hover (Nat.not_le.2 (lt_count_budgetLimit budget))

/-- One short result. -/
def teaResult : TavilyResult := ⟨some "Tea", some "https://tea.example", some "Tea is a drink."⟩

/-- It is retrieved, with no compression. -/
theorem retrieve_tea : (verbose [teaResult]).retrieve "tea" ""
    = .ok ([teaResult], [formattedChunk 0 teaResult "Tea is a drink."]) :=
  Web.retrieve_eq_ok_iff.2 ⟨"tea", _, rfl, rfl, compressedSnippets_verbose [teaResult] "tea", rfl⟩

/-- A budget of 20 tokens, one for each character, is kept. -/
theorem twenty_kept : (spelled 0).count
    ((verbose [teaResult]).searchWebLogic (spelled 0).toEncoding 20 "tea" "") ≤ 20 :=
  (inBudget_iff (verbose [teaResult]) 20 "tea" "" teaResult [] _ rfl retrieve_tea).1.2 le_rfl _
    (spelled 0)

/-- Of a budget of 30 tokens, one for each character, the cut chunk takes all and its marker
18 more. -/
theorem thirty_exceeded :
    ¬ ∀ (w : Web) (budget : ℕ) (query historySummary : String) (result : TavilyResult)
      (results : List TavilyResult) (chunks : List String), w.tavilyClient →
      w.retrieve query historySummary = .ok (result :: results, chunks) →
      ∀ (τ : Type) (t : Tokenizer τ),
        t.count (w.searchWebLogic t.toEncoding budget query historySummary) ≤ budget := by
  intro h
  have hkept := h _ 30 "tea" "" teaResult [] _ rfl retrieve_tea _ (spelled 0)
  rw [searchWebLogic_of_ok _ _ 30 rfl retrieve_tea] at hkept
  exact absurd hkept (by decide +kernel)

end Mcp
end CognitiveEngine
