/-
# The web search tool

`search_web_logic` (`app/mcp/domains/web_tools.py`) asks the search service, has the
snippets of more than 100 characters compressed, and compiles a chunk for each result: its
title, its link and a fact.  The chunks are taken as long as they fit in the token budget;
the first one that does not is cut and marked.

One loop makes the compressions, of the long snippets only, and another walks all results
and reads the compressions by the result's own index.  `keepsSource_iff` says for which
results that finds each result's own fact: when no long snippet follows a short one.

The search service, the query transformer and the compressor are what the tool meets
outside, and may raise.  Of several compressions that raise, the first one's text is
reported.
-/

import CognitiveEngine.Machine.Fallible
import CognitiveEngine.Machine.Positions
import CognitiveEngine.Machine.Tokenizer

namespace CognitiveEngine
namespace Mcp

open CognitiveEngine.Machine

variable {τ : Type}

/-! ### The results and their chunks -/

/-- A search result: the entries that the tool reads. -/
structure TavilyResult where
  title : Option String
  url : Option String
  content : Option String

namespace TavilyResult

/-- `result.get("content", "")`. -/
def rawSnippet (r : TavilyResult) : String := r.content.getD ""

/-- `len(raw_snippet) > 100`. -/
def long (r : TavilyResult) : Bool := 100 < r.rawSnippet.length

end TavilyResult

/-- `formatted_chunk`. -/
def formattedChunk (idx : ℕ) (result : TavilyResult) (factBody : String) : String :=
  "[" ++ toString (idx + 1) ++ "] Source: " ++ result.title.getD "No Title" ++
    "\n   Link: " ++ result.url.getD "No Source URL" ++ "\n   Fact: " ++ factBody ++ "\n\n"

/-- `fact_body`. -/
def factBody (compressedSnippets : List String) (idx : ℕ) (result : TavilyResult) : String :=
  compressedSnippets[idx]?.getD result.rawSnippet

/-- The chunks of the results. -/
def formattedChunks (compressedSnippets : List String) (results : List TavilyResult) :
    List String :=
  results.mapIdx fun idx result => formattedChunk idx result (factBody compressedSnippets idx result)

/-! ### The budget -/

/-- The marker of a cut chunk. -/
def budgetLimit : String := "... [BUDGET LIMIT]"

/-- The loop over the chunks, with the tokens taken so far; they never exceed the budget. -/
def compile (e : Encoding τ) (maxToolTokenBudget : ℕ) : ℕ → List String → List String
  | _, [] => []
  | currentTokenCount, chunk :: chunks =>
      if maxToolTokenBudget < currentTokenCount + e.count chunk then
        let remainingBudget := maxToolTokenBudget - currentTokenCount
        if 20 < remainingBudget then [e.cut remainingBudget chunk ++ budgetLimit] else []
      else
        chunk :: compile e maxToolTokenBudget (currentTokenCount + e.count chunk) chunks

/-! ### The tool -/

/-- What the tool meets outside; an exception stands with its text. -/
structure Web where
  /-- Whether there is a `tavily_client`. -/
  tavilyClient : Bool
  transformUserQuery : String → String → Except String String
  /-- `response.get("results", [])`. -/
  search : String → Except String (List TavilyResult)
  /-- `compressor_chain.ainvoke`, for the result at a position. -/
  compressorChain : ℕ → String → String → Except String String

namespace Web

variable (w : Web)

/-- `compressed_snippets`. -/
def compressedSnippets (cleanQuery : String) (results : List TavilyResult) :
    Except String (List String) :=
  (results.zipIdx.filter (·.1.long)).mapM fun r => w.compressorChain r.2 cleanQuery r.1.rawSnippet

/-- The results for a query and the snippets made of them, up to the budget. -/
def retrieve (query historySummary : String) : Except String (List TavilyResult × List String) := do
  let cleanQuery ← w.transformUserQuery query historySummary
  let results ← w.search cleanQuery
  let compressed ← w.compressedSnippets cleanQuery results
  return (results, formattedChunks compressed results)

/-- `search_web_logic`. -/
def searchWebLogic (e : Encoding τ) (maxToolTokenBudget : ℕ) (query historySummary : String) :
    String :=
  if w.tavilyClient then
    match w.retrieve query historySummary with
    | .error searchErr =>
        "External Intelligence System Error: Unable to complete search task due to: " ++ searchErr
    | .ok ([], _) => "No verified web context found for query: '" ++ query ++ "'."
    | .ok (_ :: _, chunks) => String.join (compile e maxToolTokenBudget 0 chunks)
  else "Search Component Error: Tavily API Key is not configured."

/-- The fact of the result at a position that is made of its own content. -/
def OwnFact (cleanQuery : String) (idx : ℕ) (result : TavilyResult) (fact : String) : Prop :=
  if result.long then w.compressorChain idx cleanQuery result.rawSnippet = .ok fact
  else fact = result.rawSnippet

/-- **Facts keep their source:** when these results are found and compiled for a query, each
chunk is the one of the result at its position with that result's own fact, whole or cut. -/
def KeepsSource (e : Encoding τ) (maxToolTokenBudget : ℕ) (query historySummary : String)
    (results : List TavilyResult) : Prop :=
  ∀ cleanQuery chunks, w.transformUserQuery query historySummary = .ok cleanQuery →
    w.retrieve query historySummary = .ok (results, chunks) →
    ∀ i chunk, (compile e maxToolTokenBudget 0 chunks)[i]? = some chunk →
      ∃ result fact, results[i]? = some result ∧ w.OwnFact cleanQuery i result fact ∧
        (chunk = formattedChunk i result fact ∨
          ∃ n, chunk = e.cut n (formattedChunk i result fact) ++ budgetLimit)

/-- What is retrieved when nothing raises. -/
theorem retrieve_eq_ok_iff {w : Web} {query historySummary : String} {results : List TavilyResult}
    {chunks : List String} :
    w.retrieve query historySummary = .ok (results, chunks) ↔
      ∃ cleanQuery compressed, w.transformUserQuery query historySummary = .ok cleanQuery ∧
        w.search cleanQuery = .ok results ∧
        w.compressedSnippets cleanQuery results = .ok compressed ∧
        chunks = formattedChunks compressed results := by
  rw [retrieve, bind_eq_ok_iff]
  constructor
  · rintro ⟨cleanQuery, hquery, h⟩
    obtain ⟨found, hfound, h⟩ := bind_eq_ok_iff.1 h
    obtain ⟨compressed, hcompressed, h⟩ := bind_eq_ok_iff.1 h
    obtain ⟨rfl, rfl⟩ := Prod.mk.inj (Except.ok.inj h)
    exact ⟨cleanQuery, compressed, hquery, hfound, hcompressed, rfl⟩
  · rintro ⟨cleanQuery, compressed, hquery, hfound, hcompressed, rfl⟩
    exact ⟨cleanQuery, hquery, bind_eq_ok_iff.2 ⟨results, hfound,
      bind_eq_ok_iff.2 ⟨compressed, hcompressed, rfl⟩⟩⟩

end Web

/-! ### What is compiled -/

/-- **What the loop takes:** all chunks, if they fit in the budget, and otherwise those
before the first that does not fit, which is cut when more than 20 tokens are left. -/
theorem compile_cases (e : Encoding τ) {budget current : ℕ} (hcurrent : current ≤ budget)
    (chunks : List String) :
    (current + e.total chunks ≤ budget ∧ compile e budget current chunks = chunks) ∨
    ∃ before chunk after, chunks = before ++ chunk :: after ∧
      current + e.total before ≤ budget ∧ budget < current + e.total before + e.count chunk ∧
      compile e budget current chunks = before ++
        (if 20 < budget - (current + e.total before) then
          [e.cut (budget - (current + e.total before)) chunk ++ budgetLimit] else []) := by
  induction chunks generalizing current with
  | nil => exact .inl ⟨by simpa using hcurrent, rfl⟩
  | cons chunk chunks ih =>
      by_cases hfits : current + e.count chunk ≤ budget
      · rw [compile, if_neg (Nat.not_lt.2 hfits)]
        rcases ih hfits with ⟨hall, heq⟩ | ⟨before, chunk', after, rfl, hbefore, hover, heq⟩
        · refine .inl ⟨?_, congrArg _ heq⟩
          rwa [Encoding.total_cons, ← Nat.add_assoc]
        · refine .inr ⟨chunk :: before, chunk', after, rfl, ?_⟩
          rw [Encoding.total_cons, ← Nat.add_assoc]
          exact ⟨hbefore, hover, congrArg _ heq⟩
      · refine .inr ⟨[], chunk, chunks, rfl, ?_⟩
        rw [Encoding.total_nil, Nat.add_zero, compile, if_pos (Nat.not_le.1 hfits)]
        exact ⟨hcurrent, Nat.not_le.1 hfits, rfl⟩

/-- A compiled chunk is the chunk at its position, whole or cut. -/
theorem getElem?_compile {e : Encoding τ} {budget i : ℕ} {chunks : List String} {chunk : String}
    (h : (compile e budget 0 chunks)[i]? = some chunk) :
    ∃ whole, chunks[i]? = some whole ∧
      (chunk = whole ∨ ∃ n, chunk = e.cut n whole ++ budgetLimit) := by
  rcases compile_cases e budget.zero_le chunks with ⟨-, heq⟩ |
    ⟨before, whole, after, rfl, -, -, heq⟩
  · rw [heq] at h
    exact ⟨chunk, h, .inl rfl⟩
  · rw [heq] at h
    by_cases hi : i < before.length
    · rw [List.getElem?_append_left hi] at h ⊢
      exact ⟨chunk, h, .inl rfl⟩
    · rw [List.getElem?_append_right (Nat.not_lt.1 hi)] at h ⊢
      split at h
      · rw [List.getElem?_singleton] at h
        split at h
        · rename_i hzero
          obtain rfl := Option.some.inj h
          rw [hzero]
          exact ⟨whole, rfl, .inr ⟨_, rfl⟩⟩
        · exact absurd h (by simp)
      · exact absurd h (by simp)

/-- With a large enough budget all chunks are taken. -/
theorem compile_total (e : Encoding τ) (chunks : List String) :
    compile e (e.total chunks) 0 chunks = chunks := by
  rcases compile_cases e (e.total chunks).zero_le chunks with ⟨-, heq⟩ |
    ⟨before, whole, after, rfl, -, hover, -⟩
  · exact heq
  · rw [Encoding.total_append, Encoding.total_cons] at hover
    omega

/-- A whole chunk is no cut one. -/
theorem formattedChunk_ne_cut (idx : ℕ) (result : TavilyResult) (fact text : String) :
    formattedChunk idx result fact ≠ text ++ budgetLimit := by
  intro h
  have hlast : ∀ s s' : String, s'.toList ≠ [] →
      (s ++ s').toList.getLast? = s'.toList.getLast? := by
    intro s s' hs'
    rw [String.toList_append, List.getLast?_append_of_ne_nil _ hs']
  have heq := congrArg (fun s => s.toList.getLast?) h
  dsimp only [formattedChunk] at heq
  rw [hlast _ _ (by decide), hlast _ _ (by decide)] at heq
  exact absurd heq (by decide)

/-- Chunks of one result at one position are told apart by their facts. -/
theorem formattedChunk_inj {idx : ℕ} {result : TavilyResult} {fact fact' : String} :
    formattedChunk idx result fact = formattedChunk idx result fact' ↔ fact = fact' := by
  simp only [formattedChunk, String.append_left_inj, String.append_right_inj]

/-! ### Facts and their sources -/

/-- A chunk is that of the result at its position. -/
theorem getElem?_formattedChunks (compressed : List String) (results : List TavilyResult) (i : ℕ) :
    (formattedChunks compressed results)[i]? = (results[i]?).map fun result =>
      formattedChunk i result (factBody compressed i result) := by
  rw [formattedChunks, List.getElem?_mapIdx]

/-- **Where a compression is found:** at its own result's position, when no long snippet
follows a short one. -/
theorem ownFact_factBody {w : Web} {cleanQuery : String} {results : List TavilyResult}
    {compressed : List String} {i : ℕ} {result : TavilyResult}
    (hordered : results.Pairwise fun r r' => r'.long → r.long)
    (hcompressed : w.compressedSnippets cleanQuery results = .ok compressed)
    (hresult : results[i]? = some result) :
    w.OwnFact cleanQuery i result (factBody compressed i result) := by
  have hpairs : results.zipIdx.Pairwise
      fun (r r' : TavilyResult × ℕ) => r'.1.long → r.1.long := by
    have hmap := hordered
    rw [← List.zipIdx_map_fst 0 results, List.pairwise_map] at hmap
    exact hmap
  have hread := getElem?_filter_of_pairwise (p := fun (r : TavilyResult × ℕ) => r.1.long) hpairs i
  rw [List.getElem?_zipIdx, hresult, Option.map_some, Nat.zero_add] at hread
  have hcompression := getElem?_of_mapM hcompressed i
  rw [hread] at hcompression
  rw [Web.OwnFact, factBody]
  by_cases hlong : result.long
  · rw [Option.filter_some, if_pos hlong, Option.map_some] at hcompression
    cases hfact : compressed[i]? with
    | none => rw [hfact] at hcompression; exact absurd hcompression (by simp)
    | some fact =>
        rw [hfact, Option.map_some, Option.some.injEq] at hcompression
        rw [if_pos hlong]
        exact hcompression
  · rw [Option.filter_some, if_neg hlong, Option.map_none] at hcompression
    rw [if_neg hlong, Option.map_eq_none_iff.1 hcompression.symm, Option.getD_none]

/-- A text of 101 characters. -/
def longText : String := String.ofList (List.replicate 101 'x')

/-- A search that finds the results, and a compressor that answers with the long text. -/
def verbose (results : List TavilyResult) : Web where
  tavilyClient := true
  transformUserQuery query _ := .ok query
  search _ := .ok results
  compressorChain _ _ _ := .ok longText

/-- There is a compression for each long snippet. -/
theorem compressedSnippets_verbose (results : List TavilyResult) (cleanQuery : String) :
    (verbose results).compressedSnippets cleanQuery results
      = .ok (List.replicate (results.filter TavilyResult.long).length longText) := by
  have hlength : (results.zipIdx.filter (·.1.long)).length
      = (results.filter TavilyResult.long).length := by
    conv_rhs => rw [← List.zipIdx_map_fst 0 results, List.filter_map, List.length_map]
    rfl
  rw [← hlength, ← List.map_const']
  exact List.mapM_pure

/-- **A compression under another result's title.**  The first short snippet, followed by
a long one, is read as a compression. -/
theorem not_keepsSource (e : Encoding τ) {before after : List TavilyResult} {short : TavilyResult}
    (hbefore : ∀ r ∈ before, r.long) (hshort : ¬ short.long) (hafter : ∃ r ∈ after, r.long) :
    ∃ budget, ¬ (verbose (before ++ short :: after)).KeepsSource e budget "" ""
      (before ++ short :: after) := by
  let results := before ++ short :: after
  let compressed := List.replicate (results.filter TavilyResult.long).length longText
  have hpos : before.length < (results.filter TavilyResult.long).length := by
    obtain ⟨r, hr, hlong⟩ := hafter
    have hsome := List.length_pos_of_mem (List.mem_filter.2 ⟨hr, hlong⟩)
    rw [List.filter_append, List.filter_eq_self.2 hbefore, List.filter_cons_of_neg hshort,
      List.length_append]
    omega
  have hfact : factBody compressed before.length short = longText := by
    rw [factBody, List.getElem?_replicate_of_lt hpos, Option.getD_some]
  have hresult : results[before.length]? = some short := by simp [results]
  have hretrieve : (verbose results).retrieve "" ""
      = .ok (results, formattedChunks compressed results) :=
    Web.retrieve_eq_ok_iff.2 ⟨"", compressed, rfl, rfl, compressedSnippets_verbose results "", rfl⟩
  refine ⟨e.total (formattedChunks compressed results), fun h => ?_⟩
  have hchunk : (compile e (e.total (formattedChunks compressed results)) 0
      (formattedChunks compressed results))[before.length]?
        = some (formattedChunk before.length short longText) := by
    rw [compile_total, getElem?_formattedChunks, hresult, Option.map_some, hfact]
  obtain ⟨result, fact, hsome, hown, heq⟩ := h "" _ rfl hretrieve _ _ hchunk
  obtain rfl := Option.some.inj (hresult.symm.trans hsome)
  rcases heq with heq | ⟨n, heq⟩
  · rw [Web.OwnFact, if_neg hshort, ← formattedChunk_inj.1 heq] at hown
    exact hshort (by rw [TavilyResult.long, ← hown]; decide)
  · exact formattedChunk_ne_cut _ _ _ _ heq

/-- **When facts keep their source:** exactly when no result with a snippet of more than
100 characters follows one with a shorter snippet. -/
theorem keepsSource_iff (e : Encoding τ) (results : List TavilyResult) :
    (∀ (w : Web) (budget : ℕ) (query historySummary : String),
        w.KeepsSource e budget query historySummary results) ↔
      results.Pairwise fun r r' => r'.long → r.long := by
  constructor
  · intro h
    by_contra hnot
    obtain ⟨before, short, after, rfl, hbefore, hshort, hafter⟩ := exists_split_of_not_pairwise hnot
    obtain ⟨budget, hlost⟩ := not_keepsSource e hbefore hshort hafter
    exact hlost (h _ budget "" "")
  · intro hordered w budget query historySummary cleanQuery chunks hquery hretrieve i chunk hchunk
    obtain ⟨cleanQuery', compressed, hquery', -, hcompressed, rfl⟩ :=
      Web.retrieve_eq_ok_iff.1 hretrieve
    obtain rfl := Except.ok.inj (hquery.symm.trans hquery')
    obtain ⟨whole, hwhole, hcut⟩ := getElem?_compile hchunk
    rw [getElem?_formattedChunks] at hwhole
    obtain ⟨result, hresult, rfl⟩ := Option.map_eq_some_iff.1 hwhole
    exact ⟨result, _, hresult, ownFact_factBody hordered hcompressed hresult, hcut⟩

/-- A short snippet and a long one. -/
def teaResults : List TavilyResult :=
  [⟨some "Tea", some "https://tea.example", some "Tea is a drink."⟩,
    ⟨some "Coffee", some "https://coffee.example", some longText⟩]

/-- The fact about coffee is compiled under the title and link of tea. -/
theorem coffee_fact_under_tea :
    ¬ ∀ (results : List TavilyResult) (w : Web) (budget : ℕ) (query historySummary : String),
      w.KeepsSource (spelled 0).toEncoding budget query historySummary results := by
  intro h
  obtain ⟨budget, hlost⟩ : ∃ budget, ¬ (verbose teaResults).KeepsSource (spelled 0).toEncoding
      budget "" "" teaResults :=
    not_keepsSource _ (List.forall_mem_nil _) (by decide) ⟨_, List.mem_singleton_self _, by decide⟩
  exact hlost (h _ _ budget "" "")

end Mcp
end CognitiveEngine
