/-
# The semantic cache

`QdrantSemanticCache` (`app/infrastructure/qdrant/qdrant_cache.py`): a lookup
searches the collection `semantic_cache` for entries of the deployment's model
version whose query is similar enough to the prompt, reorders them by similarity
and word overlap, and answers with the first one's document.  An entry is stored
under a hash of the model version and the query, without the user it was made for.

A score is an exact rational, `str.lower` and the hashes are given.  A hex digest of
SHA-256 is no UUID, so `QdrantVectorStore.add` always replaces it by a `uuid5`.
-/

import CognitiveEngine.Graph.Prompts
import CognitiveEngine.Machine.Listing
import CognitiveEngine.Server.VectorStore

namespace CognitiveEngine
namespace Server

open CognitiveEngine.Graph CognitiveEngine.Machine

variable {V : Type}

/-- The words of a text, `word` being what is read of the current one, reversed. -/
def splitLoop : List Char → List Char → List String
  | [], word => if word = [] then [] else [String.ofList word.reverse]
  | c :: cs, word =>
      if pyIsSpace c then
        if word = [] then splitLoop cs [] else String.ofList word.reverse :: splitLoop cs []
      else splitLoop cs (c :: word)

/-- `text.split()`. -/
def pySplit (text : String) : List String := splitLoop text.toList []

/-- `QdrantSemanticCache` with its settings and the functions it calls. -/
structure SemanticCache (V : Type) where
  vectorStore : Qdrant V
  embed : String → V
  modelVersion : String
  threshold : ℚ
  topK : ℕ
  rerankAlpha : ℚ
  /-- `str.lower`. -/
  lower : String → String
  /-- `hashlib.sha256(x.encode("utf-8")).hexdigest()`. -/
  sha256 : String → String
  /-- `str(uuid.uuid5(uuid.NAMESPACE_DNS, x))`. -/
  uuid5 : String → String

namespace SemanticCache

variable (cache : SemanticCache V)

/-- `_lexical_score`: the Jaccard overlap of the two sets of words. -/
def lexicalScore (query cachedQuery : String) : ℚ :=
  let q := (pySplit (cache.lower query)).dedup
  let c := (pySplit (cache.lower cachedQuery)).dedup
  if q = [] ∨ c = [] then 0
  else (q.filter (· ∈ c)).length / (q ++ c.filter (· ∉ q)).length

/-- `_rerank`; the sort is stable. -/
def rerank (query : String) (candidates : List (ℚ × Point V)) : List (ℚ × Point V) :=
  (candidates.map fun candidate =>
    (cache.rerankAlpha * candidate.1 +
      (1 - cache.rerankAlpha) * cache.lexicalScore query (candidate.2.text "query"),
      candidate.2)).insertionSort fun a b => b.1 ≤ a.1

/-- `version_filter`. -/
def versionFilter : Point V → Bool := fieldCondition "model_version" cache.modelVersion

/-- An entry that passes the filter and the threshold of the lookup of a prompt. -/
def eligible (query : String) (p : Point V) : Bool :=
  cache.versionFilter p && cache.threshold ≤ cache.vectorStore.score (cache.embed query) p.dense

/-- `get` on an existing collection. -/
def lookup (points : List (Point V)) (query : String) : Option String :=
  match cache.rerank query (cache.vectorStore.search points (cache.embed query)
      cache.versionFilter cache.topK cache.threshold) with
  | [] => none
  | best :: _ =>
      let document := best.2.text "document"
      if document = "" then none else some document

/-- `get`; `none` when the collection does not exist and the search raises. -/
def get (collection : Option (List (Point V))) (query : String) : Option (Option String) :=
  collection.map fun points => cache.lookup points query

/-- `doc_id`. -/
def docId (query : String) : String := cache.sha256 (cache.modelVersion ++ ":" ++ query)

/-- The point `set` stores. -/
def entry (query response : String) : Point V where
  id := cache.uuid5 (cache.docId query)
  dense := cache.embed query
  payload := [("document", .str response), ("query", .str query),
    ("model_version", .str cache.modelVersion), ("original_id", .str (cache.docId query))]

/-- `set`; the collection is created when it is missing. -/
def set (collection : Option (List (Point V))) (query response : String) :
    Option (List (Point V)) :=
  some (upsert (cache.entry query response) (collection.getD []))

/-- **A lookup answers from the eligible entries.** -/
theorem lookup_congr {points points' : List (Point V)} {query : String}
    (h : points.filter (cache.eligible query) = points'.filter (cache.eligible query)) :
    cache.lookup points query = cache.lookup points' query := by
  unfold lookup
  rw [cache.vectorStore.search_congr points points' _ _ _ _ h]

/-- Whether an entry is eligible depends on its query, not on its response. -/
theorem eligible_entry (query cachedQuery response response' : String) :
    cache.eligible query (cache.entry cachedQuery response)
      = cache.eligible query (cache.entry cachedQuery response') := rfl

/-- An entry carries no user id. -/
theorem fieldCondition_entry (userId query response : String) :
    fieldCondition "user_id" userId (cache.entry query response) = false := rfl

end SemanticCache

/-! ### Some digests -/

/-- SHA-256 of some keys of entries and of some answers. -/
def listedSha256 : Listing where
  table := [
    ("gpt-4o:What makes the tides?",
      "f41155e637e03f3aa3ee4aa57c93fd5057de0af9db53439831b3501fd76936e3"),
    ("gpt-4o:the tides? What makes",
      "7b22eec08a8ab619c02709a44043dfba74bd3284dcfd8c860978e0659d11bf69"),
    ("gpt-4o:  ", "09a222dd7db99aa6aa6482c7a92be86a032c5a6767c6db68ba30e970fd1d9d43"),
    ("gpt-4o:Who am I?", "b756e2caef4a22566a914effb1aef1db7d8e5ed5b310d71bab02ff05674df2b3"),
    ("gpt-4o:Who is Ada?", "a64226dcd03e5f20d2300bf1a47677a073049594373bb705efcc8afd34d8c613"),
    ("", "e3b0c44298fc1c149afbf4c8996fb92427ae41e4649b934ca495991b7852b855"),
    ("The moon.", "5fc5a5f314a3b1924eb6c318865c7f1e9a1af6f4c4cea0cdae4fc3b5f939d00c"),
    ("The\nmoon.", "8519a96e58cd2ae1a3521d2d3949c70f09b43f1ff2840b0374f9299cd661048f"),
    ("Gravity, perhaps. The moon.",
      "0406932cea5500a894e764773f92845b3f5faeb153f351d5ca1178dd4e4d387f")]
  nodup := by simp
  unmarked := by decide +kernel

/-- The ids of the entries for the queries. -/
def listedUuid5 : Listing where
  table := [
    ("f41155e637e03f3aa3ee4aa57c93fd5057de0af9db53439831b3501fd76936e3",
      "7ed5c3ed-b013-5b9c-95fa-0111d049d4eb"),
    ("7b22eec08a8ab619c02709a44043dfba74bd3284dcfd8c860978e0659d11bf69",
      "b8e6c127-2cbb-51e9-9a67-84071e58fc06"),
    ("09a222dd7db99aa6aa6482c7a92be86a032c5a6767c6db68ba30e970fd1d9d43",
      "e246a21e-02d5-55db-baec-6acd737aca9e"),
    ("b756e2caef4a22566a914effb1aef1db7d8e5ed5b310d71bab02ff05674df2b3",
      "04bbdfed-8cc9-5f95-9041-44f9d80377f0"),
    ("a64226dcd03e5f20d2300bf1a47677a073049594373bb705efcc8afd34d8c613",
      "7599a204-7885-562a-8cb0-b3c475b39846")]
  nodup := by simp
  unmarked := by decide +kernel

end Server
end CognitiveEngine
