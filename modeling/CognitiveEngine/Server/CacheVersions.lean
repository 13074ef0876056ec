/-
# Two versions of the semantic cache on one store

Each entry carries the model version it was made under, a lookup filters by it, and
the id of an entry is a hash of the version and the query, so that the entries of two
versions should not get into each other's way.  The hash is taken of the version and
the query with a colon between them: the version `a` and the query `b:c` have the id
of the version `a:b` and the query `c`, and the entry of one version replaces that of
the other.

`coexist_iff` says when the calls of the second version make no difference to any
lookup of the first: an entry may be replaced only if it is stored again, and what is
never seen (entries that answer with nothing) may be lost.
-/

import CognitiveEngine.Machine.JoinedKey
import CognitiveEngine.Server.CacheRoundTrip

namespace CognitiveEngine
namespace Server

open CognitiveEngine.Graph Machine

variable {V : Type}

/-! ### Two caches -/

/-- Which of the two caches a call is made through. -/
inductive Writer where
  | first
  | second
  deriving DecidableEq

/-- A call of `set` through one of the two caches. -/
structure SetCall where
  writer : Writer
  query : String
  response : String
  deriving DecidableEq

/-- The call is made through the first cache. -/
def SetCall.ofFirst (call : SetCall) : Bool := call.writer = .first

/-- Two caches of different versions that share the store and the hashes. -/
structure TwoCaches (V : Type) (v₁ v₂ : String) where
  first : SemanticCache V
  second : SemanticCache V
  first_version : first.modelVersion = v₁
  second_version : second.modelVersion = v₂
  sha256_eq : second.sha256 = first.sha256
  uuid5_eq : second.uuid5 = first.uuid5
  sha256_injective : Function.Injective first.sha256
  uuid5_injective : Function.Injective first.uuid5
  searches : first.vectorStore.SearchesEligible

/-- What the id of an entry is a hash of. -/
def SetCall.documentKey (v₁ v₂ : String) (call : SetCall) : String :=
  match call.writer with
  | .first => v₁ ++ ":" ++ call.query
  | .second => v₂ ++ ":" ++ call.query

namespace TwoCaches

variable {v₁ v₂ : String} (c : TwoCaches V v₁ v₂)

/-- The cache of a writer. -/
def cache : Writer → SemanticCache V
  | .first => c.first
  | .second => c.second

/-- The entry a call stores. -/
def entry (call : SetCall) : Point V := (c.cache call.writer).entry call.query call.response

/-- A call of `set` through its cache. -/
def set (collection : Option (List (Point V))) (call : SetCall) : Option (List (Point V)) :=
  (c.cache call.writer).set collection call.query call.response

/-- A sequence of calls. -/
def setAll (collection : Option (List (Point V))) (calls : List SetCall) :
    Option (List (Point V)) :=
  calls.foldl c.set collection

end TwoCaches

/-- The collection `semantic_cache` before the first call: it is empty, or does not
exist. -/
def emptyCollection (created : Bool) : Option (List (Point V)) := if created then some [] else none

/-- The calls of the second cache make no difference to the lookups of the first. -/
def Coexist (v₁ v₂ : String) (created : Bool) (calls : List SetCall) : Prop :=
  ∀ (V : Type) (c : TwoCaches V v₁ v₂) (query : String),
    c.first.get (c.setAll (emptyCollection created) calls) query
      = c.first.get (c.setAll (emptyCollection created) (calls.filter SetCall.ofFirst)) query

/-! ### What is stored -/

namespace TwoCaches

variable {v₁ v₂ : String} (c : TwoCaches V v₁ v₂)

theorem entry_id (call : SetCall) :
    (c.entry call).id = c.first.uuid5 (c.first.sha256 (call.documentKey v₁ v₂)) := by
  obtain ⟨writer, query, response⟩ := call
  cases writer with
  | first =>
      rw [entry, cache, SemanticCache.entry, SemanticCache.docId, c.first_version]
      rfl
  | second =>
      rw [entry, cache, SemanticCache.entry, SemanticCache.docId, c.second_version, c.uuid5_eq,
        c.sha256_eq]
      rfl

/-- Two entries have the same id when their calls have the same document key. -/
theorem entry_id_inj {call call' : SetCall} :
    (c.entry call).id = (c.entry call').id ↔
      call.documentKey v₁ v₂ = call'.documentKey v₁ v₂ := by
  rw [entry_id, entry_id, c.uuid5_injective.eq_iff, c.sha256_injective.eq_iff]

/-- Every call stores its entry, one after the other. -/
theorem setAll_eq_foldl {collection : Option (List (Point V))} {calls : List SetCall}
    (h : collection.isSome ∨ calls ≠ []) :
    c.setAll collection calls = some ((calls.map c.entry).foldl
      (fun points p => upsert p points) (collection.getD [])) := by
  induction calls generalizing collection with
  | nil =>
      obtain ⟨points, rfl⟩ := Option.isSome_iff_exists.1 (h.resolve_right fun hne => hne rfl)
      rfl
  | cons call calls ih =>
      have hset : c.setAll collection (call :: calls) = c.setAll (c.set collection call) calls :=
        rfl
      rw [hset, ih (.inl rfl)]
      rfl

/-- **What is stored after some calls:** the entry of the last call for each document
key. -/
theorem setAll_eq_some {created : Bool} {calls : List SetCall} (h : created ∨ calls ≠ []) :
    c.setAll (emptyCollection created) calls
      = some ((lastWrites (SetCall.documentKey v₁ v₂) calls).map c.entry) := by
  have hempty : (emptyCollection created : Option (List (Point V))).getD [] = [] := by
    cases created with
    | false => rfl
    | true => rfl
  have hsome : (emptyCollection created : Option (List (Point V))).isSome ∨ calls ≠ [] :=
    h.imp_left fun hcreated => by rw [hcreated]; rfl
  have hleft : lastWrites Point.id (calls.map c.entry)
      = (lastWrites (SetCall.documentKey v₁ v₂) calls).map c.entry :=
    lastWrites_map fun _ _ => c.entry_id_inj
  rw [c.setAll_eq_foldl hsome, hempty, foldl_upsert, List.filter_nil, List.nil_append, hleft]

/-- A lookup of the first cache sees the entries of its own calls. -/
theorem versionFilter_entry (hne : v₁ ≠ v₂) (call : SetCall) :
    c.first.versionFilter (c.entry call) = call.ofFirst := by
  obtain ⟨writer, query, response⟩ := call
  cases writer with
  | first => exact beq_self_eq_true _
  | second =>
      have hversion : c.first.versionFilter (c.entry ⟨.second, query, response⟩)
          = (c.second.modelVersion == c.first.modelVersion) := rfl
      rw [hversion, c.first_version, c.second_version]
      exact beq_false_of_ne hne.symm

/-- What a lookup of the first cache can see of some entries are those of its own
calls. -/
theorem filter_eligible (hne : v₁ ≠ v₂) (query : String) (calls : List SetCall) :
    (calls.map c.entry).filter (c.first.eligible query)
      = ((calls.filter SetCall.ofFirst).map c.entry).filter (c.first.eligible query) := by
  induction calls with
  | nil => rfl
  | cons call calls ih =>
      cases hfirst : call.ofFirst with
      | true =>
          rw [List.filter_cons_of_pos hfirst, List.map_cons, List.map_cons, List.filter_cons,
            List.filter_cons, ih]
      | false =>
          have hversion := c.versionFilter_entry hne call
          have hunseen : ¬ c.first.eligible query (c.entry call) := by
            rw [SemanticCache.eligible, hversion, hfirst]
            exact Bool.false_ne_true
          rw [List.filter_cons_of_neg (by rw [hfirst]; exact Bool.false_ne_true), List.map_cons,
            List.filter_cons_of_neg hunseen, ih]

end TwoCaches

/-! ### When the versions coexist -/

/-- What the first cache stores outlasts the calls of the second. -/
def Outlasts (v₁ v₂ : String) (calls : List SetCall) : Prop :=
  ∀ call, LastWrite (SetCall.documentKey v₁ v₂) (calls.filter SetCall.ofFirst) call →
    LastWrite (SetCall.documentKey v₁ v₂) calls call

/-- What the first cache stores on its own answers with nothing. -/
def Unanswering (v₁ v₂ : String) (calls : List SetCall) : Prop :=
  ∀ call, LastWrite (SetCall.documentKey v₁ v₂) (calls.filter SetCall.ofFirst) call →
    call.response = ""

/-- A lookup that can only see entries without a document finds nothing. -/
theorem SemanticCache.lookup_eq_none (cache : SemanticCache V)
    (hsearch : cache.vectorStore.SearchesEligible) {points : List (Point V)} {query : String}
    (h : ∀ p ∈ points, cache.eligible query p → p.text "document" = "") :
    cache.lookup points query = none := by
  unfold lookup
  cases hranked : cache.rerank query (cache.vectorStore.search points (cache.embed query)
      cache.versionFilter cache.topK cache.threshold) with
  | nil => rfl
  | cons best rest =>
      have hbest : best ∈ best :: rest := List.mem_cons_self
      rw [← hranked, rerank, List.mem_insertionSort] at hbest
      obtain ⟨candidate, hcandidate, rfl⟩ := List.mem_map.1 hbest
      obtain ⟨hmem, hversion, hscore⟩ := hsearch _ _ _ _ _ candidate hcandidate
      have heligible : cache.eligible query candidate.2 := by
        rw [eligible, hversion, decide_eq_true hscore]
        rfl
      exact if_pos (h _ hmem heligible)

namespace TwoCaches

variable {v₁ v₂ : String} (c : TwoCaches V v₁ v₂)

/-- Entries of the first cache that outlast the calls of the second are found as if
those had not been made. -/
theorem lookup_eq_of_outlasts (hne : v₁ ≠ v₂) {calls : List SetCall} (h : Outlasts v₁ v₂ calls)
    (query : String) :
    c.first.lookup ((lastWrites (SetCall.documentKey v₁ v₂) calls).map c.entry) query
      = c.first.lookup ((lastWrites (SetCall.documentKey v₁ v₂)
          (calls.filter SetCall.ofFirst)).map c.entry) query := by
  have hall : (lastWrites (SetCall.documentKey v₁ v₂) (calls.filter SetCall.ofFirst)).filter
      SetCall.ofFirst = lastWrites (SetCall.documentKey v₁ v₂) (calls.filter SetCall.ofFirst) :=
    List.filter_eq_self.2 fun call hcall =>
      (List.mem_filter.1 (mem_lastWrites.1 hcall).mem).2
  refine c.first.lookup_congr ?_
  rw [c.filter_eligible hne, c.filter_eligible hne, filter_lastWrites h, hall]

/-- Where the entries similar enough answer with nothing, nothing is found. -/
theorem lookup_eq_none (hne : v₁ ≠ v₂) {calls : List SetCall} {query : String}
    (h : ∀ call ∈ calls, call.ofFirst →
      c.first.threshold ≤ c.first.vectorStore.score (c.first.embed query) (c.entry call).dense →
      call.response = "") :
    c.first.lookup (calls.map c.entry) query = none := by
  refine c.first.lookup_eq_none c.searches fun p hp heligible => ?_
  obtain ⟨call, hcall, rfl⟩ := List.mem_map.1 hp
  rw [SemanticCache.eligible, c.versionFilter_entry hne, Bool.and_eq_true, decide_eq_true_iff]
    at heligible
  exact h call hcall heligible.1 heligible.2

end TwoCaches

/-! ### A store that prefers some queries -/

/-- A cache whose search scores an entry by its own query. -/
def weightedCache (version : String) (weight : String → ℚ) : SemanticCache String where
  vectorStore := .exhaustive fun _ q => weight q
  embed := id
  modelVersion := version
  threshold := 1
  topK := 1
  rerankAlpha := 1
  lower := id
  sha256 := id
  uuid5 := id

/-- Two such caches on one store. -/
def weighted (v₁ v₂ : String) (weight : String → ℚ) : TwoCaches String v₁ v₂ where
  first := weightedCache v₁ weight
  second := weightedCache v₂ weight
  first_version := rfl
  second_version := rfl
  sha256_eq := rfl
  uuid5_eq := rfl
  sha256_injective := Function.injective_id
  uuid5_injective := Function.injective_id
  searches := (Qdrant.exhaustive_returnsTop _).searchesEligible

theorem finalScore_weighted (version : String) (weight : String → ℚ) (query : String)
    (p : Point String) : (weightedCache version weight).finalScore query p = weight p.dense := by
  have hscore : (weightedCache version weight).finalScore query p
      = 1 * weight p.dense +
        (1 - 1) * (weightedCache version weight).lexicalScore query (p.text "query") := rfl
  rw [hscore, sub_self, zero_mul, add_zero, one_mul]

theorem entry_weighted_dense {v₁ v₂ : String} (weight : String → ℚ) (call : SetCall) :
    ((weighted v₁ v₂ weight).entry call).dense = call.query := by
  obtain ⟨writer, query, response⟩ := call
  cases writer with
  | first => rfl
  | second => rfl

/-- Whatever is looked up, the entry of the heaviest query is found. -/
theorem lookup_weighted {v₁ v₂ : String} (hne : v₁ ≠ v₂) (weight : String → ℚ)
    {calls : List SetCall} {call : SetCall} (hcall : call ∈ calls) (hfirst : call.ofFirst)
    (hthreshold : 1 ≤ weight call.query)
    (hbest : ∀ other ∈ calls, other.ofFirst → other = call ∨ weight other.query < weight call.query)
    (query : String) :
    (weighted v₁ v₂ weight).first.lookup (calls.map (weighted v₁ v₂ weight).entry) query
      = if call.response = "" then none else some call.response := by
  have hdocument : ((weighted v₁ v₂ weight).entry call).text "document" = call.response := rfl
  have hscore : ∀ p : Point String, (weighted v₁ v₂ weight).first.vectorStore.score
      ((weighted v₁ v₂ weight).first.embed query) p.dense = weight p.dense := fun _ => rfl
  rw [← hdocument]
  refine (weighted v₁ v₂ weight).first.lookup_of_best (Qdrant.exhaustive_returnsTop _)
    (le_refl 1) (List.mem_map_of_mem hcall) ?_ fun p hp heligible => ?_
  · rw [SemanticCache.eligible, TwoCaches.versionFilter_entry _ hne, hfirst, hscore,
      entry_weighted_dense,
      Bool.true_and, decide_eq_true_iff]
    exact hthreshold
  · obtain ⟨other, hother, rfl⟩ := List.mem_map.1 hp
    rw [SemanticCache.eligible, TwoCaches.versionFilter_entry _ hne, Bool.and_eq_true]
      at heligible
    rcases hbest other hother heligible.1 with rfl | hlt
    · exact .inl rfl
    · have hfinal : ∀ p : Point String, (weighted v₁ v₂ weight).first.finalScore query p
          = weight p.dense := finalScore_weighted v₁ weight query
      rw [hscore, hscore, hfinal, hfinal, entry_weighted_dense, entry_weighted_dense]
      exact .inr ⟨hlt, hlt⟩

/-! ### Exactly when they coexist -/

section Coexist

variable {v₁ v₂ : String} {created : Bool} {calls : List SetCall}

/-- Where both stores exist, coexisting is about what is found in them. -/
theorem Coexist.lookup_eq (h : Coexist v₁ v₂ created calls)
    (hfirst : ∃ call ∈ calls, call.ofFirst) (c : TwoCaches V v₁ v₂) (query : String) :
    c.first.lookup ((lastWrites (SetCall.documentKey v₁ v₂) calls).map c.entry) query
      = c.first.lookup ((lastWrites (SetCall.documentKey v₁ v₂)
          (calls.filter SetCall.ofFirst)).map c.entry) query := by
  obtain ⟨call, hcall, hwriter⟩ := hfirst
  have hget := h V c query
  rw [c.setAll_eq_some (.inr (List.ne_nil_of_mem hcall)),
    c.setAll_eq_some (.inr (List.ne_nil_of_mem (List.mem_filter.2 ⟨hcall, hwriter⟩)))] at hget
  exact Option.some.inj hget

/-- The document key of a call of the first cache. -/
theorem documentKey_ofFirst {call : SetCall} (h : call.ofFirst) :
    call.documentKey v₁ v₂ = v₁ ++ ":" ++ call.query := by
  obtain ⟨writer, query, response⟩ := call
  cases writer with
  | first => rfl
  | second =>
      have hfalse : (⟨.second, query, response⟩ : SetCall).ofFirst = false := rfl
      rw [hfalse] at h
      exact absurd h Bool.false_ne_true

/-- Of the entries the first cache leaves on its own, one belongs to a query. -/
theorem eq_of_query_eq {call call' : SetCall}
    (h : LastWrite (SetCall.documentKey v₁ v₂) (calls.filter SetCall.ofFirst) call)
    (h' : LastWrite (SetCall.documentKey v₁ v₂) (calls.filter SetCall.ofFirst) call')
    (hquery : call.query = call'.query) : call = call' := by
  refine h.unique h' ?_
  rw [documentKey_ofFirst (List.mem_filter.1 h.mem).2,
    documentKey_ofFirst (List.mem_filter.1 h'.mem).2, hquery]

/-- **An answer that is lost is missed** by the lookup that would have found it. -/
theorem Coexist.lastWrite_of_answer (hne : v₁ ≠ v₂) (h : Coexist v₁ v₂ created calls)
    {call : SetCall}
    (hcall : LastWrite (SetCall.documentKey v₁ v₂) (calls.filter SetCall.ofFirst) call)
    (hanswer : call.response ≠ "") : LastWrite (SetCall.documentKey v₁ v₂) calls call := by
  by_contra hlost
  obtain ⟨hmem, hfirst⟩ := List.mem_filter.1 hcall.mem
  -- A store that finds nothing but the entry of this query.
  let weight : String → ℚ := fun query => if query = call.query then 1 else 0
  have hself : weight call.query = 1 := if_pos rfl
  have hother : ∀ query, query ≠ call.query → weight query = 0 := fun query hne => if_neg hne
  have hfound : (weighted v₁ v₂ weight).first.lookup ((lastWrites (SetCall.documentKey v₁ v₂)
      (calls.filter SetCall.ofFirst)).map (weighted v₁ v₂ weight).entry) call.query
        = some call.response := by
    rw [lookup_weighted hne weight (mem_lastWrites.2 hcall) hfirst hself.ge, if_neg hanswer]
    intro other hmem' _
    by_cases hquery : other.query = call.query
    · exact .inl (eq_of_query_eq (mem_lastWrites.1 hmem') hcall hquery)
    · rw [hother _ hquery, hself]
      exact .inr zero_lt_one
  have hmissed : (weighted v₁ v₂ weight).first.lookup ((lastWrites (SetCall.documentKey v₁ v₂)
      calls).map (weighted v₁ v₂ weight).entry) call.query = none := by
    refine (weighted v₁ v₂ weight).lookup_eq_none hne fun other hmem' hwriter hthreshold => ?_
    rw [entry_weighted_dense] at hthreshold
    by_cases hquery : other.query = call.query
    · have hleft := mem_lastWrites.1 hmem'
      obtain rfl := eq_of_query_eq (hleft.filter hwriter) hcall hquery
      exact absurd hleft hlost
    · have hle : (1 : ℚ) ≤ weight other.query := hthreshold
      rw [hother _ hquery] at hle
      exact absurd hle (not_le.2 zero_lt_one)
  have hlookup := h.lookup_eq ⟨call, hmem, hfirst⟩ (weighted v₁ v₂ weight) call.query
  rw [hfound, hmissed] at hlookup
  exact absurd hlookup.symm (Option.some_ne_none _)

/-- **A lost entry without a document unveils the next answer.** -/
theorem Coexist.lastWrite_of_veil (hne : v₁ ≠ v₂) (h : Coexist v₁ v₂ created calls)
    {call veiled : SetCall}
    (hcall : LastWrite (SetCall.documentKey v₁ v₂) (calls.filter SetCall.ofFirst) call)
    (hempty : call.response = "")
    (hveiled : LastWrite (SetCall.documentKey v₁ v₂) (calls.filter SetCall.ofFirst) veiled)
    (hanswer : veiled.response ≠ "") : LastWrite (SetCall.documentKey v₁ v₂) calls call := by
  by_contra hlost
  obtain ⟨hmem, hfirst⟩ := List.mem_filter.1 hcall.mem
  have hquery : veiled.query ≠ call.query := by
    intro hquery
    obtain rfl := eq_of_query_eq hveiled hcall hquery
    exact hanswer hempty
  -- A store that finds the entry of this query, or else the veiled one.
  let weight : String → ℚ := fun query =>
    if query = call.query then 2 else if query = veiled.query then 1 else 0
  have hself : weight call.query = 2 := if_pos rfl
  have hnext : weight veiled.query = 1 := (if_neg hquery).trans (if_pos rfl)
  have hother : ∀ query, query ≠ call.query → query ≠ veiled.query → weight query = 0 :=
    fun query hne hne' => (if_neg hne).trans (if_neg hne')
  have hfound : (weighted v₁ v₂ weight).first.lookup ((lastWrites (SetCall.documentKey v₁ v₂)
      (calls.filter SetCall.ofFirst)).map (weighted v₁ v₂ weight).entry) call.query = none := by
    rw [lookup_weighted hne weight (mem_lastWrites.2 hcall) hfirst (by rw [hself]; norm_num),
      if_pos hempty]
    intro other hmem' _
    by_cases hq : other.query = call.query
    · exact .inl (eq_of_query_eq (mem_lastWrites.1 hmem') hcall hq)
    · refine .inr ?_
      by_cases hq' : other.query = veiled.query
      · rw [hq', hnext, hself]
        norm_num
      · rw [hother _ hq hq', hself]
        norm_num
  have hunveiled : (weighted v₁ v₂ weight).first.lookup ((lastWrites (SetCall.documentKey v₁ v₂)
      calls).map (weighted v₁ v₂ weight).entry) call.query = some veiled.response := by
    rw [lookup_weighted hne weight (mem_lastWrites.2 (h.lastWrite_of_answer hne hveiled hanswer))
      (List.mem_filter.1 hveiled.mem).2 hnext.ge, if_neg hanswer]
    intro other hmem' hwriter
    have hleft := (mem_lastWrites.1 hmem').filter hwriter
    by_cases hq : other.query = call.query
    · obtain rfl := eq_of_query_eq hleft hcall hq
      exact absurd (mem_lastWrites.1 hmem') hlost
    · by_cases hq' : other.query = veiled.query
      · exact .inl (eq_of_query_eq hleft hveiled hq')
      · rw [hother _ hq hq', hnext]
        exact .inr zero_lt_one
  have hlookup := h.lookup_eq ⟨call, hmem, hfirst⟩ (weighted v₁ v₂ weight) call.query
  rw [hfound, hunveiled] at hlookup
  exact absurd hlookup (Option.some_ne_none _)

/-- Calls whose loss makes no difference, on a collection that is there without the
second cache. -/
theorem coexist_of_stored (hne : v₁ ≠ v₂)
    (hexists : created ∨ calls = [] ∨ ∃ call ∈ calls, call.ofFirst)
    (hstored : Outlasts v₁ v₂ calls ∨ Unanswering v₁ v₂ calls) :
    Coexist v₁ v₂ created calls := by
  intro V c query
  by_cases hcalls : calls = []
  · rw [hcalls]
    rfl
  · have hreduced : created ∨ calls.filter SetCall.ofFirst ≠ [] := by
      rcases hexists with hcreated | hnil | ⟨call, hcall, hwriter⟩
      · exact .inl hcreated
      · exact absurd hnil hcalls
      · exact .inr (List.ne_nil_of_mem (List.mem_filter.2 ⟨hcall, hwriter⟩))
    rw [c.setAll_eq_some (.inr hcalls), c.setAll_eq_some hreduced, SemanticCache.get,
      SemanticCache.get, Option.map_some, Option.map_some, Option.some.injEq]
    rcases hstored with houtlasts | hempty
    · exact c.lookup_eq_of_outlasts hne houtlasts query
    · rw [c.lookup_eq_none hne fun call hcall hwriter _ =>
          hempty call ((mem_lastWrites.1 hcall).filter hwriter),
        c.lookup_eq_none hne fun call hcall _ _ => hempty call (mem_lastWrites.1 hcall)]

/-- Without the second cache the collection is there, if it is with it. -/
theorem Coexist.exists_first (h : Coexist v₁ v₂ created calls) :
    created ∨ calls = [] ∨ ∃ call ∈ calls, call.ofFirst := by
  by_contra hnot
  obtain ⟨hcreated, hcalls, hfirst⟩ := by simpa only [not_or] using hnot
  have hnil : calls.filter SetCall.ofFirst = [] :=
    List.filter_eq_nil_iff.2 fun call hcall hwriter => hfirst ⟨call, hcall, hwriter⟩
  have hget := h String (weighted v₁ v₂ fun _ => 0) ""
  rw [TwoCaches.setAll_eq_some _ (.inr hcalls), hnil, Bool.eq_false_of_not_eq_true hcreated]
    at hget
  exact absurd hget (Option.some_ne_none _)

/-- **Exactly when two versions coexist:** the collection is there for the first cache
without the second, and what it stores outlasts the calls of the second or answers
with nothing to begin with. -/
theorem coexist_iff (hne : v₁ ≠ v₂) :
    Coexist v₁ v₂ created calls ↔
      (created ∨ calls = [] ∨ ∃ call ∈ calls, call.ofFirst) ∧
        (Outlasts v₁ v₂ calls ∨ Unanswering v₁ v₂ calls) := by
  constructor
  · intro h
    refine ⟨h.exists_first, ?_⟩
    by_contra hnot
    obtain ⟨houtlasts, hanswer⟩ := not_or.1 hnot
    unfold Outlasts at houtlasts
    unfold Unanswering at hanswer
    push Not at houtlasts hanswer
    obtain ⟨call, hcall, hlost⟩ := houtlasts
    obtain ⟨veiled, hveiled, hresponse⟩ := hanswer
    by_cases hempty : call.response = ""
    · exact hlost (h.lastWrite_of_veil hne hcall hempty hveiled hresponse)
    · exact hlost (h.lastWrite_of_answer hne hcall hempty)
  · rintro ⟨hexists, hstored⟩
    exact coexist_of_stored hne hexists hstored

/-- A call through each of two caches, to the same document key. -/
def overwritingCalls : List SetCall :=
  [⟨.first, "8b: is it any good?", "Yes."⟩, ⟨.second, " is it any good?", "I am."⟩]

/-- The second call replaces the entry of the first. -/
theorem llama_overwritten : ¬ Coexist "llama3" "llama3:8b" true overwritingCalls := by
  intro h
  have hkept : LastWrite (SetCall.documentKey "llama3" "llama3:8b")
      (overwritingCalls.filter SetCall.ofFirst) ⟨.first, "8b: is it any good?", "Yes."⟩ :=
    mem_lastWrites.1 (by decide)
  have hleft := h.lastWrite_of_answer (by decide) hkept (by decide)
  exact absurd (mem_lastWrites.2 hleft) (by decide)

/-- The same queries under versions that are told apart. -/
theorem gpt_coexist : "gpt-4o" ≠ "gpt-4o-mini" ∧
    Coexist "gpt-4o" "gpt-4o-mini" true overwritingCalls := by
  refine ⟨by decide, (coexist_iff (by decide)).2 ⟨.inl rfl, .inl fun call hcall => ?_⟩⟩
  have hleft : ∀ call ∈ lastWrites (SetCall.documentKey "gpt-4o" "gpt-4o-mini")
      (overwritingCalls.filter SetCall.ofFirst),
      call ∈ lastWrites (SetCall.documentKey "gpt-4o" "gpt-4o-mini") overwritingCalls := by decide
  exact mem_lastWrites.1 (hleft call (mem_lastWrites.2 hcall))

/-! ### Versions that always coexist -/

/-- The document key of a call of the second cache. -/
theorem documentKey_ofSecond {call : SetCall} (h : ¬ call.ofFirst) :
    call.documentKey v₁ v₂ = v₂ ++ ":" ++ call.query := by
  obtain ⟨writer, query, response⟩ := call
  cases writer with
  | first => exact absurd rfl h
  | second => rfl

/-- Calls of both caches have one document key where version and query overhang. -/
theorem documentKey_eq_iff (hne : v₁ ≠ v₂) {call other : SetCall} (h : call.ofFirst)
    (h' : ¬ other.ofFirst) :
    other.documentKey v₁ v₂ = call.documentKey v₁ v₂ ↔
      TextOverhangs ":" v₂ other.query v₁ call.query ∨
        TextOverhangs ":" v₁ call.query v₂ other.query := by
  have hversions : ¬ (v₂ = v₁ ∧ other.query = call.query) := fun heq => hne heq.1.symm
  rw [documentKey_ofFirst h, documentKey_ofSecond h', text_joined_eq_iff (c := ':') rfl,
    or_iff_right hversions]

/-- **Two versions of which none goes on with a colon where the other ends always
coexist**, and no others do. -/
theorem forall_coexist_iff (hne : v₁ ≠ v₂) :
    (∀ calls, Coexist v₁ v₂ true calls) ↔
      ∀ x, v₁ ≠ v₂ ++ ":" ++ x ∧ v₂ ≠ v₁ ++ ":" ++ x := by
  constructor
  · -- The second cache stores under the key of the first one's entry.
    have hlost : ∀ query query' : String, Coexist v₁ v₂ true
        [⟨.first, query, "kept"⟩, ⟨.second, query', "new"⟩] →
        v₁ ++ ":" ++ query ≠ v₂ ++ ":" ++ query' := by
      intro query query' h hkey
      have hkept : LastWrite (SetCall.documentKey v₁ v₂) [⟨.first, query, "kept"⟩]
          ⟨.first, query, "kept"⟩ := lastWrite_cons.2 (.inl ⟨rfl, List.forall_mem_nil _⟩)
      have hleft := h.lastWrite_of_answer hne hkept (by simp)
      rcases lastWrite_cons.1 hleft with ⟨-, hapart⟩ | hlast
      · exact hapart _ List.mem_cons_self hkey.symm
      · have hwriter := congrArg SetCall.writer (List.mem_singleton.1 hlast.mem)
        exact absurd hwriter (by simp)
    intro h x
    refine ⟨fun hv => ?_, fun hv => ?_⟩
    · exact hlost "" (x ++ ":") (h _) (by rw [hv, String.append_empty]; simp [String.append_assoc])
    · exact hlost (x ++ ":") "" (h _) (by rw [hv, String.append_empty]; simp [String.append_assoc])
  · intro hapart calls
    refine coexist_of_stored hne (.inl rfl) (.inl fun call hcall => ?_)
    have hfirst := (List.mem_filter.1 hcall.mem).2
    refine hcall.of_filter fun other _ hsecond hkey => ?_
    rcases (documentKey_eq_iff hne hfirst hsecond).1 hkey with ⟨x, hv, -⟩ | ⟨x, hv, -⟩
    · exact (hapart x).2 hv
    · exact (hapart x).1 hv

end Coexist

end Server
end CognitiveEngine
