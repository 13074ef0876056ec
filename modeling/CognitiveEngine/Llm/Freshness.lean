/-
# Whether a cached model is up to date

What is found in a table was made at an earlier moment.  The settings fingerprint in the
keys covers the models of the tiers and whether there are keys, as a secret text is
masked; the token limits, the base URL and the loaded tools are in no key.

`fresh_iff` is the exact condition under which every request gets what it would
construct afresh.
-/

import CognitiveEngine.Llm.Tables

namespace CognitiveEngine
namespace Llm

open CognitiveEngine.Graph Machine

variable {σ : Type}

/-! ### What a runnable has -/

/-- What a model was constructed with besides its API key. -/
structure ModelFacets where
  provider : Provider
  modelName : String
  baseUrl : Option String
  maxTokens : ℤ
  deriving DecidableEq

/-- What a runnable has: its model, its schema if its output is structured, and its
tools. -/
structure Facets (σ : Type) extends ModelFacets where
  schema : Option σ
  tools : Set McpTool

/-- What a model was constructed with besides its API key. -/
def BaseChatModel.facets (llm : BaseChatModel) : ModelFacets :=
  ⟨llm.provider, llm.modelName, llm.baseUrl, llm.maxTokens⟩

/-- What a structured model has. -/
def StructuredLlm.facets (llm : StructuredLlm σ) : ModelFacets × σ := (llm.base.facets, llm.schema)

/-- What a bound model has. -/
def BoundLlm.facets (llm : BoundLlm) : ModelFacets × Set McpTool :=
  (llm.base.facets, {tool | tool ∈ llm.tools})

/-- What a runnable has. -/
def Runnable.facets : Runnable σ → Facets σ
  | .plain llm => ⟨llm.facets, none, ∅⟩
  | .structured llm => ⟨llm.base.facets, some llm.schema, ∅⟩
  | .bound llm => ⟨llm.base.facets, none, {tool | tool ∈ llm.tools}⟩

theorem Runnable.facets_plain {llm llm' : BaseChatModel} :
    (.plain llm : Runnable σ).facets = (.plain llm' : Runnable σ).facets ↔
      llm.facets = llm'.facets := by
  simp [Runnable.facets]

theorem Runnable.facets_structured {llm llm' : StructuredLlm σ} :
    (Runnable.structured llm).facets = (Runnable.structured llm').facets ↔
      llm.facets = llm'.facets := by
  simp [Runnable.facets, StructuredLlm.facets]

theorem Runnable.facets_bound {llm llm' : BoundLlm} :
    (.bound llm : Runnable σ).facets = (.bound llm' : Runnable σ).facets ↔
      llm.facets = llm'.facets := by
  simp [Runnable.facets, BoundLlm.facets]

namespace LlmFactory

variable (f : LlmFactory σ)

/-- Every request gets what it would construct afresh. -/
def Fresh (requests : List (LlmRequest σ)) : Prop :=
  ∀ before a after, requests = before ++ a :: after →
    (f.returned before a).map Runnable.facets = (f.fresh a).map Runnable.facets

/-- Two requests that ask a table for one key would construct the same. -/
def AgreeOnTables (a b : LlmRequest σ) : Prop :=
  AgreeOn (f.askInstance BaseChatModel.facets) a b ∧
    AgreeOn (f.askStructured StructuredLlm.facets) a b ∧
    AgreeOn (f.askBound BoundLlm.facets) a b

variable {f}

theorem forall_agreeOnTables_iff {before : List (LlmRequest σ)} {a : LlmRequest σ} :
    (∀ b ∈ before, f.AgreeOnTables b a) ↔
      (∀ b ∈ before, AgreeOn (f.askInstance BaseChatModel.facets) b a) ∧
      (∀ b ∈ before, AgreeOn (f.askStructured StructuredLlm.facets) b a) ∧
      ∀ b ∈ before, AgreeOn (f.askBound BoundLlm.facets) b a := by
  simp only [AgreeOnTables, forall_and]

/-- One key and one model in the table of structured models are one key in the table of
instances. -/
theorem keyOf_of_structuredKeyOf {settings settings' : Settings} {llm llm' : StructuredLlm σ}
    (hkeys : f.structuredKeyOf settings llm = f.structuredKeyOf settings' llm')
    (hfacets : llm.base.facets = llm'.base.facets) :
    f.keyOf settings llm.base = f.keyOf settings' llm'.base := by
  have hprovider : llm.base.provider = llm'.base.provider := congrArg ModelFacets.provider hfacets
  have hmodel : llm.base.modelName = llm'.base.modelName := congrArg ModelFacets.modelName hfacets
  have hname : namePart llm.base = namePart llm'.base := by
    rw [namePart, namePart, hprovider, hmodel]
  rw [f.structuredKeyOf_eq, f.structuredKeyOf_eq, hname] at hkeys
  obtain ⟨hhash, hfingerprint, -⟩ := f.hashPart_inj (text_joined_inj_left hkeys rfl).2
  exact f.keyOf_eq_iff.2 ⟨hprovider, hmodel, hhash, hfingerprint⟩

/-! ### What the entries have -/

/-- What is known of the tables after requests that got what they would construct. -/
structure FreshKept (f : LlmFactory σ) (before : List (LlmRequest σ)) (caches : LlmCaches σ) :
    Prop extends
    f.Kept BaseChatModel.facets StructuredLlm.facets BoundLlm.facets before caches where
  instancesCovered : caches.instances.Covers BaseChatModel.facets
    (askedBy (f.askInstance BaseChatModel.facets) before)
  boundCovered : caches.bound.Covers BoundLlm.facets (askedBy (f.askBound BoundLlm.facets) before)

theorem FreshKept.empty : f.FreshKept [] .empty where
  toKept := Kept.empty
  instancesCovered := by
    rw [askedBy_nil]
    exact Memo.covers_empty _
  boundCovered := by
    rw [askedBy_nil]
    exact Memo.covers_empty _

/-- A request is answered with what it would construct. -/
def FreshAnswer (f : LlmFactory σ) (caches : LlmCaches σ) (a : LlmRequest σ) : Prop :=
  ((f.answer caches a).map Prod.fst).map Runnable.facets = (f.fresh a).map Runnable.facets

section Step

variable {before : List (LlmRequest σ)} {caches : LlmCaches σ} {a : LlmRequest σ}

theorem freshAnswer_iff {r made : Runnable σ} {caches' : LlmCaches σ}
    (h : f.answer caches a = some (r, caches')) (hfresh : f.fresh a = some made) :
    f.FreshAnswer caches a ↔ r.facets = made.facets := by
  rw [FreshAnswer, h, hfresh]
  exact Option.some_inj

/-- When the structured model that is found is up to date, the instance it was made of
was asked for with what would be constructed now. -/
theorem FreshKept.mem_of_hit (hkept : f.FreshKept before caches) {llm found : StructuredLlm σ}
    (hfound : caches.structured (f.structuredKeyOf a.moment.settings llm) = some found)
    (hfacets : found.facets = llm.facets) :
    (f.keyOf a.moment.settings llm.base, llm.base.facets)
      ∈ askedBy (f.askInstance BaseChatModel.facets) before := by
  obtain ⟨b, hb, hask⟩ := hkept.structured _ found hfound
  obtain ⟨llm', hfresh', heq⟩ := askStructured_eq_some.1 hask
  obtain ⟨hkeys, hfacets'⟩ := Prod.mk.inj heq
  have hbase : llm'.base.facets = llm.base.facets := congrArg Prod.fst (hfacets'.trans hfacets)
  refine ⟨b, hb, ?_⟩
  rw [Constructs.askInstance _ (.inr ⟨llm'.schema, hfresh'⟩), hbase,
    keyOf_of_structuredKeyOf hkeys hbase]

/-- **When an answer is up to date**: when all earlier requests for its keys would have
constructed the same. -/
theorem FreshKept.freshAnswer_iff (hkept : f.FreshKept before caches) :
    f.FreshAnswer caches a ↔ ∀ b ∈ before, f.AgreeOnTables b a := by
  rw [forall_agreeOnTables_iff]
  rcases fresh_cases a with ⟨hfresh, hnone⟩ | ⟨llm, hfresh⟩ | ⟨llm, hfresh⟩ | ⟨domain, base, hcall⟩
  · obtain ⟨h₁, h₂, h₃⟩ := ask_of_none BaseChatModel.facets StructuredLlm.facets BoundLlm.facets
      hfresh
    refine iff_of_true ?_ ⟨fun b _ => agreeOn_of_none h₁ b, fun b _ => agreeOn_of_none h₂ b,
      fun b _ => agreeOn_of_none h₃ b⟩
    rw [FreshAnswer, hnone, hfresh]
    rfl
  · have h₁ := Constructs.askInstance BaseChatModel.facets (f := f) (.inl hfresh)
    have h₂ := askStructured_plain StructuredLlm.facets hfresh
    have h₃ : f.askBound BoundLlm.facets a = none := askBound_of_fresh _ hfresh (by simp)
    rw [LlmFactory.freshAnswer_iff (answer_of_plain caches hfresh) hfresh, Runnable.facets_plain,
      Memo.get_iff hkept.instances hkept.instancesCovered, ← forall_agreeOn_iff h₁]
    exact (and_iff_left ⟨fun b _ => agreeOn_of_none h₂ b, fun b _ => agreeOn_of_none h₃ b⟩).symm
  · have h₁ := Constructs.askInstance BaseChatModel.facets (f := f) (.inr ⟨llm.schema, hfresh⟩)
    have h₂ := askStructured_structured StructuredLlm.facets hfresh
    have h₃ : f.askBound BoundLlm.facets a = none := askBound_of_fresh _ hfresh (by simp)
    rw [forall_agreeOn_iff h₁, forall_agreeOn_iff h₂,
      ← Memo.get_iff hkept.instances hkept.instancesCovered,
      ← Memo.get_iff hkept.structured hkept.covered]
    cases hfound : caches.structured (f.structuredKeyOf a.moment.settings llm) with
    | some found =>
        rw [LlmFactory.freshAnswer_iff (answer_of_hit hfresh hfound) hfresh,
          Runnable.facets_structured, Memo.get_of_some hfound]
        refine ⟨fun hfacets => ⟨?_, hfacets, fun b _ => agreeOn_of_none h₃ b⟩, fun h => h.2.1⟩
        -- The instance table has the instance that was asked for.
        obtain ⟨base, hbase, hsame⟩ := hkept.instancesCovered _ _ (hkept.mem_of_hit hfound hfacets)
        rw [Memo.get_of_some hbase]
        exact hsame
    | none =>
        rw [LlmFactory.freshAnswer_iff (answer_of_miss hfresh hfound) hfresh,
          Runnable.facets_structured, Memo.get_of_none hfound]
        refine ⟨fun hfacets => ⟨congrArg Prod.fst hfacets, rfl, fun b _ => agreeOn_of_none h₃ b⟩,
          fun h => ?_⟩
        exact congrArg (·, llm.schema) h.1
  · obtain ⟨hfresh, h₁, h₂, h₃⟩ :=
      ask_of_bound BaseChatModel.facets StructuredLlm.facets BoundLlm.facets hcall
    rw [LlmFactory.freshAnswer_iff (answer_of_bound caches hcall) hfresh, Runnable.facets_bound,
      Memo.get_iff hkept.bound hkept.boundCovered, ← forall_agreeOn_iff h₃]
    exact ⟨fun h => ⟨fun b _ => agreeOn_of_none h₁ b, fun b _ => agreeOn_of_none h₂ b, h⟩,
      fun h => h.2.2⟩

/-- **A request that is answered with what it would construct leaves the tables in
order.** -/
theorem FreshKept.step (hkept : f.FreshKept before caches) (hfresh : f.FreshAnswer caches a) :
    f.FreshKept (before ++ [a]) (f.step caches a) := by
  obtain ⟨hinstances, -, hbounds⟩ := forall_agreeOnTables_iff.1 (hkept.freshAnswer_iff.1 hfresh)
  have hinstance : ∀ llm, f.Constructs a llm →
      (caches.instances.get (f.keyOf a.moment.settings llm) llm).facets = llm.facets := fun llm h =>
    hkept.instances.get ((forall_agreeOn_iff (h.askInstance _)).1 hinstances)
  have hbound : ∀ domain base, a.call = .getCachedBoundLlm domain base →
      (caches.bound.get (f.boundCacheKey a.moment.settings domain base)
        ⟨base, domainTools a.moment.mcpTools domain⟩).facets
        = (⟨base, domainTools a.moment.mcpTools domain⟩ : BoundLlm).facets := fun domain base h =>
    hkept.bound.get ((forall_agreeOn_iff
      (ask_of_bound BaseChatModel.facets StructuredLlm.facets _ h).2.2.2).1 hbounds)
  have hstructured : ∀ llm r, f.fresh a = some (.structured llm) →
      (f.answer caches a).map Prod.fst = some (.structured r) → r.facets = llm.facets := by
    intro llm r hllm hr
    rw [FreshAnswer, hr, hllm] at hfresh
    exact Runnable.facets_structured.1 (Option.some.inj hfresh)
  refine ⟨Kept.step hkept.toKept hinstance hstructured hbound, ?_, ?_⟩
  · rcases step_instances caches a BaseChatModel.facets with ⟨hask, hstep⟩ | ⟨llm, hllm, hstep⟩ |
      ⟨llm, found, hnew, hfound, hstep⟩
    · rw [askedBy_append_none hask, hstep]
      exact hkept.instancesCovered
    · rw [askedBy_append_some (hllm.askInstance _), hstep]
      exact hkept.instancesCovered.fill (hinstance llm hllm)
    · -- The instance table already has what the request would ask it for.
      have hsame := hstructured llm found hnew
        (congrArg (Option.map Prod.fst) (answer_of_hit hnew hfound))
      rw [askedBy_append_some (Constructs.askInstance _ (.inr ⟨llm.schema, hnew⟩)), hstep,
        Set.insert_eq_of_mem (hkept.mem_of_hit hfound hsame)]
      exact hkept.instancesCovered
  · rcases step_bound caches a BoundLlm.facets with ⟨hask, hstep⟩ | ⟨domain, base, hcall, hstep⟩
    · rw [askedBy_append_none hask, hstep]
      exact hkept.boundCovered
    · rw [askedBy_append_some
        (ask_of_bound BaseChatModel.facets StructuredLlm.facets _ hcall).2.2.2, hstep]
      exact hkept.boundCovered.fill (hbound domain base hcall)

end Step

/-- What is returned is up to date when the requests agree on the tables. -/
theorem fresh_iff_agreeOnTables {requests : List (LlmRequest σ)} :
    f.Fresh requests ↔ requests.Pairwise f.AgreeOnTables := by
  have hiff : f.Fresh requests ↔ ∀ before a after, requests = before ++ a :: after →
      f.FreshAnswer (before.foldl f.step .empty) a := Iff.rfl
  have hstart : f.FreshKept [] .empty := FreshKept.empty
  rw [hiff]
  refine forall_answers_iff hstart (fun before caches a _ _ hkept => ?_)
    fun before caches a _ _ hkept hfresh => ?_
  · exact hkept.freshAnswer_iff
  · exact hkept.step hfresh

/-! ### When requests agree -/

variable (f) in
/-- The texts a request hashes. -/
def hashedTexts (a : LlmRequest σ) : List String :=
  fingerprintText a.moment.settings ::
    match a.call with
    | .getLlmInstance _ config | .getStructuredLlm _ _ config =>
        ((resolveProviderAndKey f.toTexts a.moment.settings config).bind fun r =>
          truthyText r.apiKeyStr).toList
    | .getCachedBoundLlm _ base => [extractApiKeyFromLlm base]

variable (f) in
/-- The digest tells the texts that some requests hash apart. -/
def DigestApart (requests : List (LlmRequest σ)) : Prop :=
  ∀ a ∈ requests, ∀ b ∈ requests, ∀ text ∈ f.hashedTexts a, ∀ text' ∈ f.hashedTexts b,
    f.digest12 text = f.digest12 text' → text = text'

/-- What the key of an instance is made of: the provider, the model, the API key and
the text of the settings fingerprint. -/
def SameKeyParts (a b : LlmRequest σ) (llm llm' : BaseChatModel) : Prop :=
  llm.provider = llm'.provider ∧ llm.modelName = llm'.modelName ∧ llm.apiKey = llm'.apiKey ∧
    fingerprintText a.moment.settings = fingerprintText b.moment.settings

variable (f) in
/-- **What two requests have to agree on.**  The base URL and the token limit of models
with the same parts of a key; the schemas of one name; no provider and model that go on
where others end; the model and the tools that are bound for a domain. -/
structure Agree (a b : LlmRequest σ) : Prop where
  instances : ∀ llm llm', f.Constructs a llm → f.Constructs b llm' → SameKeyParts a b llm llm' →
    llm.baseUrl = llm'.baseUrl ∧ llm.maxTokens = llm'.maxTokens
  schemas : ∀ llm llm', f.fresh a = some (.structured llm) → f.fresh b = some (.structured llm') →
    SameKeyParts a b llm.base llm'.base → f.schemaName llm.schema = f.schemaName llm'.schema →
      llm.schema = llm'.schema
  parted : ∀ llm llm', f.fresh a = some (.structured llm) → f.fresh b = some (.structured llm') →
    ¬ TextOverhangs "_" (namePart llm.base) (f.hashPart a.moment.settings llm)
        (namePart llm'.base) (f.hashPart b.moment.settings llm') ∧
      ¬ TextOverhangs "_" (namePart llm'.base) (f.hashPart b.moment.settings llm')
        (namePart llm.base) (f.hashPart a.moment.settings llm)
  bound : ∀ domain base domain' base', a.call = .getCachedBoundLlm domain base →
    b.call = .getCachedBoundLlm domain' base' →
    domain ++ "_" ++ f.modelLabel base = domain' ++ "_" ++ f.modelLabel base' →
    extractApiKeyFromLlm base = extractApiKeyFromLlm base' →
    fingerprintText a.moment.settings = fingerprintText b.moment.settings →
      base.facets = base'.facets ∧
        ∀ tool, tool ∈ domainTools a.moment.mcpTools domain ↔
          tool ∈ domainTools b.moment.mcpTools domain'

/-- The key of a model that is constructed is hashed. -/
theorem mem_hashedTexts_of_constructs {a : LlmRequest σ} {llm : BaseChatModel}
    (h : f.Constructs a llm) {key : String} (hkey : llm.apiKey = some key) :
    key ∈ f.hashedTexts a := by
  have hresolved : ∀ {config : Option Configurable} {r : Resolved},
      resolveProviderAndKey f.toTexts a.moment.settings config = some r → r.apiKeyStr = some key →
        key ∈ ((resolveProviderAndKey f.toTexts a.moment.settings config).bind fun r =>
          truthyText r.apiKeyStr).toList := by
    intro config r hr hkey
    rw [hr, Option.bind_some, truthyText_resolved hr, hkey]
    exact List.mem_singleton_self key
  rcases h with hfresh | ⟨schema, hfresh⟩
  · obtain ⟨tier, config, r, hcall, hr, rfl⟩ := call_of_plain hfresh
    rw [hashedTexts, hcall]
    exact List.mem_cons_of_mem _ (hresolved hr hkey)
  · obtain ⟨tier, schema', config, r, hcall, hr, hllm⟩ := call_of_structured hfresh
    obtain ⟨rfl, -⟩ := StructuredLlm.mk.inj hllm
    rw [hashedTexts, hcall]
    exact List.mem_cons_of_mem _ (hresolved hr hkey)

section Agree

variable {requests : List (LlmRequest σ)} {a b : LlmRequest σ}

/-- Fingerprints are equal when their texts are. -/
theorem DigestApart.fingerprint_iff (h : f.DigestApart requests) (ha : a ∈ requests)
    (hb : b ∈ requests) :
    f.settingsFingerprint a.moment.settings = f.settingsFingerprint b.moment.settings ↔
      fingerprintText a.moment.settings = fingerprintText b.moment.settings := by
  refine ⟨fun hdigest => ?_, fun htext => congrArg f.digest12 htext⟩
  exact h a ha b hb _ List.mem_cons_self _ List.mem_cons_self hdigest

/-- Hashes of resolved keys are equal when the keys are. -/
theorem DigestApart.apiHash_iff (h : f.DigestApart requests) (ha : a ∈ requests)
    (hb : b ∈ requests) {llm llm' : BaseChatModel} (hllm : f.Constructs a llm)
    (hllm' : f.Constructs b llm') :
    f.apiHash llm.apiKey = f.apiHash llm'.apiKey ↔ llm.apiKey = llm'.apiKey := by
  refine ⟨fun hhash => ?_, fun hkey => congrArg f.apiHash hkey⟩
  rcases f.digest_of_apiHash hllm.truthyText_apiKey hllm'.truthyText_apiKey hhash with
    ⟨hkey, hkey'⟩ | ⟨key, key', hkey, hkey', hdigest⟩
  · rw [hkey, hkey']
  · rw [hkey, hkey', h a ha b hb key (mem_hashedTexts_of_constructs hllm hkey) key'
      (mem_hashedTexts_of_constructs hllm' hkey') hdigest]

/-- **Keys of instances are equal** when what they are made of is. -/
theorem DigestApart.keyOf_iff (h : f.DigestApart requests) (ha : a ∈ requests) (hb : b ∈ requests)
    {llm llm' : BaseChatModel} (hllm : f.Constructs a llm) (hllm' : f.Constructs b llm') :
    f.keyOf a.moment.settings llm = f.keyOf b.moment.settings llm' ↔ SameKeyParts a b llm llm' := by
  rw [f.keyOf_eq_iff, h.apiHash_iff ha hb hllm hllm', h.fingerprint_iff ha hb]
  exact Iff.rfl

/-- Requests agree on the instance table when models with the same parts of a key have
one base URL and one token limit. -/
theorem DigestApart.agreeOn_instances_iff (h : f.DigestApart requests) (ha : a ∈ requests)
    (hb : b ∈ requests) :
    AgreeOn (f.askInstance BaseChatModel.facets) a b ↔
      ∀ llm llm', f.Constructs a llm → f.Constructs b llm' → SameKeyParts a b llm llm' →
        llm.baseUrl = llm'.baseUrl ∧ llm.maxTokens = llm'.maxTokens := by
  constructor
  · intro hagree llm llm' hllm hllm' hsame
    have hask := hllm'.askInstance BaseChatModel.facets
    rw [← (h.keyOf_iff ha hb hllm hllm').2 hsame] at hask
    have hfacets := hagree _ _ _ (hllm.askInstance _) hask
    exact ⟨congrArg ModelFacets.baseUrl hfacets, congrArg ModelFacets.maxTokens hfacets⟩
  · intro hagree key facets facets' hask hask'
    obtain ⟨llm, hllm, heq⟩ := askInstance_eq_some hask
    obtain ⟨llm', hllm', heq'⟩ := askInstance_eq_some hask'
    obtain ⟨rfl, rfl⟩ := Prod.mk.inj heq
    obtain ⟨hkeys, rfl⟩ := Prod.mk.inj heq'
    have hsame := (h.keyOf_iff ha hb hllm hllm').1 hkeys.symm
    obtain ⟨hurl, htokens⟩ := hagree llm llm' hllm hllm' hsame
    rw [BaseChatModel.facets, BaseChatModel.facets, hsame.1, hsame.2.1, hurl, htokens]

/-- Requests for structured models with equal keys: what the keys are made of is the
same, or the provider and model of one go on where those of the other end. -/
theorem DigestApart.structuredKeyOf_iff (h : f.DigestApart requests) (ha : a ∈ requests)
    (hb : b ∈ requests) {llm llm' : StructuredLlm σ} (hfresh : f.fresh a = some (.structured llm))
    (hfresh' : f.fresh b = some (.structured llm')) :
    f.structuredKeyOf a.moment.settings llm = f.structuredKeyOf b.moment.settings llm' ↔
      (SameKeyParts a b llm.base llm'.base ∧ f.schemaName llm.schema = f.schemaName llm'.schema) ∨
      TextOverhangs "_" (namePart llm.base) (f.hashPart a.moment.settings llm)
        (namePart llm'.base) (f.hashPart b.moment.settings llm') ∨
      TextOverhangs "_" (namePart llm'.base) (f.hashPart b.moment.settings llm')
        (namePart llm.base) (f.hashPart a.moment.settings llm) := by
  rw [f.structuredKeyOf_eq, f.structuredKeyOf_eq, text_joined_eq_iff (c := '_') rfl]
  refine or_congr_left ⟨?_, ?_⟩
  · rintro ⟨hname, hpart⟩
    obtain ⟨hprovider, hmodel⟩ := namePart_inj hname
    obtain ⟨hhash, hfingerprint, hschema⟩ := f.hashPart_inj hpart
    refine ⟨⟨hprovider, hmodel, ?_, ?_⟩, hschema⟩
    · exact (h.apiHash_iff ha hb (.inr ⟨llm.schema, hfresh⟩) (.inr ⟨llm'.schema, hfresh'⟩)).1 hhash
    · exact (h.fingerprint_iff ha hb).1 hfingerprint
  · rintro ⟨⟨hprovider, hmodel, hkey, htext⟩, hschema⟩
    refine ⟨?_, ?_⟩
    · rw [namePart, namePart, hprovider, hmodel]
    · rw [hashPart, hashPart, hkey, (h.fingerprint_iff ha hb).2 htext, hschema]

/-- Requests whose structured models are of agreeing instances agree on their table when
a name means one schema and no key is torn. -/
theorem DigestApart.agreeOn_structured_iff (h : f.DigestApart requests) (ha : a ∈ requests)
    (hb : b ∈ requests) (hinstances : AgreeOn (f.askInstance BaseChatModel.facets) a b) :
    AgreeOn (f.askStructured StructuredLlm.facets) a b ↔
      ∀ llm llm', f.fresh a = some (.structured llm) → f.fresh b = some (.structured llm') →
        (SameKeyParts a b llm.base llm'.base → f.schemaName llm.schema = f.schemaName llm'.schema →
          llm.schema = llm'.schema) ∧
        ¬ TextOverhangs "_" (namePart llm.base) (f.hashPart a.moment.settings llm)
          (namePart llm'.base) (f.hashPart b.moment.settings llm') ∧
        ¬ TextOverhangs "_" (namePart llm'.base) (f.hashPart b.moment.settings llm')
          (namePart llm.base) (f.hashPart a.moment.settings llm) := by
  constructor
  · intro hagree llm llm' hfresh hfresh'
    have hsame : f.structuredKeyOf a.moment.settings llm = f.structuredKeyOf b.moment.settings llm' →
        llm.facets = llm'.facets := by
      intro hkeys
      refine hagree _ _ _ (askStructured_structured _ hfresh) ?_
      rw [askStructured_structured _ hfresh', hkeys]
    have hname : llm.facets = llm'.facets → namePart llm.base = namePart llm'.base := by
      intro hfacets
      have hbase : llm.base.facets = llm'.base.facets := congrArg Prod.fst hfacets
      have hprovider : llm.base.provider = llm'.base.provider := congrArg ModelFacets.provider hbase
      have hmodel : llm.base.modelName = llm'.base.modelName := congrArg ModelFacets.modelName hbase
      rw [namePart, namePart, hprovider, hmodel]
    have hkeys := h.structuredKeyOf_iff ha hb hfresh hfresh'
    refine ⟨fun hparts hschema => ?_, fun hover => ?_, fun hover => ?_⟩
    · exact congrArg Prod.snd (hsame (hkeys.2 (.inl ⟨hparts, hschema⟩)))
    · exact hover.ne (c := '_') rfl (hname (hsame (hkeys.2 (.inr (.inl hover)))))
    · exact hover.ne (c := '_') rfl (hname (hsame (hkeys.2 (.inr (.inr hover))))).symm
  · intro hagree key facets facets' hask hask'
    obtain ⟨llm, hfresh, heq⟩ := askStructured_eq_some.1 hask
    obtain ⟨llm', hfresh', heq'⟩ := askStructured_eq_some.1 hask'
    obtain ⟨rfl, rfl⟩ := Prod.mk.inj heq
    obtain ⟨hkeys, rfl⟩ := Prod.mk.inj heq'
    obtain ⟨hschemas, hnot, hnot'⟩ := hagree llm llm' hfresh hfresh'
    rcases (h.structuredKeyOf_iff ha hb hfresh hfresh').1 hkeys.symm with ⟨hparts, hschema⟩ | hover | hover
    · have hllm : f.Constructs a llm.base := .inr ⟨llm.schema, hfresh⟩
      have hllm' : f.Constructs b llm'.base := .inr ⟨llm'.schema, hfresh'⟩
      have hask := hllm'.askInstance BaseChatModel.facets
      rw [← (h.keyOf_iff ha hb hllm hllm').2 hparts] at hask
      exact Prod.ext (hinstances _ _ _ (hllm.askInstance _) hask) (hschemas hparts hschema)
    · exact absurd hover hnot
    · exact absurd hover hnot'

/-- Requests to bind models agree on their table when one label, key and fingerprint
stand for one model and one set of tools. -/
theorem DigestApart.agreeOn_bound_iff (h : f.DigestApart requests) (ha : a ∈ requests)
    (hb : b ∈ requests) :
    AgreeOn (f.askBound BoundLlm.facets) a b ↔
      ∀ domain base domain' base', a.call = .getCachedBoundLlm domain base →
        b.call = .getCachedBoundLlm domain' base' →
        domain ++ "_" ++ f.modelLabel base = domain' ++ "_" ++ f.modelLabel base' →
        extractApiKeyFromLlm base = extractApiKeyFromLlm base' →
        fingerprintText a.moment.settings = fingerprintText b.moment.settings →
          base.facets = base'.facets ∧
            ∀ tool, tool ∈ domainTools a.moment.mcpTools domain ↔
              tool ∈ domainTools b.moment.mcpTools domain' := by
  have hmem : ∀ {c : LlmRequest σ} {domain : String} {base : BaseChatModel},
      c.call = .getCachedBoundLlm domain base → extractApiKeyFromLlm base ∈ f.hashedTexts c := by
    intro c domain base hcall
    rw [hashedTexts, hcall]
    exact List.mem_cons_of_mem _ (List.mem_singleton_self _)
  have hask : ∀ {c : LlmRequest σ} {domain : String} {base : BaseChatModel},
      c.call = .getCachedBoundLlm domain base → f.askBound BoundLlm.facets c
        = some (f.boundCacheKey c.moment.settings domain base,
          (⟨base, domainTools c.moment.mcpTools domain⟩ : BoundLlm).facets) := by
    intro c domain base hcall
    rw [askBound, hcall]
  constructor
  · intro hagree domain base domain' base' hcall hcall' hlabel hkey htext
    have hkeys : f.boundCacheKey a.moment.settings domain base
        = f.boundCacheKey b.moment.settings domain' base' :=
      f.boundCacheKey_eq_iff.2
        ⟨hlabel, congrArg f.digest12 hkey, (h.fingerprint_iff ha hb).2 htext⟩
    have hfacets := hagree _ _ _ (hask hcall) (by rw [hask hcall', hkeys])
    exact ⟨congrArg Prod.fst hfacets, fun tool => Set.ext_iff.1 (congrArg Prod.snd hfacets) tool⟩
  · intro hagree key facets facets' hfound hfound'
    obtain ⟨domain, base, hcall, heq⟩ := askBound_eq_some hfound
    obtain ⟨domain', base', hcall', heq'⟩ := askBound_eq_some hfound'
    obtain ⟨rfl, rfl⟩ := Prod.mk.inj heq
    obtain ⟨hkeys, rfl⟩ := Prod.mk.inj heq'
    obtain ⟨hlabel, hdigest, hfingerprint⟩ := f.boundCacheKey_eq_iff.1 hkeys.symm
    obtain ⟨hbase, htools⟩ := hagree domain base domain' base' hcall hcall' hlabel
      (h a ha b hb _ (hmem hcall) _ (hmem hcall') hdigest) ((h.fingerprint_iff ha hb).1 hfingerprint)
    exact Prod.ext hbase (Set.ext htools)

/-- **Requests agree on the tables** when they agree on what the keys leave out. -/
theorem DigestApart.agree_iff (h : f.DigestApart requests) (ha : a ∈ requests)
    (hb : b ∈ requests) : f.AgreeOnTables a b ↔ f.Agree a b := by
  constructor
  · rintro ⟨hinstances, hstructured, hbound⟩
    have hall := (h.agreeOn_structured_iff ha hb hinstances).1 hstructured
    refine ⟨(h.agreeOn_instances_iff ha hb).1 hinstances, fun llm llm' hfresh hfresh' => ?_,
      fun llm llm' hfresh hfresh' => ?_, (h.agreeOn_bound_iff ha hb).1 hbound⟩
    · exact (hall llm llm' hfresh hfresh').1
    · exact (hall llm llm' hfresh hfresh').2
  · intro hagree
    have hinstances := (h.agreeOn_instances_iff ha hb).2 hagree.instances
    refine ⟨hinstances, ?_, (h.agreeOn_bound_iff ha hb).2 hagree.bound⟩
    refine (h.agreeOn_structured_iff ha hb hinstances).2 fun llm llm' hfresh hfresh' => ?_
    exact ⟨hagree.schemas llm llm' hfresh hfresh', hagree.parted llm llm' hfresh hfresh'⟩

/-- **When no model is stale.**  For requests whose hashed texts the digest tells apart:
each gets what it would construct afresh, exactly when any two agree on what the keys of
the tables leave out. -/
theorem fresh_iff (h : f.DigestApart requests) :
    f.Fresh requests ↔ requests.Pairwise f.Agree := by
  rw [fresh_iff_agreeOnTables]
  exact List.Pairwise.iff_of_mem fun ha hb => h.agree_iff ha hb

end Agree

end LlmFactory

/-! ### Two moments -/

/-- The default settings with a key for OpenAI, a model for tier 1 and a token limit. -/
def openAiOnly (model : String) (maxTokens : ℤ) : Settings :=
  ⟨{ openAiSettings (some "sk-env") with tier1FastModel := model, maxCompletionTokens := maxTokens },
    claudeSettings none⟩

/-- A request for an instance of tier 1 under these settings. -/
def instanceRequest (model : String) (maxTokens : ℤ) : LlmRequest String :=
  ⟨⟨openAiOnly model maxTokens, []⟩, .getLlmInstance 1 none⟩

/-- The instance of tier 1 with the default model. -/
def miniModel (maxTokens : ℤ) : BaseChatModel :=
  ⟨.openai, "gpt-4o-mini", some "sk-env", some "https://models.inference.ai.azure.com", maxTokens⟩

/-- The digests of the key and of the settings with two models. -/
def rotatedDigests : Digests where
  table :=
    [("sk-env", "c46b5e898819"), (fingerprintText (openAiOnly "gpt-4o-mini" 1024), "f8306157f3ae"),
      (fingerprintText (openAiOnly "gpt-4.1-mini" 1024), "608b68dc68d2")]
  hex := by simp

/-- The digest tells requests with these models apart. -/
theorem digestApart_rotated {requests : List (LlmRequest String)}
    (h : ∀ a ∈ requests, ∃ model ∈ ["gpt-4o-mini", "gpt-4.1-mini"], ∃ maxTokens,
      a = instanceRequest model maxTokens) : rotatedDigests.factory.DigestApart requests := by
  have hmem : ∀ a ∈ requests, ∀ text ∈ rotatedDigests.factory.hashedTexts a,
      text ∈ rotatedDigests.table.map Prod.fst := by
    intro a ha text htext
    obtain ⟨model, hmodel, maxTokens, rfl⟩ := h a ha
    -- The token limit is in none of them.
    have htexts : text ∈ [fingerprintText (openAiOnly model 1024), "sk-env"] := htext
    rw [List.mem_pair] at hmodel htexts
    rcases htexts with rfl | rfl
    · rcases hmodel with rfl | rfl <;> simp [rotatedDigests]
    · simp [rotatedDigests]
  intro a ha b hb text htext text' htext' hdigest
  exact Digests.digest12_inj (by decide) (hmem a ha text htext) (hmem b hb text' htext') hdigest

/-- A new token limit is not in the keys: the model with the old one is returned. -/
theorem old_token_limit_returned : ¬ ∀ (f : LlmFactory String) (requests : List (LlmRequest String)),
    f.DigestApart requests → f.Fresh requests := by
  intro h
  have hapart : rotatedDigests.factory.DigestApart
      [instanceRequest "gpt-4o-mini" 1024, instanceRequest "gpt-4o-mini" 4096] := by
    refine digestApart_rotated fun a ha => ⟨"gpt-4o-mini", List.mem_cons_self, ?_⟩
    rcases List.mem_cons.1 ha with rfl | ha
    · exact ⟨1024, rfl⟩
    · exact ⟨4096, List.mem_singleton.1 ha⟩
  have hagree := LlmFactory.fresh_iff_agreeOnTables.1 (h _ _ hapart)
  have hfresh : ∀ maxTokens, rotatedDigests.factory.fresh (instanceRequest "gpt-4o-mini" maxTokens)
      = some (.plain (miniModel maxTokens)) := fun maxTokens => rfl
  have hask : ∀ maxTokens, rotatedDigests.factory.askInstance BaseChatModel.facets
        (instanceRequest "gpt-4o-mini" maxTokens)
      = some (rotatedDigests.factory.keyOf (openAiOnly "gpt-4o-mini" 1024) (miniModel 1024),
        (miniModel maxTokens).facets) := fun maxTokens =>
    LlmFactory.Constructs.askInstance BaseChatModel.facets (.inl (hfresh maxTokens))
  have hfacets := ((List.pairwise_cons.1 hagree).1 _ (List.mem_singleton_self _)).1 _ _ _
    (hask 1024) (hask 4096)
  exact absurd (congrArg ModelFacets.maxTokens hfacets) (by decide)

/-- A new model of a tier is in the keys: it is constructed. -/
theorem new_model_constructed :
    rotatedDigests.factory.DigestApart
        [instanceRequest "gpt-4o-mini" 1024, instanceRequest "gpt-4.1-mini" 1024] ∧
      rotatedDigests.factory.Fresh
        [instanceRequest "gpt-4o-mini" 1024, instanceRequest "gpt-4.1-mini" 1024] := by
  have hapart : rotatedDigests.factory.DigestApart
      [instanceRequest "gpt-4o-mini" 1024, instanceRequest "gpt-4.1-mini" 1024] := by
    refine digestApart_rotated fun a ha => ?_
    rcases List.mem_cons.1 ha with rfl | ha
    · exact ⟨"gpt-4o-mini", by decide, 1024, rfl⟩
    · exact ⟨"gpt-4.1-mini", by decide, 1024, List.mem_singleton.1 ha⟩
  refine ⟨hapart, (LlmFactory.fresh_iff hapart).2 (List.pairwise_pair.2 ⟨?_, ?_, ?_, ?_⟩)⟩
  · rintro llm llm' (hfresh | ⟨schema, hfresh⟩) (hfresh' | ⟨schema', hfresh'⟩) ⟨-, hmodel, -⟩
    · obtain rfl := Runnable.plain.inj (Option.some.inj hfresh)
      obtain rfl := Runnable.plain.inj (Option.some.inj hfresh')
      exact absurd hmodel (by decide)
    · exact absurd (Option.some.inj hfresh') (by simp)
    · exact absurd (Option.some.inj hfresh) (by simp)
    · exact absurd (Option.some.inj hfresh) (by simp)
  · exact fun llm llm' hfresh => absurd (Option.some.inj hfresh) (by simp)
  · exact fun llm llm' hfresh => absurd (Option.some.inj hfresh) (by simp)
  · exact fun domain base domain' base' hcall => absurd hcall (by simp [instanceRequest])

end Llm
end CognitiveEngine
