/-
# The caches of the chat models

`get_llm_instance`, `get_structured_llm` and `get_cached_bound_llm`
(`app/graph/config.py`) with their three tables.  The tables are filled on demand and
never emptied.  The keys are texts joined with underscores: the provider, the model
name, a hash of the API key and one of the settings, with the name of the schema after
them or the domain before them.

A model is what it was constructed with, and constructing and binding return.
`digest12`, the first twelve digits of a SHA-256, is given with its form.
-/

import CognitiveEngine.Graph.DomainIsolation
import CognitiveEngine.Llm.Resolution
import CognitiveEngine.Machine.Memo

namespace CognitiveEngine
namespace Llm

open CognitiveEngine.Graph Machine

variable {σ : Type}

/-! ### Models -/

/-- A `ChatOpenAI` or a `ChatAnthropic`, by what it was constructed with; the second
gets no base URL. -/
structure BaseChatModel where
  provider : Provider
  modelName : String
  apiKey : Option String
  baseUrl : Option String
  maxTokens : ℤ
  deriving DecidableEq

/-- What `base_llm.with_structured_output(schema)` was made of. -/
structure StructuredLlm (σ : Type) where
  base : BaseChatModel
  schema : σ

/-- A loaded tool with what a model is told of it. -/
structure McpTool extends BaseTool where
  spec : Json

/-- What `base_llm.bind_tools(tools)` was made of; without tools it is the model
itself. -/
structure BoundLlm where
  base : BaseChatModel
  tools : List McpTool

/-- `get_tools_by_domain`. -/
def domainTools (mcpTools : List McpTool) (domain : String) : List McpTool :=
  mcpTools.filter fun tool => tool.name ∈ allowedToolNames domain

/-- The registry looks at the names only. -/
theorem map_domainTools (mcpTools : List McpTool) (domain : String) :
    (domainTools mcpTools domain).map McpTool.toBaseTool
      = getToolsByDomain (mcpTools.map McpTool.toBaseTool) domain := by
  rw [domainTools, getToolsByDomain, List.filter_map]
  rfl

/-- The model a resolved request constructs for a tier. -/
def Resolved.newLlm (r : Resolved) (tier : ℤ) : BaseChatModel where
  provider := r.provider
  modelName := r.providerCfg.modelName tier
  apiKey := r.apiKeyStr
  baseUrl :=
    match r.provider with
    | .claude => none
    | .openai => some r.providerCfg.baseUrl
  maxTokens := r.providerCfg.maxCompletionTokens

/-! ### Keys -/

/-- The functions the keys go through. -/
structure LlmFactory (σ : Type) extends Texts where
  /-- `hashlib.sha256(x.encode()).hexdigest()[:12]`. -/
  digest12 : String → String
  length_digest12 : ∀ text, (digest12 text).toList.length = 12
  hex_digest12 : ∀ text, ∀ c ∈ (digest12 text).toList, c ∈ "0123456789abcdef".toList
  /-- `getattr(schema, "__name__", str(schema))`. -/
  schemaName : σ → String
  /-- `getattr(base_llm, "model", "default")` of a `ChatOpenAI` without a model name. -/
  bareModel : String

/-- A secret text, or `None`, in a format string. -/
def secretText : Option String → String
  | none => "None"
  | some secret => if secret = "" then "" else "**********"

/-- The text of `_get_settings_fingerprint`. -/
def fingerprintText (settings : Settings) : String :=
  "openai:" ++ secretText settings.openai.apiKey ++
    "|" ++ settings.openai.tier1FastModel ++
    "|" ++ settings.openai.tier2BalancedModel ++
    "|" ++ settings.openai.tier3ReasoningModel ++
    "|claude:" ++ secretText settings.claude.apiKey ++
    "|" ++ settings.claude.tier1FastModel ++
    "|" ++ settings.claude.tier2BalancedModel ++
    "|" ++ settings.claude.tier3ReasoningModel

/-- `_extract_api_key_from_llm`. -/
def extractApiKeyFromLlm (llm : BaseChatModel) : String := llm.apiKey.getD "unknown"

namespace LlmFactory

variable (f : LlmFactory σ)

/-- `_get_settings_fingerprint`. -/
def settingsFingerprint (settings : Settings) : String := f.digest12 (fingerprintText settings)

/-- `api_hash` of `_build_llm_cache_key`. -/
def apiHash (apiKeyStr : Option String) : String :=
  match truthyText apiKeyStr with
  | some key => f.digest12 key
  | none => "no_key"

/-- `_build_llm_cache_key`. -/
def buildLlmCacheKey (settings : Settings) (provider : Provider) (modelName : String)
    (apiKeyStr : Option String) : String :=
  provider.name ++ "_" ++ modelName ++ "_" ++ f.apiHash apiKeyStr ++ "_" ++
    f.settingsFingerprint settings

/-- `cache_key` of `get_structured_llm`. -/
def structuredCacheKey (settings : Settings) (provider : Provider) (modelName : String)
    (apiKeyStr : Option String) (schema : σ) : String :=
  f.buildLlmCacheKey settings provider modelName apiKeyStr ++ "_" ++ f.schemaName schema

/-- `model_name` of `get_cached_bound_llm`. -/
def modelLabel (llm : BaseChatModel) : String :=
  match llm.provider with
  | .claude => llm.modelName
  | .openai => if llm.modelName = "" then f.bareModel else llm.modelName

/-- `cache_key` of `get_cached_bound_llm`. -/
def boundCacheKey (settings : Settings) (domain : String) (llm : BaseChatModel) : String :=
  domain ++ "_" ++ f.modelLabel llm ++ "_" ++ f.digest12 (extractApiKeyFromLlm llm) ++ "_" ++
    f.settingsFingerprint settings

end LlmFactory

/-! ### The three functions -/

/-- `_LLM_INSTANCE_CACHE`, `_STRUCTURED_LLM_CACHE` and `_BOUND_LLM_CACHE`. -/
structure LlmCaches (σ : Type) where
  instances : Memo String BaseChatModel
  structured : Memo String (StructuredLlm σ)
  bound : Memo String BoundLlm

/-- The caches of a new process. -/
def LlmCaches.empty : LlmCaches σ := ⟨fun _ => none, fun _ => none, fun _ => none⟩

/-- What there is at a moment: the settings and the loaded tools. -/
structure Moment where
  settings : Settings
  mcpTools : List McpTool

namespace LlmFactory

variable (f : LlmFactory σ) (m : Moment)

/-- `get_llm_instance`, with the caches afterwards; `none` when it raises. -/
def getLlmInstance (tier : ℤ) (config : Option Configurable) (caches : LlmCaches σ) :
    Option (BaseChatModel × LlmCaches σ) := do
  let r ← resolveProviderAndKey f.toTexts m.settings config
  let key := f.buildLlmCacheKey m.settings r.provider (r.providerCfg.modelName tier) r.apiKeyStr
  return (caches.instances.get key (r.newLlm tier),
    { caches with instances := caches.instances.fill key (r.newLlm tier) })

/-- `get_structured_llm`, with the caches afterwards; `none` when it raises. -/
def getStructuredLlm (tier : ℤ) (schema : σ) (config : Option Configurable)
    (caches : LlmCaches σ) : Option (StructuredLlm σ × LlmCaches σ) := do
  let r ← resolveProviderAndKey f.toTexts m.settings config
  let key := f.structuredCacheKey m.settings r.provider (r.providerCfg.modelName tier) r.apiKeyStr
    schema
  match caches.structured key with
  | some llm => return (llm, caches)
  | none =>
      let (base, caches) ← f.getLlmInstance m tier config caches
      return (⟨base, schema⟩,
        { caches with structured := caches.structured.fill key ⟨base, schema⟩ })

/-- `get_cached_bound_llm`, with the caches afterwards. -/
def getCachedBoundLlm (domain : String) (base : BaseChatModel) (caches : LlmCaches σ) :
    BoundLlm × LlmCaches σ :=
  let key := f.boundCacheKey m.settings domain base
  let made : BoundLlm := ⟨base, domainTools m.mcpTools domain⟩
  (caches.bound.get key made, { caches with bound := caches.bound.fill key made })

end LlmFactory

/-! ### Requests -/

/-- A call of one of the three functions. -/
inductive LlmCall (σ : Type) where
  | getLlmInstance (tier : ℤ) (config : Option Configurable)
  | getStructuredLlm (tier : ℤ) (schema : σ) (config : Option Configurable)
  | getCachedBoundLlm (domain : String) (base : BaseChatModel)

/-- A call and the moment it is made. -/
structure LlmRequest (σ : Type) where
  moment : Moment
  call : LlmCall σ

/-- What a call returns. -/
inductive Runnable (σ : Type) where
  | plain (llm : BaseChatModel)
  | structured (llm : StructuredLlm σ)
  | bound (llm : BoundLlm)

/-- The model a runnable was made of. -/
def Runnable.base : Runnable σ → BaseChatModel
  | .plain llm => llm
  | .structured llm => llm.base
  | .bound llm => llm.base

@[simp] theorem Runnable.base_plain (llm : BaseChatModel) : (.plain llm : Runnable σ).base = llm := rfl

@[simp] theorem Runnable.base_structured (llm : StructuredLlm σ) :
    (Runnable.structured llm).base = llm.base := rfl

@[simp] theorem Runnable.base_bound (llm : BoundLlm) : (.bound llm : Runnable σ).base = llm.base := rfl

namespace LlmFactory

variable (f : LlmFactory σ)

/-- What a request returns, with the caches afterwards; `none` when it raises. -/
def answer (caches : LlmCaches σ) (a : LlmRequest σ) : Option (Runnable σ × LlmCaches σ) :=
  match a.call with
  | .getLlmInstance tier config =>
      (f.getLlmInstance a.moment tier config caches).map fun result =>
        (.plain result.1, result.2)
  | .getStructuredLlm tier schema config =>
      (f.getStructuredLlm a.moment tier schema config caches).map fun result =>
        (.structured result.1, result.2)
  | .getCachedBoundLlm domain base =>
      let result := f.getCachedBoundLlm a.moment domain base caches
      some (.bound result.1, result.2)

/-- The caches after a request. -/
def step (caches : LlmCaches σ) (a : LlmRequest σ) : LlmCaches σ :=
  ((f.answer caches a).map Prod.snd).getD caches

/-- What a request returns after some others in a new process. -/
def returned (before : List (LlmRequest σ)) (a : LlmRequest σ) : Option (Runnable σ) :=
  (f.answer (before.foldl f.step .empty) a).map Prod.fst

/-- What a request constructs if it finds nothing. -/
def fresh (a : LlmRequest σ) : Option (Runnable σ) :=
  match a.call with
  | .getLlmInstance tier config =>
      (resolveProviderAndKey f.toTexts a.moment.settings config).map fun r => .plain (r.newLlm tier)
  | .getStructuredLlm tier schema config =>
      (resolveProviderAndKey f.toTexts a.moment.settings config).map fun r =>
        .structured ⟨r.newLlm tier, schema⟩
  | .getCachedBoundLlm domain base =>
      some (.bound ⟨base, domainTools a.moment.mcpTools domain⟩)

theorem step_of_answer {f : LlmFactory σ} {caches caches' : LlmCaches σ} {a : LlmRequest σ}
    {r : Runnable σ} (h : f.answer caches a = some (r, caches')) : f.step caches a = caches' := by
  rw [step, h]
  rfl

theorem step_of_none {f : LlmFactory σ} {caches : LlmCaches σ} {a : LlmRequest σ}
    (h : f.answer caches a = none) : f.step caches a = caches := by
  rw [step, h]
  rfl

theorem fresh_getLlmInstance {f : LlmFactory σ} {m : Moment} {config : Option Configurable}
    {r : Resolved} (h : resolveProviderAndKey f.toTexts m.settings config = some r) (tier : ℤ) :
    f.fresh ⟨m, .getLlmInstance tier config⟩ = some (.plain (r.newLlm tier)) :=
  congrArg (Option.map fun r : Resolved => (.plain (r.newLlm tier) : Runnable σ)) h

theorem fresh_getStructuredLlm {f : LlmFactory σ} {m : Moment} {config : Option Configurable}
    {r : Resolved} (h : resolveProviderAndKey f.toTexts m.settings config = some r) (tier : ℤ)
    (schema : σ) :
    f.fresh ⟨m, .getStructuredLlm tier schema config⟩ = some (.structured ⟨r.newLlm tier, schema⟩) :=
  congrArg (Option.map fun r : Resolved => Runnable.structured ⟨r.newLlm tier, schema⟩) h

/-! ### What an answer comes from -/

/-- The key of a model in the instance table. -/
def keyOf (settings : Settings) (llm : BaseChatModel) : String :=
  f.buildLlmCacheKey settings llm.provider llm.modelName llm.apiKey

/-- The key of a structured model in its table. -/
def structuredKeyOf (settings : Settings) (llm : StructuredLlm σ) : String :=
  f.keyOf settings llm.base ++ "_" ++ f.schemaName llm.schema

variable {f}

/-- A request that constructs an instance is one to `get_llm_instance`. -/
theorem call_of_plain {a : LlmRequest σ} {llm : BaseChatModel} (h : f.fresh a = some (.plain llm)) :
    ∃ tier config r, a.call = .getLlmInstance tier config ∧
      resolveProviderAndKey f.toTexts a.moment.settings config = some r ∧ r.newLlm tier = llm := by
  obtain ⟨m, call⟩ := a
  cases call with
  | getLlmInstance tier config =>
      obtain ⟨r, hr, hllm⟩ := Option.map_eq_some_iff.1 h
      exact ⟨tier, config, r, rfl, hr, Runnable.plain.inj hllm⟩
  | getStructuredLlm tier schema config =>
      obtain ⟨r, -, hllm⟩ := Option.map_eq_some_iff.1 h
      exact absurd hllm (by simp)
  | getCachedBoundLlm domain base => exact absurd (Option.some.inj h) (by simp)

/-- One that constructs a structured model is one to `get_structured_llm`. -/
theorem call_of_structured {a : LlmRequest σ} {llm : StructuredLlm σ}
    (h : f.fresh a = some (.structured llm)) :
    ∃ tier schema config r, a.call = .getStructuredLlm tier schema config ∧
      resolveProviderAndKey f.toTexts a.moment.settings config = some r ∧
      (⟨r.newLlm tier, schema⟩ : StructuredLlm σ) = llm := by
  obtain ⟨m, call⟩ := a
  cases call with
  | getLlmInstance tier config =>
      obtain ⟨r, -, hllm⟩ := Option.map_eq_some_iff.1 h
      exact absurd hllm (by simp)
  | getStructuredLlm tier schema config =>
      obtain ⟨r, hr, hllm⟩ := Option.map_eq_some_iff.1 h
      exact ⟨tier, schema, config, r, rfl, hr, Runnable.structured.inj hllm⟩
  | getCachedBoundLlm domain base => exact absurd (Option.some.inj h) (by simp)

/-- An instance is looked up under the key of the model that would be constructed. -/
theorem answer_of_plain {a : LlmRequest σ} {llm : BaseChatModel} (caches : LlmCaches σ)
    (h : f.fresh a = some (.plain llm)) :
    f.answer caches a = some (.plain (caches.instances.get (f.keyOf a.moment.settings llm) llm),
      { caches with instances := caches.instances.fill (f.keyOf a.moment.settings llm) llm }) := by
  obtain ⟨tier, config, r, hcall, hr, rfl⟩ := call_of_plain h
  rw [answer, hcall]
  dsimp only
  rw [getLlmInstance, hr]
  rfl

/-- A bound model is looked up with the tools there are. -/
theorem answer_of_bound {a : LlmRequest σ} {domain : String} {base : BaseChatModel}
    (caches : LlmCaches σ) (h : a.call = .getCachedBoundLlm domain base) :
    f.answer caches a = some
      (.bound (caches.bound.get (f.boundCacheKey a.moment.settings domain base)
          ⟨base, domainTools a.moment.mcpTools domain⟩),
        { caches with
          bound := caches.bound.fill (f.boundCacheKey a.moment.settings domain base)
            ⟨base, domainTools a.moment.mcpTools domain⟩ }) := by
  rw [answer, h]
  rfl

/-- A structured model that is there is returned, and nothing else changes. -/
theorem answer_of_hit {a : LlmRequest σ} {llm found : StructuredLlm σ} {caches : LlmCaches σ}
    (h : f.fresh a = some (.structured llm))
    (hfound : caches.structured (f.structuredKeyOf a.moment.settings llm) = some found) :
    f.answer caches a = some (.structured found, caches) := by
  obtain ⟨tier, schema, config, r, hcall, hr, rfl⟩ := call_of_structured h
  have hkey : caches.structured (f.structuredCacheKey a.moment.settings r.provider
      (r.providerCfg.modelName tier) r.apiKeyStr schema) = some found := hfound
  rw [answer, hcall]
  dsimp only
  rw [getStructuredLlm, hr, Option.bind_eq_bind, Option.bind_some]
  dsimp only
  rw [hkey]
  rfl

/-- A structured model that is missing is made of the instance that is there, or would
be. -/
theorem answer_of_miss {a : LlmRequest σ} {llm : StructuredLlm σ} {caches : LlmCaches σ}
    (h : f.fresh a = some (.structured llm))
    (hmissed : caches.structured (f.structuredKeyOf a.moment.settings llm) = none) :
    f.answer caches a = some
      (.structured ⟨caches.instances.get (f.keyOf a.moment.settings llm.base) llm.base, llm.schema⟩,
        { caches with
          instances := caches.instances.fill (f.keyOf a.moment.settings llm.base) llm.base
          structured := caches.structured.fill (f.structuredKeyOf a.moment.settings llm)
            ⟨caches.instances.get (f.keyOf a.moment.settings llm.base) llm.base, llm.schema⟩ }) := by
  obtain ⟨tier, schema, config, r, hcall, hr, rfl⟩ := call_of_structured h
  have hkey : caches.structured (f.structuredCacheKey a.moment.settings r.provider
      (r.providerCfg.modelName tier) r.apiKeyStr schema) = none := hmissed
  rw [answer, hcall]
  dsimp only
  rw [getStructuredLlm, getLlmInstance, hr, Option.bind_eq_bind, Option.bind_some]
  dsimp only
  rw [hkey]
  rfl

end LlmFactory

/-! ### Listed digests -/

/-- Some texts with their digests. -/
structure Digests where
  table : List (String × String)
  hex : ∀ e ∈ table, e.2.toList.length = 12 ∧ ∀ c ∈ e.2.toList, c ∈ "0123456789abcdef".toList

/-- The digest in the table, and zeros for any other text. -/
def Digests.digest12 (digests : Digests) (text : String) : String :=
  (digests.table.lookup text).getD "000000000000"

theorem Digests.hex_digest12 (digests : Digests) (text : String) :
    (digests.digest12 text).toList.length = 12 ∧
      ∀ c ∈ (digests.digest12 text).toList, c ∈ "0123456789abcdef".toList := by
  unfold Digests.digest12
  cases hlookup : digests.table.lookup text with
  | none => simp
  | some digest =>
      obtain ⟨before, after, htable, -⟩ := List.lookup_eq_some_iff.1 hlookup
      exact digests.hex (text, digest) (htable ▸ List.mem_append_right _ List.mem_cons_self)

/-- A text with a digest is in the table with it. -/
theorem Digests.mem_table (digests : Digests) {text : String}
    (h : text ∈ digests.table.map Prod.fst) : (text, digests.digest12 text) ∈ digests.table := by
  unfold Digests.digest12
  cases hlookup : digests.table.lookup text with
  | none =>
      obtain ⟨e, he, rfl⟩ := List.mem_map.1 h
      exact absurd (List.lookup_eq_none_iff.1 hlookup e he) (by simp)
  | some digest =>
      obtain ⟨before, after, htable, -⟩ := List.lookup_eq_some_iff.1 hlookup
      rw [htable]
      exact List.mem_append_right _ List.mem_cons_self

/-- Digests that differ tell the texts apart. -/
theorem Digests.digest12_inj {digests : Digests} (h : (digests.table.map Prod.snd).Nodup)
    {text text' : String} (htext : text ∈ digests.table.map Prod.fst)
    (htext' : text' ∈ digests.table.map Prod.fst)
    (heq : digests.digest12 text = digests.digest12 text') : text = text' :=
  congrArg Prod.fst (List.inj_on_of_nodup_map h (digests.mem_table htext)
    (digests.mem_table htext') heq)

/-- Each text has the digest in its line when no text has two. -/
theorem Digests.digest12_of_mem {digests : Digests} (h : (digests.table.map Prod.fst).Nodup)
    {text digest : String} (hmem : (text, digest) ∈ digests.table) :
    digests.digest12 text = digest :=
  congrArg Prod.snd (List.inj_on_of_nodup_map h
    (digests.mem_table (List.mem_map_of_mem hmem)) hmem rfl)

/-- The length of the text of a fingerprint, which tells texts apart. -/
theorem length_fingerprintText (settings : Settings) :
    (fingerprintText settings).length
      = 21 + (secretText settings.openai.apiKey).length + settings.openai.tier1FastModel.length +
        settings.openai.tier2BalancedModel.length + settings.openai.tier3ReasoningModel.length +
        (secretText settings.claude.apiKey).length + settings.claude.tier1FastModel.length +
        settings.claude.tier2BalancedModel.length + settings.claude.tier3ReasoningModel.length := by
  have hopenai : "openai:".length = 7 := rfl
  have hbar : "|".length = 1 := rfl
  have hclaude : "|claude:".length = 8 := rfl
  unfold fingerprintText
  simp only [String.length_append, hopenai, hbar, hclaude]
  omega

/-- A factory with these digests, for schemas that are their names. -/
def Digests.factory (digests : Digests) : LlmFactory String where
  toTexts := asciiTexts
  digest12 := digests.digest12
  length_digest12 text := (digests.hex_digest12 text).1
  hex_digest12 text := (digests.hex_digest12 text).2
  schemaName := id
  bareModel := ""

end Llm
end CognitiveEngine
