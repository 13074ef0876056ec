/-
# The version a cached answer is stored under

The container makes the semantic cache once, with the tier 2 model of the provider it
takes for the default (`app/bootstrap/container.py`): OpenAI if there is a key for it,
else Claude.  A request resolves its provider by a rule of its own, from what its user
has configured and else with Claude first, and the answer is stored under the version
the cache was made with.

`version_names_model_iff` says when the two agree: the request has to come out at the
container's provider, or at a tier 2 model of the same name.
-/

import CognitiveEngine.Llm.Resolution
import CognitiveEngine.Server.StreamEvents

namespace CognitiveEngine
namespace Server

open CognitiveEngine.Graph CognitiveEngine.Llm

variable {C V : Type}

/-! ### The container -/

/-- `_resolve_default_provider`. -/
def resolveDefaultProvider (settings : Settings) : Provider :=
  if settings.openai.hasKey then .openai else .claude

/-- `_resolve_cache_model_version`. -/
def resolveCacheModelVersion (settings : Settings) : Provider → String
  | .claude => settings.claude.tier2BalancedModel
  | .openai => settings.openai.tier2BalancedModel

/-- `container.semantic_cache`, over the store and the embedding provider. -/
def containerCache (settings : Settings) (cache : SemanticCache V) : SemanticCache V :=
  { cache with modelVersion := resolveCacheModelVersion settings (resolveDefaultProvider settings) }

/-- The version tag is the tier 2 model of its provider. -/
theorem resolveCacheModelVersion_eq (settings : Settings) (p : Provider) :
    resolveCacheModelVersion settings p = (settings.ofProvider p).modelName 2 := by
  cases p with
  | openai => rfl
  | claude => rfl

/-! ### The two choices -/

/-- The provider of a name is the one the container takes for the default: OpenAI is
asked for and has a key, Claude is asked for and OpenAI has no key, or no supported
provider is asked for and exactly one has a key. -/
def ChoosesDefault (texts : Texts) (settings : Settings) (name : String) : Prop :=
  match Provider.ofName? (texts.lower name) with
  | some .openai => settings.openai.hasKey
  | some .claude => ¬ settings.openai.hasKey
  | none => settings.openai.hasKey = !settings.claude.hasKey

/-- **When a request gets the container's default provider.** -/
theorem selectProvider_eq_default_iff {texts : Texts} {settings : Settings} {name : String} :
    settings.selectProvider texts name = resolveDefaultProvider settings ↔
      ChoosesDefault texts settings name := by
  unfold Settings.selectProvider ChoosesDefault resolveDefaultProvider Settings.fallbackProvider
  cases Provider.ofName? (texts.lower name) with
  | none =>
      cases settings.openai.hasKey <;> cases settings.claude.hasKey <;> decide
  | some p =>
      rw [Option.getD_some]
      cases p with
      | openai => cases settings.openai.hasKey <;> simp
      | claude => cases settings.openai.hasKey <;> simp

/-! ### Stored entries -/

/-- The provider name in the configuration of a call, if it is not `None`. -/
def Call.providerName? (x : Call) : Option String := x.config.bind RunnableConfig.llmProvider

/-- What the graph of a call resolves. -/
def Call.resolved (x : Call) (texts : Texts) (settings : Settings) : Option Resolved :=
  x.config.bind fun config => resolveProviderAndKey texts settings (some (ofRunnableConfig config))

theorem resolved_eq (texts : Texts) (settings : Settings) (x : Call) :
    x.resolved texts settings = x.config.bind fun config =>
      config.llmProvider.map fun name => settings.resolve texts name config.apiKey := by
  rw [Call.resolved]
  simp only [resolve_ofRunnableConfig]

/-- The version of each entry that a call stores is the tier 2 model of the provider its
graph resolves. -/
def VersionNamesModel (texts : Texts) (settings : Settings) (cache : SemanticCache V) (x : Call)
    (e : Encounter C V) : Prop :=
  ∀ prompt response taken,
    .cacheSet prompt response taken ∈ (serve (containerCache settings cache) x e).1 →
    ∀ resolved, x.resolved texts settings = some resolved →
      ((containerCache settings cache).entry prompt response).payload.get "model_version"
        = some (.str (resolved.providerCfg.modelName 2))

/-- Two providers have one tier 2 model when they are one, or the settings name the
models alike. -/
theorem modelName_eq_iff {settings : Settings} {p q : Provider} :
    (settings.ofProvider p).modelName 2 = (settings.ofProvider q).modelName 2 ↔
      p = q ∨ settings.openai.tier2BalancedModel = settings.claude.tier2BalancedModel := by
  cases p <;> cases q <;>
    simp [Settings.ofProvider, ProviderSettings.modelName, eq_comm]

/-- **When the version names the model that answered.**  A call that stores an answer
has to be resolved to the container's default provider, or to a tier 2 model of the same
name. -/
theorem version_names_model_iff (texts : Texts) (settings : Settings) (cache : SemanticCache V)
    (x : Call) (e : Encounter C V) :
    VersionNamesModel texts settings cache x e ↔
      (Completes (containerCache settings cache) x e → Signs (containerCache settings cache) x e →
        (progress x e).text ≠ "" → ∀ name, x.providerName? = some name →
          ChoosesDefault texts settings name ∨
            settings.openai.tier2BalancedModel = settings.claude.tier2BalancedModel) := by
  have hversion : ∀ prompt response, ((containerCache settings cache).entry prompt
      response).payload.get "model_version"
        = some (.str ((settings.ofProvider (resolveDefaultProvider settings)).modelName 2)) := by
    intro prompt response
    rw [← resolveCacheModelVersion_eq]
    rfl
  have hselected : ∀ name key, (settings.resolve texts name key).providerCfg.modelName 2
        = (settings.ofProvider (resolveDefaultProvider settings)).modelName 2 ↔
      ChoosesDefault texts settings name ∨
        settings.openai.tier2BalancedModel = settings.claude.tier2BalancedModel := by
    intro name key
    rw [← selectProvider_eq_default_iff]
    exact modelName_eq_iff
  constructor
  · intro h hcompletes hsigns htext name hname
    obtain ⟨config, hconfig, hprovider⟩ := Option.bind_eq_some_iff.1 hname
    have hset := (cacheSet_mem_serve (containerCache settings cache) x e).2
      ⟨hcompletes, hsigns, htext, rfl, rfl, rfl⟩
    have hresolved : x.resolved texts settings
        = some (settings.resolve texts name config.apiKey) := by
      rw [resolved_eq, hconfig, Option.bind_some, hprovider, Option.map_some]
    have hentry := h _ _ _ hset _ hresolved
    rw [hversion, Option.some.injEq, Json.str.injEq] at hentry
    exact (hselected name config.apiKey).1 hentry.symm
  · intro h prompt response taken hset resolved hresolved
    obtain ⟨hcompletes, hsigns, htext, -⟩ := (cacheSet_mem_serve _ x e).1 hset
    rw [resolved_eq] at hresolved
    obtain ⟨config, hconfig, hmap⟩ := Option.bind_eq_some_iff.1 hresolved
    obtain ⟨name, hprovider, rfl⟩ := Option.map_eq_some_iff.1 hmap
    have hname : x.providerName? = some name := by
      rw [Call.providerName?, hconfig, Option.bind_some, hprovider]
    rw [hversion, (hselected name config.apiKey).2 (h hcompletes hsigns htext name hname)]

/-- The default settings with a key for each provider. -/
def twoKeys : Settings := ⟨openAiSettings (some "sk-0"), claudeSettings (some "sk-ant-0")⟩

/-- A user with a key for Claude. -/
def claudeUser : Call :=
  { tidesCall .chatStream "alice" with userConfig := .stored (some "claude") (some "sk-ant-1") false }

/-- An answer of Claude is stored as one of OpenAI's model. -/
theorem claude_answer_misfiled : ¬ ∀ (settings : Settings) (x : Call) (e : Encounter Unit Unit),
    VersionNamesModel asciiTexts settings plainCache x e := by
  intro h
  have hset : .cacheSet "What makes the tides?" "The moon." true ∈ (serve
      (containerCache twoKeys plainCache) claudeUser
      (smoothEncounter [("final_synthesizer", "The moon.")] [])).1 :=
    .tail _ (.tail _ (.tail _ (.head _)))
  have hentry := h _ _ _ _ _ _ hset _ rfl
  have hname : "gpt-4o" = "claude-3-5-sonnet-20240620" := Json.str.inj (Option.some.inj hentry)
  exact absurd hname (by decide)

end Server
end CognitiveEngine
