/-
# Which provider and which key a request gets

The settings of the two providers (`app/core/settings.py`), and
`_resolve_provider_and_key` (`app/graph/config.py`): the provider a request asks for
if it is supported, else the one the settings have a key for; the key that comes with
the request if there is one, else that of the provider's settings.

`str.lower` is given; on ASCII texts it is Lean's.
-/

import CognitiveEngine.Graph.Environment

namespace CognitiveEngine
namespace Llm

open CognitiveEngine.Graph

/-! ### Providers and settings -/

/-- `SUPPORTED_PROVIDERS`. -/
inductive Provider where
  | openai
  | claude
  deriving DecidableEq

/-- The name of a provider. -/
def Provider.name : Provider → String
  | .openai => "openai"
  | .claude => "claude"

/-- The supported provider of a name. -/
def Provider.ofName? (name : String) : Option Provider :=
  if name = "openai" then some .openai else if name = "claude" then some .claude else none

theorem Provider.ofName?_eq_some {name : String} {p : Provider} :
    Provider.ofName? name = some p ↔ name = p.name := by
  unfold Provider.ofName?
  constructor
  · intro h
    split at h
    · rename_i hname
      obtain rfl := Option.some.inj h
      exact hname
    · split at h
      · rename_i hname
        obtain rfl := Option.some.inj h
        exact hname
      · exact absurd h.symm (Option.some_ne_none p)
  · rintro rfl
    cases p with
    | openai => rfl
    | claude => rfl

theorem Provider.name_inj {p q : Provider} : p.name = q.name ↔ p = q := by
  constructor
  · intro h
    have hp := Provider.ofName?_eq_some.2 h
    rw [Provider.ofName?_eq_some.2 rfl] at hp
    exact Option.some.inj hp
  · rintro rfl
    rfl

/-- The names have one length. -/
theorem Provider.length_name_eq (p q : Provider) : p.name.toList.length = q.name.toList.length := by
  cases p <;> cases q <;> rfl

/-- What `OpenAISettings` and `ClaudeSettings` have for the chat models; the key is a
secret text or `None`. -/
structure ProviderSettings where
  apiKey : Option String
  baseUrl : String
  tier1FastModel : String
  tier2BalancedModel : String
  tier3ReasoningModel : String
  maxCompletionTokens : ℤ
  deriving DecidableEq

/-- `OpenAISettings` with its defaults, and a key. -/
def openAiSettings (apiKey : Option String) : ProviderSettings where
  apiKey := apiKey
  baseUrl := "https://models.inference.ai.azure.com"
  tier1FastModel := "gpt-4o-mini"
  tier2BalancedModel := "gpt-4o"
  tier3ReasoningModel := "o1-mini"
  maxCompletionTokens := 1024

/-- `ClaudeSettings` with its defaults, and a key. -/
def claudeSettings (apiKey : Option String) : ProviderSettings where
  apiKey := apiKey
  baseUrl := "https://api.anthropic.com"
  tier1FastModel := "claude-3-haiku-20240307"
  tier2BalancedModel := "claude-3-5-sonnet-20240620"
  tier3ReasoningModel := "claude-3-opus-20240229"
  maxCompletionTokens := 1024

/-- `settings`, as far as the chat models go. -/
structure Settings where
  openai : ProviderSettings
  claude : ProviderSettings
  deriving DecidableEq

/-- `x if x else None` of a text that may be missing. -/
def truthyText : Option String → Option String
  | some text => if text = "" then none else some text
  | none => none

/-- `bool(settings.….api_key)`: a secret text is true when it is not empty. -/
def ProviderSettings.hasKey (s : ProviderSettings) : Bool := (truthyText s.apiKey).isSome

/-- `_get_provider_settings`. -/
def Settings.ofProvider (settings : Settings) : Provider → ProviderSettings
  | .claude => settings.claude
  | .openai => settings.openai

/-- The model name of a tier. -/
def ProviderSettings.modelName (s : ProviderSettings) (tier : ℤ) : String :=
  if tier = 1 then s.tier1FastModel
  else if tier = 2 then s.tier2BalancedModel
  else s.tier3ReasoningModel

/-! ### The resolver -/

/-- `config["configurable"]`, as far as it selects a model.  The provider may be
missing, or be there as `None`; for the key that is the same. -/
structure Configurable where
  llmProvider : Option (Option String)
  apiKey : Option String

/-- What the resolver reads of a configuration that may be missing altogether. -/
def configurableOf : Option Configurable → Configurable
  | some configurable => configurable
  | none => ⟨none, none⟩

/-- The configuration an endpoint hands to the graph has both entries. -/
def ofRunnableConfig (config : RunnableConfig) : Configurable := ⟨some config.llmProvider, config.apiKey⟩

/-- The functions of the standard library the texts go through. -/
structure Texts where
  /-- `str.lower`. -/
  lower : String → String
  lower_ascii : ∀ text, (∀ c ∈ text.toList, c.toNat < 128) →
    (lower text).toList = text.toList.map Char.toLower

/-- A `str.lower` that changes only the letters of ASCII. -/
def asciiTexts : Texts where
  lower text := String.ofList (text.toList.map Char.toLower)
  lower_ascii _ _ := String.toList_ofList

/-- What `_resolve_provider_and_key` returns. -/
structure Resolved where
  provider : Provider
  providerCfg : ProviderSettings
  apiKeyStr : Option String

/-- The provider the settings have a key for, Claude first. -/
def Settings.fallbackProvider (settings : Settings) : Provider :=
  if settings.claude.hasKey then .claude else .openai

/-- The provider of a name, else the fallback. -/
def Settings.selectProvider (settings : Settings) (texts : Texts) (name : String) : Provider :=
  (Provider.ofName? (texts.lower name)).getD settings.fallbackProvider

/-- What a provider name and a key are resolved to. -/
def Settings.resolve (settings : Settings) (texts : Texts) (name : String)
    (apiKey : Option String) : Resolved :=
  let provider := settings.selectProvider texts name
  let providerCfg := settings.ofProvider provider
  { provider := provider
    providerCfg := providerCfg
    apiKeyStr := (truthyText apiKey).or (truthyText providerCfg.apiKey) }

/-- `_resolve_provider_and_key`; `none` when it raises on `None.lower()`. -/
def resolveProviderAndKey (texts : Texts) (settings : Settings) (config : Option Configurable) :
    Option Resolved :=
  let configurable := configurableOf config
  (configurable.llmProvider.getD (some "")).map fun name =>
    settings.resolve texts name configurable.apiKey

/-- **The resolver raises exactly on a provider that is there as `None`.** -/
theorem resolveProviderAndKey_eq_none_iff {texts : Texts} {settings : Settings}
    {config : Option Configurable} :
    resolveProviderAndKey texts settings config = none ↔
      (configurableOf config).llmProvider = some none := by
  rw [resolveProviderAndKey, Option.map_eq_none_iff]
  cases (configurableOf config).llmProvider with
  | none => simp
  | some provider? => simp

theorem truthyText_eq_some {text? : Option String} {text : String} :
    truthyText text? = some text ↔ text? = some text ∧ text ≠ "" := by
  cases text? with
  | none => simp [truthyText]
  | some text' =>
      rw [truthyText]
      split
      · rename_i hempty
        refine iff_of_false (fun h => Option.some_ne_none _ h.symm) ?_
        rintro ⟨heq, hne⟩
        exact hne ((Option.some.inj heq).symm.trans hempty)
      · rename_i hne
        refine ⟨fun h => ⟨h, Option.some.inj h ▸ hne⟩, And.left⟩

theorem truthyText_truthyText (text? : Option String) :
    truthyText (truthyText text?) = truthyText text? := by
  cases h : truthyText text? with
  | none => rfl
  | some text => exact truthyText_eq_some.2 ⟨rfl, (truthyText_eq_some.1 h).2⟩

/-- A resolved key is never the empty text. -/
theorem truthyText_resolved {texts : Texts} {settings : Settings} {config : Option Configurable}
    {r : Resolved} (h : resolveProviderAndKey texts settings config = some r) :
    truthyText r.apiKeyStr = r.apiKeyStr := by
  obtain ⟨name, -, rfl⟩ := Option.map_eq_some_iff.1 h
  have hor : ∀ x y : Option String, truthyText ((truthyText x).or (truthyText y))
      = (truthyText x).or (truthyText y) := by
    intro x y
    cases hx : truthyText x with
    | none => rw [Option.none_or, truthyText_truthyText]
    | some key => rw [Option.some_or, ← hx, truthyText_truthyText]
  exact hor _ _

/-- What the resolver makes of the configuration of an endpoint. -/
theorem resolve_ofRunnableConfig {texts : Texts} {settings : Settings} {config : RunnableConfig} :
    resolveProviderAndKey texts settings (some (ofRunnableConfig config))
      = config.llmProvider.map fun name => settings.resolve texts name config.apiKey := rfl

/-- A supported name is taken as it is. -/
theorem selectProvider_name {texts : Texts} {settings : Settings} (p : Provider) :
    settings.selectProvider texts p.name = p := by
  have hlower : texts.lower p.name = p.name := by
    rw [← String.toList_inj]
    cases p with
    | openai => exact texts.lower_ascii "openai" (by simp)
    | claude => exact texts.lower_ascii "claude" (by simp)
  rw [Settings.selectProvider, hlower, Provider.ofName?_eq_some.2 rfl]
  rfl

end Llm
end CognitiveEngine
