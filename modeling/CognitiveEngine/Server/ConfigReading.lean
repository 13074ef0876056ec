/-
# Reading a provider configuration

The two chat endpoints read the record of a user each in its own way, and the graph
resolves what they hand over.  `StreamChat` assigns `use_default_key` only when it has
read a record and raises without one.  `chat_stream_endpoint` goes on with `None` for a
provider where there is none, at which the resolver raises, and raises itself in its handler
of one that is not JSON.

`configReading_iff` says for which entries both get through, and get the same: records
with a provider.
-/

import CognitiveEngine.Server.ProviderConfig

namespace CognitiveEngine
namespace Server

open CognitiveEngine.Graph CognitiveEngine.Llm

/-- What may be under the key of a user: nothing, a text that is not JSON, or the
record of a submission. -/
inductive ConfigEntry where
  | absent
  | notJson
  | written (config : ProviderConfigSubmit)

/-- What the chat endpoints read of it. -/
def ConfigEntry.read : ConfigEntry → UserConfig
  | .absent => .absent
  | .notJson => .unreadable
  | .written config => readDict config.configDict

/-- Without metadata both endpoints come to one configuration, and the resolver to a
provider, all without raising. -/
def ReadsAlike (texts : Texts) (settings : Settings) (entry : ConfigEntry) : Prop :=
  ∃ config, streamChatConfig none none entry.read = some config ∧
    chatStreamConfig entry.read = some config ∧
    ∃ resolved, resolveProviderAndKey texts settings (some (ofRunnableConfig config)) = some resolved

/-- Of a record both endpoints make the same configuration. -/
theorem streamChatConfig_stored (llmProvider apiKey : Option String) (useDefaultKey : Bool) :
    streamChatConfig none none (.stored llmProvider apiKey useDefaultKey)
      = chatStreamConfig (.stored llmProvider apiKey useDefaultKey) := rfl

/-- **When reading a configuration works**, and works alike at both endpoints: exactly
when the entry is a record with a provider. -/
theorem configReading_iff (texts : Texts) (settings : Settings) (entry : ConfigEntry) :
    ReadsAlike texts settings entry ↔
      ∃ config, entry = .written config ∧ (config.default.isSome ∨ config.llmProvider.isSome) := by
  cases entry with
  | absent =>
      refine iff_of_false ?_ ?_
      · rintro ⟨config, hconfig, -⟩
        exact absurd hconfig.symm (Option.some_ne_none config)
      · rintro ⟨config, heq, -⟩
        exact absurd heq (by simp)
  | notJson =>
      refine iff_of_false ?_ ?_
      · rintro ⟨config, hconfig, -⟩
        exact absurd hconfig.symm (Option.some_ne_none config)
      · rintro ⟨config, heq, -⟩
        exact absurd heq (by simp)
  | written config =>
      have hread : (ConfigEntry.written config).read = readDict config.configDict := rfl
      have hprovider : (∃ config', ConfigEntry.written config = .written config' ∧
          (config'.default.isSome ∨ config'.llmProvider.isSome)) ↔
            (config.default.or config.llmProvider).isSome := by
        simp [Option.isSome_or]
      rw [hprovider, ReadsAlike, hread, readDict_configDict, streamChatConfig_stored]
      simp only [chatStreamConfig, Option.some.injEq, ← Option.isSome_iff_exists,
        exists_eq_left', true_and]
      have hname : ((config.default.or config.llmProvider).map RestProvider.name).isSome
          = (config.default.or config.llmProvider).isSome := Option.isSome_map
      rw [resolve_ofRunnableConfig, Option.isSome_map, ← hname]

/-- A user without a record gets an exception from one endpoint. -/
theorem absent_entry_raises : ¬ ∀ (texts : Texts) (settings : Settings) (entry : ConfigEntry),
    ReadsAlike texts settings entry := by
  intro h
  obtain ⟨config, hconfig, -⟩ := h asciiTexts ⟨openAiSettings none, claudeSettings none⟩ .absent
  exact absurd hconfig.symm (Option.some_ne_none config)

end Server
end CognitiveEngine
