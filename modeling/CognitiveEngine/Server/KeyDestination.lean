/-
# Where the key of a user goes

A user stores a key together with the provider it is for.  `submit_provider_config`
takes five providers and the graph supports two of them; `StreamChat` takes the provider
and the key from the metadata or from the record, each on its own; and the resolver
falls back on a provider of its own for a name it does not support.

`key_stays_iff` says when a stored key is used with its provider only: it has to be a
supported one, and a provider in the metadata has to come out at it too.
-/

import CognitiveEngine.Llm.Tables
import CognitiveEngine.Machine.LastWrite
import CognitiveEngine.Server.ProviderConfig

namespace CognitiveEngine
namespace Server

open CognitiveEngine.Graph CognitiveEngine.Llm Machine

variable {σ : Type}

/-! ### Submissions and their records -/

/-- What happens to the records: a submission at the REST endpoint, or the record of a
user expires. -/
inductive ConfigEvent where
  | submit (config : ProviderConfigSubmit)
  | expire (userId : String)

/-- The user whose record it is about. -/
def ConfigEvent.userId : ConfigEvent → String
  | .submit config => config.userId
  | .expire userId => userId

/-- The submission passes both checks. -/
def ProviderConfigSubmit.accepted (config : ProviderConfigSubmit) : Bool :=
  !decide (config.llmProvider.isSome ∧ config.default.isSome) &&
    !decide (config.llmProvider.isSome ∧ truthyText config.apiKey = none)

/-- A provider of its own comes with a key. -/
theorem ProviderConfigSubmit.exists_key {config : ProviderConfigSubmit} {provider : RestProvider}
    (haccepted : config.accepted) (hprovider : config.llmProvider = some provider) :
    ∃ key, config.apiKey = some key ∧ key ≠ "" := by
  unfold ProviderConfigSubmit.accepted at haccepted
  cases htext : truthyText config.apiKey with
  | none => exact absurd haccepted (by simp [hprovider, htext])
  | some key => exact ⟨key, truthyText_eq_some.1 htext⟩

/-- The event changes the record of its user. -/
def ConfigEvent.writes : ConfigEvent → Bool
  | .submit config => config.accepted
  | .expire _ => true

/-- The record an event leaves. -/
def ConfigEvent.record : ConfigEvent → Option ConfigDict
  | .submit config => some config.configDict
  | .expire _ => none

/-- The records after an event. -/
def ConfigStore.handle (store : ConfigStore) : ConfigEvent → ConfigStore
  | .submit config => (submitProviderConfig (some store) config).2.getD store
  | .expire userId => fun key => if key = userConfigKey userId then none else store key

/-- The records after some events, at first none. -/
def storeAfter (events : List ConfigEvent) : ConfigStore :=
  events.foldl ConfigStore.handle fun _ => none

/-- A submission that is accepted is written, any other leaves the records alone. -/
theorem handle_submit (store : ConfigStore) (config : ProviderConfigSubmit) :
    store.handle (.submit config)
      = if config.accepted then store.setex (userConfigKey config.userId) config.configDict
        else store := by
  unfold ConfigStore.handle submitProviderConfig ProviderConfigSubmit.accepted
  dsimp only
  by_cases hboth : config.llmProvider.isSome ∧ config.default.isSome
  · rw [if_pos hboth, decide_eq_true hboth]
    rfl
  · rw [if_neg hboth, decide_eq_false hboth]
    by_cases hkey : config.llmProvider.isSome ∧ truthyText config.apiKey = none
    · rw [if_pos hkey, decide_eq_true hkey]
      rfl
    · rw [if_neg hkey, decide_eq_false hkey]
      rfl

theorem handle_of_not_writes {e : ConfigEvent} (h : ¬ e.writes) (store : ConfigStore) :
    store.handle e = store := by
  cases e with
  | submit config =>
      have haccepted : ¬ config.accepted = true := h
      rw [handle_submit, if_neg haccepted]
  | expire userId => exact absurd rfl h

/-- An event that writes decides about the record of its user. -/
theorem handle_self {e : ConfigEvent} (h : e.writes) (store : ConfigStore) :
    store.handle e (userConfigKey e.userId) = e.record := by
  cases e with
  | submit config =>
      have haccepted : config.accepted = true := h
      rw [handle_submit, if_pos haccepted]
      exact if_pos rfl
  | expire userId => exact if_pos rfl

/-- An event leaves the records of other users alone. -/
theorem handle_of_ne {e : ConfigEvent} {userId : String} (h : e.userId ≠ userId)
    (store : ConfigStore) : store.handle e (userConfigKey userId) = store (userConfigKey userId) := by
  have hne : userConfigKey userId ≠ userConfigKey e.userId := fun heq =>
    h (userConfigKey_inj.1 heq).symm
  cases e with
  | submit config =>
      rw [handle_submit]
      split
      · exact if_neg hne
      · rfl
  | expire userId' => exact if_neg hne

/-- **The record of a user** is that of their submission that was accepted last, unless
it has expired. -/
theorem storeAfter_eq_some_iff {events : List ConfigEvent} {userId : String} {dict : ConfigDict} :
    storeAfter events (userConfigKey userId) = some dict ↔
      ∃ config, LastWrite ConfigEvent.userId (events.filter ConfigEvent.writes) (.submit config) ∧
        config.userId = userId ∧ config.configDict = dict := by
  induction events using List.reverseRecOn with
  | nil =>
      refine iff_of_false (fun h => Option.some_ne_none _ h.symm) ?_
      rintro ⟨config, hlast, -⟩
      exact List.not_mem_nil hlast.mem
  | append_singleton events e ih =>
      have hafter : storeAfter (events ++ [e]) = (storeAfter events).handle e := by
        rw [storeAfter, List.foldl_append]
        rfl
      rw [hafter, List.filter_append]
      by_cases hwrites : e.writes
      · have hfilter : [e].filter ConfigEvent.writes = [e] := by
          rw [List.filter_cons_of_pos hwrites, List.filter_nil]
        simp only [hfilter, lastWrite_concat]
        by_cases huser : e.userId = userId
        · obtain rfl := huser
          rw [handle_self hwrites]
          constructor
          · intro h
            cases e with
            | submit config => exact ⟨config, .inl rfl, rfl, Option.some.inj h⟩
            | expire userId => exact absurd h.symm (Option.some_ne_none dict)
          · rintro ⟨config, rfl | ⟨-, hne⟩, hsame, rfl⟩
            · rfl
            · exact absurd hsame.symm hne
        · rw [handle_of_ne huser, ih]
          refine exists_congr fun config => and_congr_left fun hsame => ?_
          have hother : ConfigEvent.submit config ≠ e := by
            rintro rfl
            exact huser hsame.1
          have hne : e.userId ≠ (ConfigEvent.submit config).userId := fun heq =>
            huser (heq.trans hsame.1)
          rw [or_iff_right hother, and_iff_left hne]
      · have hfilter : [e].filter ConfigEvent.writes = [] := by
          rw [List.filter_cons_of_neg hwrites, List.filter_nil]
        rw [handle_of_not_writes hwrites, ih, hfilter, List.append_nil]

/-! ### Whose key a call takes -/

namespace Call

/-- The call with the record its user has in the store. -/
def reading (x : Call) (store : ConfigStore) : Call :=
  { x with userConfig := store.read x.request.userId }

/-- The provider in the metadata of `StreamChat`, if there is one. -/
def sentProvider (x : Call) : Option String :=
  match x.endpoint with
  | .streamChat => truthyText x.providerHeader
  | .chatStream => none

/-- The key in the metadata of `StreamChat`, if there is one. -/
def sentKey (x : Call) : Option String :=
  match x.endpoint with
  | .streamChat => truthyText x.keyHeader
  | .chatStream => none

/-- The provider and the key of the record, when the key that the call hands to the
graph is taken from there. -/
def storedKey (x : Call) : Option (Option String × String) :=
  match x.userConfig with
  | .stored llmProvider apiKey false =>
      match x.sentKey with
      | none => (truthyText apiKey).map fun key => (llmProvider, key)
      | some _ => none
  | _ => none

theorem firstTruthy_eq (a b : Option String) : firstTruthy a b = (truthyText a).or b := by
  cases a with
  | none => rfl
  | some text =>
      by_cases hempty : text = ""
      · rw [firstTruthy, truthyText, if_pos hempty, if_pos hempty, Option.none_or]
      · rw [firstTruthy, truthyText, if_neg hempty, if_neg hempty, Option.some_or]

/-- **A record is merged with the metadata field by field.** -/
theorem config_of_stored {x : Call} {llmProvider apiKey : Option String} {useDefaultKey : Bool}
    (h : x.userConfig = .stored llmProvider apiKey useDefaultKey) :
    x.config = some ⟨x.sentProvider.or llmProvider,
      if useDefaultKey then none else x.sentKey.or apiKey⟩ := by
  unfold config sentProvider sentKey
  rw [h]
  cases x.endpoint with
  | streamChat =>
      dsimp only
      rw [streamChatConfig, firstTruthy_eq, firstTruthy_eq]
  | chatStream => rfl

theorem storedKey_eq_some {x : Call} {llmProvider : Option String} {key : String} :
    x.storedKey = some (llmProvider, key) ↔
      ∃ apiKey, x.userConfig = .stored llmProvider apiKey false ∧ x.sentKey = none ∧
        truthyText apiKey = some key := by
  unfold storedKey
  constructor
  · intro h
    split at h
    · rename_i stored apiKey hstored
      split at h
      · rename_i hsent
        obtain ⟨text, htext, heq⟩ := Option.map_eq_some_iff.1 h
        obtain ⟨rfl, rfl⟩ := Prod.mk.inj heq
        exact ⟨apiKey, hstored, hsent, htext⟩
      · exact absurd h.symm (Option.some_ne_none _)
    · exact absurd h.symm (Option.some_ne_none _)
  · rintro ⟨apiKey, hstored, hsent, htext⟩
    rw [hstored, hsent]
    exact Option.map_eq_some_iff.2 ⟨key, htext, rfl⟩

/-- The key is not the empty text. -/
theorem storedKey_ne {x : Call} {llmProvider : Option String} {key : String}
    (h : x.storedKey = some (llmProvider, key)) : key ≠ "" := by
  obtain ⟨apiKey, -, -, htext⟩ := storedKey_eq_some.1 h
  exact (truthyText_eq_some.1 htext).2

/-- A key that is taken from the record goes with its provider, or with the one of the
metadata. -/
theorem config_of_storedKey {x : Call} {llmProvider : Option String} {key : String}
    (h : x.storedKey = some (llmProvider, key)) :
    x.config = some ⟨x.sentProvider.or llmProvider, some key⟩ := by
  obtain ⟨apiKey, hstored, hsent, htext⟩ := storedKey_eq_some.1 h
  rw [config_of_stored hstored, hsent, Option.none_or, if_neg Bool.false_ne_true,
    (truthyText_eq_some.1 htext).1]

/-- From the record of an accepted submission the key of its provider is taken. -/
theorem storedKey_of_record {x : Call} {config : ProviderConfigSubmit}
    (hstored : x.userConfig = readDict config.configDict) (haccepted : config.accepted)
    {llmProvider : Option String} {key : String} :
    x.storedKey = some (llmProvider, key) ↔
      x.sentKey = none ∧ ∃ provider, config.llmProvider = some provider ∧
        config.apiKey = some key ∧ llmProvider = some provider.name := by
  obtain ⟨userId, llmProvider', apiKey, default⟩ := config
  rw [readDict_configDict] at hstored
  rw [storedKey_eq_some, hstored]
  constructor
  · rintro ⟨apiKey', heq, hsent, htext⟩
    obtain ⟨rfl, rfl, hdefault⟩ := UserConfig.stored.inj heq
    cases default with
    | some provider => exact absurd hdefault.symm Bool.false_ne_true
    | none =>
        cases llmProvider' with
        | none => exact absurd htext.symm (Option.some_ne_none key)
        | some provider =>
            refine ⟨hsent, provider, rfl, ?_, rfl⟩
            obtain ⟨hkey, hne⟩ := truthyText_eq_some.1 htext
            cases apiKey with
            | none => exact absurd (Option.some.inj hkey).symm hne
            | some key' => exact hkey
  · rintro ⟨hsent, provider, rfl, rfl, rfl⟩
    obtain ⟨key', hkey, hne⟩ := ProviderConfigSubmit.exists_key haccepted rfl
    obtain rfl := Option.some.inj hkey
    cases default with
    | some provider' => exact absurd haccepted (by simp [ProviderConfigSubmit.accepted])
    | none => exact ⟨some key, rfl, hsent, truthyText_eq_some.2 ⟨rfl, hne⟩⟩

end Call

/-- **Whose key a call takes**: that of the record in effect, if it has one of its own
and the metadata has none. -/
theorem storedKey_reading_iff {events : List ConfigEvent} {x : Call} {llmProvider : Option String}
    {key : String} :
    (x.reading (storeAfter events)).storedKey = some (llmProvider, key) ↔
      x.sentKey = none ∧ ∃ config provider,
        LastWrite ConfigEvent.userId (events.filter ConfigEvent.writes) (.submit config) ∧
        config.userId = x.request.userId ∧ config.llmProvider = some provider ∧
        config.apiKey = some key ∧ llmProvider = some provider.name := by
  cases hdict : storeAfter events (userConfigKey x.request.userId) with
  | none =>
      have hread : (x.reading (storeAfter events)).userConfig = .absent := read_of_none hdict
      refine iff_of_false (fun h => ?_) ?_
      · obtain ⟨apiKey, hstored, -⟩ := Call.storedKey_eq_some.1 h
        exact absurd (hread.symm.trans hstored) (by simp)
      · rintro ⟨-, config, provider, hlast, huser, -⟩
        have hsome := storeAfter_eq_some_iff.2 ⟨config, hlast, huser, rfl⟩
        exact Option.some_ne_none _ (hsome.symm.trans hdict)
  | some dict =>
      obtain ⟨config, hlast, huser, rfl⟩ := storeAfter_eq_some_iff.1 hdict
      have hread : (x.reading (storeAfter events)).userConfig = readDict config.configDict :=
        read_of_some hdict
      have haccepted : config.accepted = true := (List.mem_filter.1 hlast.mem).2
      rw [Call.storedKey_of_record hread haccepted]
      refine and_congr_right fun _ => ⟨?_, ?_⟩
      · rintro ⟨provider, hprovider, hkey, hname⟩
        exact ⟨config, provider, hlast, huser, hprovider, hkey, hname⟩
      · rintro ⟨config', provider, hlast', huser', hprovider, hkey, hname⟩
        obtain rfl := ConfigEvent.submit.inj (hlast.unique hlast' (huser.trans huser'.symm))
        exact ⟨provider, hprovider, hkey, hname⟩

/-! ### Where a key goes -/

/-- The model is an instance that the graph of a call uses, after any other requests: one
that `get_llm_instance` returns, or that a structured model was made of. -/
def Call.Uses (x : Call) (f : LlmFactory σ) (m : Moment) (requests : List (LlmRequest σ))
    (llm : BaseChatModel) : Prop :=
  ∃ config call, x.config = some config ∧
    ((∃ tier, call = .getLlmInstance tier (some (ofRunnableConfig config))) ∨
      ∃ tier schema, call = .getStructuredLlm tier schema (some (ofRunnableConfig config))) ∧
    (f.returned requests ⟨m, call⟩).map Runnable.base = some llm

/-- A stored key that an instance was constructed with goes to the provider stored with
it. -/
def KeyStays (f : LlmFactory σ) (m : Moment) (x : Call) : Prop :=
  ∀ requests llm, x.Uses f m requests llm → ∀ llmProvider key,
    x.storedKey = some (llmProvider, key) → llm.apiKey = some key →
      llmProvider = some llm.provider.name

/-- A provider in the metadata is resolved to this one: it names it, or it is not
supported and the settings fall back on it. -/
def Call.Selects (x : Call) (texts : Texts) (settings : Settings) (p : Provider) : Prop :=
  ∀ name, x.sentProvider = some name →
    Provider.ofName? (texts.lower name) = some p ∨
      (Provider.ofName? (texts.lower name) = none ∧ settings.fallbackProvider = p)

/-- **When the merged provider is the stored one.** -/
theorem selected_iff {texts : Texts} {settings : Settings} {x : Call} {stored : String} :
    (settings.selectProvider texts (x.sentProvider.getD stored)).name = stored ↔
      ∃ p : Provider, stored = p.name ∧ x.Selects texts settings p := by
  cases hsent : x.sentProvider with
  | none =>
      rw [Option.getD_none]
      constructor
      · intro h
        exact ⟨_, h.symm, fun name hname => absurd (hname.symm.trans hsent) (Option.some_ne_none name)⟩
      · rintro ⟨p, rfl, -⟩
        rw [selectProvider_name]
  | some name =>
      have hselects : ∀ p, x.Selects texts settings p ↔ settings.selectProvider texts name = p := by
        intro p
        have hname : x.Selects texts settings p ↔
            (Provider.ofName? (texts.lower name) = some p ∨
              (Provider.ofName? (texts.lower name) = none ∧ settings.fallbackProvider = p)) := by
          refine ⟨fun h => h name hsent, fun h name' hname' => ?_⟩
          rw [← Option.some.inj (hsent.symm.trans hname')]
          exact h
        rw [hname, Settings.selectProvider]
        cases Provider.ofName? (texts.lower name) with
        | none => simp
        | some q => simp
      rw [Option.getD_some]
      constructor
      · intro h
        exact ⟨_, h.symm, (hselects _).2 rfl⟩
      · rintro ⟨p, rfl, h⟩
        rw [(hselects p).1 h]

section KeyStays

variable {f : LlmFactory σ} {m : Moment} {x : Call} {config : RunnableConfig}

/-- An instance that is used has the provider that the configuration is resolved to. -/
theorem provider_of_uses {requests : List (LlmRequest σ)} {llm : BaseChatModel} {name : String}
    (huses : x.Uses f m requests llm) (hconfig : x.config = some config)
    (hname : config.llmProvider = some name) :
    llm.provider = m.settings.selectProvider f.toTexts name := by
  obtain ⟨config', call, hconfig', hcall, hreturned⟩ := huses
  obtain rfl := Option.some.inj (hconfig.symm.trans hconfig')
  obtain ⟨r, hr, rfl⟩ := Option.map_eq_some_iff.1 hreturned
  have hresolve : resolveProviderAndKey f.toTexts m.settings (some (ofRunnableConfig config))
      = some (m.settings.resolve f.toTexts name config.apiKey) := by
    rw [resolve_ofRunnableConfig, hname, Option.map_some]
  rcases hcall with ⟨tier, rfl⟩ | ⟨tier, schema, rfl⟩
  · exact LlmFactory.returned_provider requests (LlmFactory.fresh_getLlmInstance hresolve tier)
      (by simp) hr
  · exact LlmFactory.returned_provider requests
      (LlmFactory.fresh_getStructuredLlm hresolve tier schema) (by simp) hr

/-- In a new process the first instance is constructed with the key that is handed
over. -/
theorem exists_uses {name key : String} (f : LlmFactory σ) (m : Moment)
    (hconfig : x.config = some ⟨some name, some key⟩) (hkey : key ≠ "") :
    ∃ llm, x.Uses f m [] llm ∧ llm.apiKey = some key := by
  have hresolve : resolveProviderAndKey f.toTexts m.settings
      (some (ofRunnableConfig ⟨some name, some key⟩))
        = some (m.settings.resolve f.toTexts name (some key)) := rfl
  have hreturned : f.returned [] ⟨m, .getLlmInstance 1 (some (ofRunnableConfig ⟨some name, some key⟩))⟩
      = some (.plain ((m.settings.resolve f.toTexts name (some key)).newLlm 1)) := by
    have hanswer := LlmFactory.answer_of_plain .empty (LlmFactory.fresh_getLlmInstance hresolve 1)
    rw [Memo.get_of_none rfl] at hanswer
    exact congrArg (Option.map Prod.fst) hanswer
  refine ⟨_, ⟨_, _, hconfig, .inl ⟨1, rfl⟩, congrArg (Option.map Runnable.base) hreturned⟩, ?_⟩
  have hor : (truthyText (some key)).or
      (truthyText (m.settings.ofProvider (m.settings.selectProvider f.toTexts name)).apiKey)
        = some key := by
    rw [truthyText_eq_some.2 ⟨rfl, hkey⟩, Option.some_or]
  exact hor

/-- The key of a record with a provider goes with that one, or with the one of the
metadata. -/
theorem config_of_record {stored key : String} (h : x.storedKey = some (some stored, key)) :
    ∃ name, x.config = some ⟨some name, some key⟩ ∧ name = x.sentProvider.getD stored := by
  refine ⟨x.sentProvider.getD stored, ?_, rfl⟩
  rw [Call.config_of_storedKey h]
  cases x.sentProvider with
  | none => rfl
  | some name => rfl

/-- **When a stored key stays with its provider.**  Its record has a supported one, and a
provider in the metadata is resolved to it. -/
theorem key_stays_iff (f : LlmFactory σ) (m : Moment) (events : List ConfigEvent) (x : Call) :
    KeyStays f m (x.reading (storeAfter events)) ↔
      ∀ config provider,
        LastWrite ConfigEvent.userId (events.filter ConfigEvent.writes) (.submit config) →
        config.userId = x.request.userId → config.llmProvider = some provider →
        x.sentKey = none →
          ∃ p : Provider, provider.name = p.name ∧ x.Selects f.toTexts m.settings p := by
  have hsent : (x.reading (storeAfter events)).sentProvider = x.sentProvider := rfl
  constructor
  · intro h config provider hlast huser hprovider hkey
    obtain ⟨key, hapiKey, -⟩ :=
      ProviderConfigSubmit.exists_key (List.mem_filter.1 hlast.mem).2 hprovider
    have hstored := storedKey_reading_iff.2
      ⟨hkey, config, provider, hlast, huser, hprovider, hapiKey, rfl⟩
    obtain ⟨name, hconfig, hname⟩ := config_of_record hstored
    rw [hsent] at hname
    obtain ⟨llm, huses, hllm⟩ := exists_uses f m hconfig (Call.storedKey_ne hstored)
    have hstays := h [] llm huses _ key hstored hllm
    rw [provider_of_uses huses hconfig rfl, hname] at hstays
    exact selected_iff.1 (Option.some.inj hstays).symm
  · intro h requests llm huses llmProvider key hstored _
    obtain ⟨hkey, config, provider, hlast, huser, hprovider, -, rfl⟩ :=
      storedKey_reading_iff.1 hstored
    obtain ⟨name, hconfig, hname⟩ := config_of_record hstored
    rw [hsent] at hname
    rw [provider_of_uses huses hconfig rfl, hname,
      selected_iff.2 (h config provider hlast huser hprovider hkey)]

end KeyStays

/-- A key for Gemini, submitted as the endpoint asks for it. -/
def geminiSubmission : ProviderConfigSubmit := ⟨"alice", some .gemini, some "ab.AQ-1", none⟩

/-- A later request of that user. -/
def aliceCall : Call := ⟨.chatStream, ⟨"alice", "s1", "Hello"⟩, none, none, .absent⟩

/-- The key is sent to OpenAI. -/
theorem gemini_key_sent_to_openai : ¬ ∀ (f : LlmFactory String) (m : Moment)
    (events : List ConfigEvent) (x : Call), KeyStays f m (x.reading (storeAfter events)) := by
  intro h
  have hstored : (aliceCall.reading (storeAfter [.submit geminiSubmission])).storedKey
      = some (some "gemini", "ab.AQ-1") := by decide
  have hconfig : (aliceCall.reading (storeAfter [.submit geminiSubmission])).config
      = some ⟨some "gemini", some "ab.AQ-1"⟩ := Call.config_of_storedKey hstored
  have hselected : (⟨openAiSettings none, claudeSettings none⟩ : Settings).selectProvider asciiTexts
      "gemini" = .openai := by decide
  obtain ⟨llm, huses, hkey⟩ := exists_uses (Digests.factory ⟨[], by simp⟩)
    ⟨⟨openAiSettings none, claudeSettings none⟩, []⟩ hconfig (by decide)
  have hprovider : llm.provider = .openai := (provider_of_uses huses hconfig rfl).trans hselected
  have hstays := h _ _ _ _ [] llm huses _ _ hstored hkey
  rw [hprovider] at hstays
  exact absurd hstays (by decide)

end Server
end CognitiveEngine
