/-
# The tables of the cached models

What the keys of the three tables can be told apart by, and what their entries are known
to be.  The hashes have a fixed form, so that the key of an instance says all it is made
of; the key of a bound model tells the domain and the model from the rest, and that of a
structured model only its provider.

`LlmFactory.Kept` is the invariant: every entry was asked for, by a request that would
have constructed it, as far as some facets of it go.  `returned_provider` is its first
use: no request for an instance or a structured model gets one of another provider.

`LlmFactory.Firsts` is what the tables have after any requests, when no schema has an
underscore in its name: for each key what the first request for it constructed.
-/

import CognitiveEngine.Llm.Caches
import CognitiveEngine.Machine.JoinedKey

namespace CognitiveEngine
namespace Llm

open CognitiveEngine.Graph Machine

variable {σ : Type}

/-! ### When keys are equal -/

/-- A text that stands for an API key: a digest, or the text for no key. -/
def HashText (text : String) : Prop :=
  text = "no_key" ∨
    (text.toList.length = 12 ∧ ∀ c ∈ text.toList, c ∈ "0123456789abcdef".toList)

theorem HashText.le_length {text : String} (h : HashText text) : 6 ≤ text.toList.length := by
  rcases h with rfl | ⟨hlength, -⟩
  · decide
  · omega

/-- What is around an underscore in such a text is shorter than any of them. -/
theorem HashText.lt_of_joined {text u s : String} (h : HashText text)
    (heq : text = u ++ "_" ++ s) : u.toList.length < 6 ∧ s.toList.length < 6 := by
  rcases h with rfl | ⟨-, hhex⟩
  · have hlength := congrArg (fun text => text.toList.length) heq
    have hnokey : "no_key".toList.length = 6 := rfl
    have hsep : "_".toList.length = 1 := rfl
    simp only [String.toList_append, List.length_append, hnokey, hsep] at hlength
    omega
  · have hmem : '_' ∈ text.toList := by
      rw [heq, String.toList_append, String.toList_append]
      exact List.mem_append_left _ (List.mem_append_right _ (List.mem_singleton_self _))
    exact absurd (hhex _ hmem) (by decide)

/-- Texts that begin with a text for a key are parted alike. -/
theorem hash_inj_left {u s v t : String} (hu : HashText u) (hv : HashText v)
    (h : u ++ "_" ++ s = v ++ "_" ++ t) : u = v ∧ s = t := by
  rcases (text_joined_eq_iff (c := '_') rfl).1 h with heq | ⟨x, hx, -⟩ | ⟨x, hx, -⟩
  · exact heq
  · exact absurd hv.le_length (not_le.2 (hu.lt_of_joined hx).1)
  · exact absurd hu.le_length (not_le.2 (hv.lt_of_joined hx).1)

/-- Texts that end in a text for a key are parted alike. -/
theorem hash_inj_right {u s v t : String} (hs : HashText s) (ht : HashText t)
    (h : u ++ "_" ++ s = v ++ "_" ++ t) : u = v ∧ s = t := by
  rcases (text_joined_eq_iff (c := '_') rfl).1 h with heq | ⟨x, -, hx⟩ | ⟨x, -, hx⟩
  · exact heq
  · exact absurd hs.le_length (not_le.2 (ht.lt_of_joined hx).2)
  · exact absurd ht.le_length (not_le.2 (hs.lt_of_joined hx).2)

namespace LlmFactory

variable (f : LlmFactory σ)

theorem hashText_digest12 (text : String) : HashText (f.digest12 text) :=
  .inr ⟨f.length_digest12 text, f.hex_digest12 text⟩

theorem hashText_apiHash (apiKeyStr : Option String) : HashText (f.apiHash apiKeyStr) := by
  unfold apiHash
  cases truthyText apiKeyStr with
  | none => exact .inl rfl
  | some key => exact f.hashText_digest12 key

/-- **Two keys with one hash** are both missing, or have one digest. -/
theorem digest_of_apiHash {key? key?' : Option String} (hkey : truthyText key? = key?)
    (hkey' : truthyText key?' = key?') (h : f.apiHash key? = f.apiHash key?') :
    (key? = none ∧ key?' = none) ∨ ∃ key key', key? = some key ∧ key?' = some key' ∧
      f.digest12 key = f.digest12 key' := by
  have hlength : ∀ text, f.digest12 text ≠ "no_key" := by
    intro text heq
    have hlength := f.length_digest12 text
    rw [heq] at hlength
    exact absurd hlength (by decide)
  rw [apiHash, apiHash, hkey, hkey'] at h
  cases key? with
  | none =>
      cases key?' with
      | none => exact .inl ⟨rfl, rfl⟩
      | some key' => exact absurd h.symm (hlength key')
  | some key =>
      cases key?' with
      | none => exact absurd h (hlength key)
      | some key' => exact .inr ⟨key, key', rfl, rfl, h⟩

theorem length_settingsFingerprint (settings settings' : Settings) :
    (f.settingsFingerprint settings).toList.length
      = (f.settingsFingerprint settings').toList.length := by
  rw [settingsFingerprint, settingsFingerprint, f.length_digest12, f.length_digest12]

/-- The provider and the model in a key. -/
def namePart (llm : BaseChatModel) : String := llm.provider.name ++ "_" ++ llm.modelName

/-- The provider and the model can be read. -/
theorem namePart_inj {llm llm' : BaseChatModel} (h : namePart llm = namePart llm') :
    llm.provider = llm'.provider ∧ llm.modelName = llm'.modelName := by
  obtain ⟨hprovider, hmodel⟩ := text_joined_inj_left h (Provider.length_name_eq _ _)
  exact ⟨Provider.name_inj.1 hprovider, hmodel⟩

/-- **The key of an instance says** which provider, model, key hash and settings it is
for. -/
theorem keyOf_eq_iff {settings settings' : Settings} {llm llm' : BaseChatModel} :
    f.keyOf settings llm = f.keyOf settings' llm' ↔
      llm.provider = llm'.provider ∧ llm.modelName = llm'.modelName ∧
        f.apiHash llm.apiKey = f.apiHash llm'.apiKey ∧
        f.settingsFingerprint settings = f.settingsFingerprint settings' := by
  constructor
  · intro h
    obtain ⟨hfront, hfingerprint⟩ :=
      text_joined_inj_right h (f.length_settingsFingerprint settings settings')
    obtain ⟨hname, hhash⟩ :=
      hash_inj_right (f.hashText_apiHash llm.apiKey) (f.hashText_apiHash llm'.apiKey) hfront
    obtain ⟨hprovider, hmodel⟩ := namePart_inj hname
    exact ⟨hprovider, hmodel, hhash, hfingerprint⟩
  · rintro ⟨hprovider, hmodel, hhash, hfingerprint⟩
    rw [keyOf, keyOf, buildLlmCacheKey, buildLlmCacheKey, hprovider, hmodel, hhash, hfingerprint]

/-- The hashes and the schema in a key. -/
def hashPart (settings : Settings) (llm : StructuredLlm σ) : String :=
  f.apiHash llm.base.apiKey ++ "_" ++ (f.settingsFingerprint settings ++ "_" ++
    f.schemaName llm.schema)

/-- The key of a structured model is its two parts joined. -/
theorem structuredKeyOf_eq (settings : Settings) (llm : StructuredLlm σ) :
    f.structuredKeyOf settings llm = namePart llm.base ++ "_" ++ f.hashPart settings llm := by
  simp only [structuredKeyOf, keyOf, buildLlmCacheKey, namePart, hashPart, String.append_assoc]

/-- The provider can be read. -/
theorem provider_of_structuredKeyOf {settings settings' : Settings} {llm llm' : StructuredLlm σ}
    (h : f.structuredKeyOf settings llm = f.structuredKeyOf settings' llm') :
    llm.base.provider = llm'.base.provider := by
  have hkey : ∀ (settings : Settings) (llm : StructuredLlm σ), f.structuredKeyOf settings llm
      = llm.base.provider.name ++ "_" ++ (llm.base.modelName ++ "_" ++ f.hashPart settings llm) := by
    intro settings llm
    simp only [structuredKeyOf_eq, namePart, String.append_assoc]
  rw [hkey, hkey] at h
  exact Provider.name_inj.1 (text_joined_inj_left h (Provider.length_name_eq _ _)).1

/-- The name of the schema can be read when no name has an underscore. -/
theorem structuredKeyOf_inj (hschema : ∀ schema, '_' ∉ (f.schemaName schema).toList)
    {settings settings' : Settings} {llm llm' : StructuredLlm σ}
    (h : f.structuredKeyOf settings llm = f.structuredKeyOf settings' llm') :
    f.keyOf settings llm.base = f.keyOf settings' llm'.base ∧
      f.schemaName llm.schema = f.schemaName llm'.schema :=
  text_joined_inj_of_notMem (c := '_') rfl (hschema _) (hschema _) h

/-- The second part can be read. -/
theorem hashPart_inj {settings settings' : Settings} {llm llm' : StructuredLlm σ}
    (h : f.hashPart settings llm = f.hashPart settings' llm') :
    f.apiHash llm.base.apiKey = f.apiHash llm'.base.apiKey ∧
      f.settingsFingerprint settings = f.settingsFingerprint settings' ∧
      f.schemaName llm.schema = f.schemaName llm'.schema := by
  obtain ⟨hhash, hrest⟩ :=
    hash_inj_left (f.hashText_apiHash llm.base.apiKey) (f.hashText_apiHash llm'.base.apiKey) h
  exact ⟨hhash, text_joined_inj_left hrest (f.length_settingsFingerprint settings settings')⟩

/-- **The key of a bound model says** which domain and model together, and which key hash
and settings, it is for. -/
theorem boundCacheKey_eq_iff {settings settings' : Settings} {domain domain' : String}
    {llm llm' : BaseChatModel} :
    f.boundCacheKey settings domain llm = f.boundCacheKey settings' domain' llm' ↔
      domain ++ "_" ++ f.modelLabel llm = domain' ++ "_" ++ f.modelLabel llm' ∧
        f.digest12 (extractApiKeyFromLlm llm) = f.digest12 (extractApiKeyFromLlm llm') ∧
        f.settingsFingerprint settings = f.settingsFingerprint settings' := by
  constructor
  · intro h
    obtain ⟨hfront, hfingerprint⟩ :=
      text_joined_inj_right h (f.length_settingsFingerprint settings settings')
    obtain ⟨hlabel, hhash⟩ :=
      hash_inj_right (f.hashText_digest12 _) (f.hashText_digest12 _) hfront
    exact ⟨hlabel, hhash, hfingerprint⟩
  · rintro ⟨hlabel, hhash, hfingerprint⟩
    rw [boundCacheKey, boundCacheKey, hlabel, hhash, hfingerprint]

end LlmFactory

/-! ### What the tables are asked for -/

namespace LlmFactory

variable (f : LlmFactory σ) {φ : Type*} {a : LlmRequest σ}

/-- The request constructs a model if it finds nothing, to return it or to structure its
output. -/
def Constructs (a : LlmRequest σ) (llm : BaseChatModel) : Prop :=
  f.fresh a = some (.plain llm) ∨ ∃ schema, f.fresh a = some (.structured ⟨llm, schema⟩)

/-- What a request may ask the instance table for. -/
def askInstance (facet : BaseChatModel → φ) (a : LlmRequest σ) : Option (String × φ) :=
  match f.fresh a with
  | some (.plain llm) => some (f.keyOf a.moment.settings llm, facet llm)
  | some (.structured llm) => some (f.keyOf a.moment.settings llm.base, facet llm.base)
  | _ => none

/-- What a request asks the table of structured models for. -/
def askStructured (facet : StructuredLlm σ → φ) (a : LlmRequest σ) : Option (String × φ) :=
  match f.fresh a with
  | some (.structured llm) => some (f.structuredKeyOf a.moment.settings llm, facet llm)
  | _ => none

/-- What a request asks the table of bound models for. -/
def askBound (facet : BoundLlm → φ) (a : LlmRequest σ) : Option (String × φ) :=
  match a.call with
  | .getCachedBoundLlm domain base => some (f.boundCacheKey a.moment.settings domain base,
      facet ⟨base, domainTools a.moment.mcpTools domain⟩)
  | _ => none

variable {f}

theorem Constructs.askInstance {llm : BaseChatModel} (facet : BaseChatModel → φ)
    (h : f.Constructs a llm) :
    f.askInstance facet a = some (f.keyOf a.moment.settings llm, facet llm) := by
  unfold LlmFactory.askInstance
  rcases h with hfresh | ⟨schema, hfresh⟩
  · rw [hfresh]
  · rw [hfresh]

/-- An API key that a model is constructed with is not empty. -/
theorem Constructs.truthyText_apiKey {llm : BaseChatModel} (h : f.Constructs a llm) :
    truthyText llm.apiKey = llm.apiKey := by
  rcases h with hfresh | ⟨schema, hfresh⟩
  · obtain ⟨tier, config, r, -, hr, rfl⟩ := call_of_plain hfresh
    exact truthyText_resolved hr
  · obtain ⟨tier, schema', config, r, -, hr, hllm⟩ := call_of_structured hfresh
    obtain ⟨rfl, -⟩ := StructuredLlm.mk.inj hllm
    exact truthyText_resolved hr

theorem askInstance_eq_some {facet : BaseChatModel → φ} {r : String × φ}
    (h : f.askInstance facet a = some r) :
    ∃ llm, f.Constructs a llm ∧ (f.keyOf a.moment.settings llm, facet llm) = r := by
  unfold LlmFactory.askInstance at h
  split at h
  · rename_i llm hfresh
    exact ⟨llm, .inl hfresh, Option.some.inj h⟩
  · rename_i llm hfresh
    exact ⟨llm.base, .inr ⟨llm.schema, hfresh⟩, Option.some.inj h⟩
  · exact absurd h.symm (Option.some_ne_none r)

theorem askStructured_structured {llm : StructuredLlm σ} (facet : StructuredLlm σ → φ)
    (h : f.fresh a = some (.structured llm)) :
    f.askStructured facet a = some (f.structuredKeyOf a.moment.settings llm, facet llm) := by
  rw [askStructured, h]

theorem askStructured_plain {llm : BaseChatModel} (facet : StructuredLlm σ → φ)
    (h : f.fresh a = some (.plain llm)) : f.askStructured facet a = none := by
  rw [askStructured, h]

/-- A request that does not bind leaves the table of bound models alone. -/
theorem askBound_of_fresh {r : Runnable σ} (facet : BoundLlm → φ) (h : f.fresh a = some r)
    (hr : ∀ llm, r ≠ .bound llm) : f.askBound facet a = none := by
  unfold askBound
  cases hcall : a.call with
  | getLlmInstance tier config => rfl
  | getStructuredLlm tier schema config => rfl
  | getCachedBoundLlm domain base =>
      rw [fresh, hcall] at h
      exact absurd (Option.some.inj h).symm (hr _)

/-- What a request to bind a model constructs, and which tables it asks. -/
theorem ask_of_bound {domain : String} {base : BaseChatModel} {φ₁ φ₂ φ₃ : Type*}
    (facet₁ : BaseChatModel → φ₁) (facet₂ : StructuredLlm σ → φ₂) (facet₃ : BoundLlm → φ₃)
    (h : a.call = .getCachedBoundLlm domain base) :
    f.fresh a = some (.bound ⟨base, domainTools a.moment.mcpTools domain⟩) ∧
      f.askInstance facet₁ a = none ∧ f.askStructured facet₂ a = none ∧
      f.askBound facet₃ a = some (f.boundCacheKey a.moment.settings domain base,
        facet₃ ⟨base, domainTools a.moment.mcpTools domain⟩) := by
  have hfresh : f.fresh a = some (.bound ⟨base, domainTools a.moment.mcpTools domain⟩) := by
    rw [fresh, h]
  refine ⟨hfresh, ?_, ?_, ?_⟩
  · rw [askInstance, hfresh]
  · rw [askStructured, hfresh]
  · rw [askBound, h]

/-- A request that raises asks no table. -/
theorem ask_of_none {φ₁ φ₂ φ₃ : Type*} (facet₁ : BaseChatModel → φ₁)
    (facet₂ : StructuredLlm σ → φ₂) (facet₃ : BoundLlm → φ₃) (h : f.fresh a = none) :
    f.askInstance facet₁ a = none ∧ f.askStructured facet₂ a = none ∧
      f.askBound facet₃ a = none := by
  refine ⟨?_, ?_, ?_⟩
  · rw [askInstance, h]
  · rw [askStructured, h]
  · unfold askBound
    cases hcall : a.call with
    | getLlmInstance tier config => rfl
    | getStructuredLlm tier schema config => rfl
    | getCachedBoundLlm domain base =>
        rw [fresh, hcall] at h
        exact absurd h (Option.some_ne_none _)

theorem askStructured_eq_some {facet : StructuredLlm σ → φ} {r : String × φ} :
    f.askStructured facet a = some r ↔ ∃ llm, f.fresh a = some (.structured llm) ∧
      (f.structuredKeyOf a.moment.settings llm, facet llm) = r := by
  unfold askStructured
  constructor
  · intro h
    split at h
    · rename_i llm hfresh
      exact ⟨llm, hfresh, Option.some.inj h⟩
    · exact absurd h.symm (Option.some_ne_none r)
  · rintro ⟨llm, hfresh, rfl⟩
    rw [hfresh]

theorem askBound_eq_some {facet : BoundLlm → φ} {r : String × φ} (h : f.askBound facet a = some r) :
    ∃ domain base, a.call = .getCachedBoundLlm domain base ∧
      (f.boundCacheKey a.moment.settings domain base,
        facet ⟨base, domainTools a.moment.mcpTools domain⟩) = r := by
  unfold askBound at h
  split at h
  · rename_i domain base hcall
    exact ⟨domain, base, hcall, Option.some.inj h⟩
  · exact absurd h.symm (Option.some_ne_none r)

/-- The four kinds of requests: one that raises, and one for each table. -/
theorem fresh_cases (a : LlmRequest σ) :
    (f.fresh a = none ∧ ∀ caches, f.answer caches a = none) ∨
    (∃ llm, f.fresh a = some (.plain llm)) ∨
    (∃ llm, f.fresh a = some (.structured llm)) ∨
    ∃ domain base, a.call = .getCachedBoundLlm domain base := by
  obtain ⟨m, call⟩ := a
  cases call with
  | getLlmInstance tier config =>
      cases hr : resolveProviderAndKey f.toTexts m.settings config with
      | none =>
          refine .inl ⟨?_, fun caches => ?_⟩
          · exact Option.map_eq_none_iff.2 hr
          · refine Option.map_eq_none_iff.2 ?_
            rw [getLlmInstance, hr]
            rfl
      | some r => exact .inr (.inl ⟨_, Option.map_eq_some_iff.2 ⟨r, hr, rfl⟩⟩)
  | getStructuredLlm tier schema config =>
      cases hr : resolveProviderAndKey f.toTexts m.settings config with
      | none =>
          refine .inl ⟨?_, fun caches => ?_⟩
          · exact Option.map_eq_none_iff.2 hr
          · refine Option.map_eq_none_iff.2 ?_
            rw [getStructuredLlm, hr]
            rfl
      | some r => exact .inr (.inr (.inl ⟨_, Option.map_eq_some_iff.2 ⟨r, hr, rfl⟩⟩))
  | getCachedBoundLlm domain base => exact .inr (.inr (.inr ⟨domain, base, rfl⟩))

end LlmFactory

/-! ### What a request does to the tables -/

namespace LlmFactory

variable {f : LlmFactory σ} {φ : Type*} (caches : LlmCaches σ) (a : LlmRequest σ)

/-- A structured model is looked up like the others. -/
theorem answer_of_structured {llm : StructuredLlm σ} (h : f.fresh a = some (.structured llm)) :
    (f.answer caches a).map Prod.fst
        = some (.structured (caches.structured.get (f.structuredKeyOf a.moment.settings llm)
          ⟨caches.instances.get (f.keyOf a.moment.settings llm.base) llm.base, llm.schema⟩)) ∧
      (f.step caches a).structured
        = caches.structured.fill (f.structuredKeyOf a.moment.settings llm)
          ⟨caches.instances.get (f.keyOf a.moment.settings llm.base) llm.base, llm.schema⟩ := by
  cases hfound : caches.structured (f.structuredKeyOf a.moment.settings llm) with
  | some found =>
      rw [Memo.get_of_some hfound, Memo.fill_of_some hfound, step_of_answer (answer_of_hit h hfound),
        answer_of_hit h hfound]
      exact ⟨rfl, rfl⟩
  | none =>
      rw [Memo.get_of_none hfound, step_of_answer (answer_of_miss h hfound),
        answer_of_miss h hfound]
      exact ⟨rfl, rfl⟩

/-- The instance table: left alone, filled, or left alone because the structured model
was there. -/
theorem step_instances (facet : BaseChatModel → φ) :
    (f.askInstance facet a = none ∧ (f.step caches a).instances = caches.instances) ∨
    (∃ llm, f.Constructs a llm ∧ (f.step caches a).instances
      = caches.instances.fill (f.keyOf a.moment.settings llm) llm) ∨
    ∃ llm found, f.fresh a = some (.structured llm) ∧
      caches.structured (f.structuredKeyOf a.moment.settings llm) = some found ∧
      (f.step caches a).instances = caches.instances := by
  rcases fresh_cases a with ⟨hfresh, hnone⟩ | ⟨llm, hfresh⟩ | ⟨llm, hfresh⟩ | ⟨domain, base, hcall⟩
  · refine .inl ⟨(ask_of_none facet StructuredLlm.base BoundLlm.base hfresh).1, ?_⟩
    rw [step_of_none (hnone caches)]
  · refine .inr (.inl ⟨llm, .inl hfresh, ?_⟩)
    rw [step_of_answer (answer_of_plain caches hfresh)]
  · cases hfound : caches.structured (f.structuredKeyOf a.moment.settings llm) with
    | some found =>
        refine .inr (.inr ⟨llm, found, hfresh, hfound, ?_⟩)
        rw [step_of_answer (answer_of_hit hfresh hfound)]
    | none =>
        refine .inr (.inl ⟨llm.base, .inr ⟨llm.schema, hfresh⟩, ?_⟩)
        rw [step_of_answer (answer_of_miss hfresh hfound)]
  · refine .inl ⟨(ask_of_bound facet StructuredLlm.base BoundLlm.base hcall).2.1, ?_⟩
    rw [step_of_answer (answer_of_bound caches hcall)]

/-- The table of structured models: left alone or filled. -/
theorem step_structured (facet : StructuredLlm σ → φ) :
    (f.askStructured facet a = none ∧ (f.step caches a).structured = caches.structured) ∨
    ∃ llm, f.fresh a = some (.structured llm) := by
  rcases fresh_cases a with ⟨hfresh, hnone⟩ | ⟨llm, hfresh⟩ | ⟨llm, hfresh⟩ | ⟨domain, base, hcall⟩
  · refine .inl ⟨(ask_of_none BaseChatModel.provider facet BoundLlm.base hfresh).2.1, ?_⟩
    rw [step_of_none (hnone caches)]
  · refine .inl ⟨askStructured_plain _ hfresh, ?_⟩
    rw [step_of_answer (answer_of_plain caches hfresh)]
  · exact .inr ⟨llm, hfresh⟩
  · refine .inl ⟨(ask_of_bound BaseChatModel.provider facet BoundLlm.base hcall).2.2.1, ?_⟩
    rw [step_of_answer (answer_of_bound caches hcall)]

/-- The table of bound models: left alone or filled. -/
theorem step_bound (facet : BoundLlm → φ) :
    (f.askBound facet a = none ∧ (f.step caches a).bound = caches.bound) ∨
    ∃ domain base, a.call = .getCachedBoundLlm domain base ∧ (f.step caches a).bound
      = caches.bound.fill (f.boundCacheKey a.moment.settings domain base)
        ⟨base, domainTools a.moment.mcpTools domain⟩ := by
  rcases fresh_cases a with ⟨hfresh, hnone⟩ | ⟨llm, hfresh⟩ | ⟨llm, hfresh⟩ | ⟨domain, base, hcall⟩
  · refine .inl ⟨(ask_of_none BaseChatModel.provider StructuredLlm.base facet hfresh).2.2, ?_⟩
    rw [step_of_none (hnone caches)]
  · refine .inl ⟨askBound_of_fresh _ hfresh (by simp), ?_⟩
    rw [step_of_answer (answer_of_plain caches hfresh)]
  · refine .inl ⟨askBound_of_fresh _ hfresh (by simp), ?_⟩
    cases hfound : caches.structured (f.structuredKeyOf a.moment.settings llm) with
    | some found => rw [step_of_answer (answer_of_hit hfresh hfound)]
    | none => rw [step_of_answer (answer_of_miss hfresh hfound)]
  · refine .inr ⟨domain, base, hcall, ?_⟩
    rw [step_of_answer (answer_of_bound caches hcall)]

end LlmFactory

/-! ### What the tables have -/

namespace LlmFactory

variable {f : LlmFactory σ} {φ₁ φ₂ φ₃ : Type*} {facet₁ : BaseChatModel → φ₁}
  {facet₂ : StructuredLlm σ → φ₂} {facet₃ : BoundLlm → φ₃} {before : List (LlmRequest σ)}
  {caches : LlmCaches σ} {a : LlmRequest σ}

/-- What is known of the tables, seen through facets of their entries, after requests
that were answered with the facets they asked for.  A structured model that is found
leaves the instance table alone, so that one may miss some of what was asked. -/
structure Kept (f : LlmFactory σ) (facet₁ : BaseChatModel → φ₁) (facet₂ : StructuredLlm σ → φ₂)
    (facet₃ : BoundLlm → φ₃) (before : List (LlmRequest σ)) (caches : LlmCaches σ) : Prop where
  instances : caches.instances.From facet₁ (askedBy (f.askInstance facet₁) before)
  structured : caches.structured.From facet₂ (askedBy (f.askStructured facet₂) before)
  covered : caches.structured.Covers facet₂ (askedBy (f.askStructured facet₂) before)
  bound : caches.bound.From facet₃ (askedBy (f.askBound facet₃) before)

theorem Kept.empty : f.Kept facet₁ facet₂ facet₃ [] .empty where
  instances key a h := absurd h.symm (Option.some_ne_none a)
  structured key a h := absurd h.symm (Option.some_ne_none a)
  covered := by
    rw [askedBy_nil]
    exact Memo.covers_empty _
  bound key a h := absurd h.symm (Option.some_ne_none a)

/-- **A request that is answered as it should be leaves the tables in order.** -/
theorem Kept.step (hkept : f.Kept facet₁ facet₂ facet₃ before caches)
    (hinstance : ∀ llm, f.Constructs a llm →
      facet₁ (caches.instances.get (f.keyOf a.moment.settings llm) llm) = facet₁ llm)
    (hstructured : ∀ llm r, f.fresh a = some (.structured llm) →
      (f.answer caches a).map Prod.fst = some (.structured r) → facet₂ r = facet₂ llm)
    (hbound : ∀ domain base, a.call = .getCachedBoundLlm domain base →
      facet₃ (caches.bound.get (f.boundCacheKey a.moment.settings domain base)
        ⟨base, domainTools a.moment.mcpTools domain⟩)
        = facet₃ ⟨base, domainTools a.moment.mcpTools domain⟩) :
    f.Kept facet₁ facet₂ facet₃ (before ++ [a]) (f.step caches a) := by
  refine ⟨?_, ?_, ?_, ?_⟩
  · rcases step_instances caches a facet₁ with ⟨hask, hstep⟩ | ⟨llm, hllm, hstep⟩ |
      ⟨llm, found, hfresh, -, hstep⟩
    · rw [askedBy_append_none hask, hstep]
      exact hkept.instances
    · rw [askedBy_append_some (hllm.askInstance _), hstep]
      exact hkept.instances.fill (hinstance llm hllm)
    · rw [askedBy_append_some (Constructs.askInstance _ (.inr ⟨llm.schema, hfresh⟩)), hstep]
      exact hkept.instances.mono (Set.subset_insert _ _)
  · rcases step_structured caches a facet₂ with ⟨hask, hstep⟩ | ⟨llm, hfresh⟩
    · rw [askedBy_append_none hask, hstep]
      exact hkept.structured
    · obtain ⟨hanswer, hstep⟩ := answer_of_structured caches a hfresh
      rw [askedBy_append_some (askStructured_structured _ hfresh), hstep]
      exact hkept.structured.fill (hstructured llm _ hfresh hanswer)
  · rcases step_structured caches a facet₂ with ⟨hask, hstep⟩ | ⟨llm, hfresh⟩
    · rw [askedBy_append_none hask, hstep]
      exact hkept.covered
    · obtain ⟨hanswer, hstep⟩ := answer_of_structured caches a hfresh
      rw [askedBy_append_some (askStructured_structured _ hfresh), hstep]
      exact hkept.covered.fill (hstructured llm _ hfresh hanswer)
  · rcases step_bound caches a facet₃ with ⟨hask, hstep⟩ | ⟨domain, base, hcall, hstep⟩
    · rw [askedBy_append_none hask, hstep]
      exact hkept.bound
    · rw [askedBy_append_some (ask_of_bound facet₁ facet₂ facet₃ hcall).2.2.2, hstep]
      exact hkept.bound.fill (hbound domain base hcall)

end LlmFactory

/-! ### Whose models are returned -/

namespace LlmFactory

variable {f : LlmFactory σ} {before : List (LlmRequest σ)} {caches : LlmCaches σ} {a : LlmRequest σ}

/-- What is known of the providers in the tables, those of bound models apart. -/
abbrev ProvidersKept (f : LlmFactory σ) (before : List (LlmRequest σ)) (caches : LlmCaches σ) :
    Prop :=
  f.Kept BaseChatModel.provider (fun llm => llm.base.provider) (fun _ => ()) before caches

theorem ProvidersKept.get_instance (hkept : f.ProvidersKept before caches) (llm : BaseChatModel) :
    (caches.instances.get (f.keyOf a.moment.settings llm) llm).provider = llm.provider := by
  refine hkept.instances.get fun provider hprovider => ?_
  obtain ⟨b, -, hask⟩ := hprovider
  obtain ⟨llm', -, heq⟩ := askInstance_eq_some hask
  obtain ⟨hkeys, rfl⟩ := Prod.mk.inj heq
  exact (f.keyOf_eq_iff.1 hkeys).1

/-- An answer has the provider of the model that would be constructed. -/
theorem ProvidersKept.answer_provider (hkept : f.ProvidersKept before caches) {made r : Runnable σ}
    (hfresh : f.fresh a = some made) (hmade : ∀ llm, made ≠ .bound llm)
    (hanswer : (f.answer caches a).map Prod.fst = some r) :
    r.base.provider = made.base.provider := by
  rcases fresh_cases a with ⟨hnone, -⟩ | ⟨llm, hnew⟩ | ⟨llm, hnew⟩ | ⟨domain, base, hcall⟩
  · exact absurd (hfresh.symm.trans hnone) (Option.some_ne_none made)
  · obtain rfl := Option.some.inj (hfresh.symm.trans hnew)
    rw [answer_of_plain caches hnew] at hanswer
    obtain rfl := Option.some.inj hanswer
    rw [Runnable.base_plain, Runnable.base_plain]
    exact hkept.get_instance llm
  · obtain rfl := Option.some.inj (hfresh.symm.trans hnew)
    obtain ⟨hstructured, -⟩ := answer_of_structured caches a hnew
    obtain rfl := Option.some.inj (hstructured.symm.trans hanswer)
    have hmade := hkept.get_instance (a := a) llm.base
    refine (hkept.structured.get fun provider hprovider => ?_).trans hmade
    obtain ⟨b, -, hask⟩ := hprovider
    obtain ⟨llm', -, heq⟩ := askStructured_eq_some.1 hask
    obtain ⟨hkeys, rfl⟩ := Prod.mk.inj heq
    exact (f.provider_of_structuredKeyOf hkeys).trans hmade.symm
  · obtain ⟨hnew, -⟩ := ask_of_bound BaseChatModel.provider
      (fun llm : StructuredLlm σ => llm.base.provider) (fun _ => ()) hcall
    exact absurd (Option.some.inj (hfresh.symm.trans hnew)) (hmade _)

theorem ProvidersKept.step (hkept : f.ProvidersKept before caches) (a : LlmRequest σ) :
    f.ProvidersKept (before ++ [a]) (f.step caches a) := by
  refine Kept.step hkept (fun llm _ => hkept.get_instance llm) (fun llm r hfresh hanswer => ?_)
    fun domain base hcall => rfl
  exact hkept.answer_provider hfresh (by simp) hanswer

/-- After any requests. -/
theorem providersKept_foldl (requests : List (LlmRequest σ)) :
    f.ProvidersKept requests (requests.foldl f.step .empty) := by
  induction requests using List.reverseRecOn with
  | nil => exact Kept.empty
  | append_singleton requests a ih =>
      rw [List.foldl_append]
      exact ih.step a

/-- **No request for an instance or a structured model gets one of another provider**,
whatever was requested before. -/
theorem returned_provider (requests : List (LlmRequest σ)) {made r : Runnable σ}
    (hfresh : f.fresh a = some made) (hmade : ∀ llm, made ≠ .bound llm)
    (hreturned : f.returned requests a = some r) : r.base.provider = made.base.provider :=
  (providersKept_foldl requests).answer_provider hfresh hmade hreturned

end LlmFactory

/-! ### What was asked for first -/

namespace LlmFactory

variable (f : LlmFactory σ)

/-- What the first request for an instance with a key constructed. -/
def firstInstance (before : List (LlmRequest σ)) (key : String) : Option BaseChatModel :=
  (before.filterMap (f.askInstance id)).lookup key

/-- What the first request for a bound model with a key bound. -/
def firstBound (before : List (LlmRequest σ)) (key : String) : Option BoundLlm :=
  (before.filterMap (f.askBound id)).lookup key

/-- **What the tables have**: what was asked for first; and a structured model was made of the
instance that is under the key of its instance. -/
structure Firsts (before : List (LlmRequest σ)) (caches : LlmCaches σ) : Prop where
  instances : caches.instances.HasFirst (before.filterMap (f.askInstance id))
  structured : ∀ settings llm found, caches.structured (f.structuredKeyOf settings llm) = some found →
    caches.instances (f.keyOf settings llm.base) = some found.base
  bound : caches.bound.HasFirst (before.filterMap (f.askBound id))

variable {f} {before : List (LlmRequest σ)} {caches : LlmCaches σ} {a : LlmRequest σ}

theorem firsts_empty : f.Firsts [] .empty where
  instances _ := rfl
  structured _ _ found h := absurd h.symm (Option.some_ne_none found)
  bound _ := rfl

/-- One request more. -/
theorem Firsts.step (h : f.Firsts before caches)
    (hschema : ∀ schema, '_' ∉ (f.schemaName schema).toList) (a : LlmRequest σ) :
    f.Firsts (before ++ [a]) (f.step caches a) := by
  rcases fresh_cases a with ⟨hfresh, hnone⟩ | ⟨llm, hfresh⟩ | ⟨llm, hfresh⟩ | ⟨domain, base, hcall⟩
  · obtain ⟨h₁, -, h₃⟩ := ask_of_none id (id : StructuredLlm σ → _) id hfresh
    rw [step_of_none (hnone caches)]
    constructor
    · rw [filterMap_append_none h₁]
      exact h.instances
    · exact h.structured
    · rw [filterMap_append_none h₃]
      exact h.bound
  · have h₁ := Constructs.askInstance id (f := f) (.inl hfresh)
    have h₃ : f.askBound id a = none := askBound_of_fresh _ hfresh (by simp)
    rw [step_of_answer (answer_of_plain caches hfresh)]
    constructor
    · rw [filterMap_append_some h₁]
      exact h.instances.fill
    · exact fun settings llm' found hfound => Memo.fill_eq_some (h.structured _ _ _ hfound) _
    · rw [filterMap_append_none h₃]
      exact h.bound
  · have h₁ := Constructs.askInstance id (f := f) (.inr ⟨llm.schema, hfresh⟩)
    have h₃ : f.askBound id a = none := askBound_of_fresh _ hfresh (by simp)
    cases hfound : caches.structured (f.structuredKeyOf a.moment.settings llm) with
    | some found =>
        rw [step_of_answer (answer_of_hit hfresh hfound)]
        constructor
        · -- The instance is there, since the structured model was made of it.
          rw [filterMap_append_some h₁]
          refine h.instances.append_of_isSome ?_
          rw [h.structured _ _ _ hfound]
          rfl
        · exact h.structured
        · rw [filterMap_append_none h₃]
          exact h.bound
    | none =>
        rw [step_of_answer (answer_of_miss hfresh hfound)]
        constructor
        · rw [filterMap_append_some h₁]
          exact h.instances.fill
        · intro settings llm' found hfound'
          by_cases hkey : f.structuredKeyOf settings llm' = f.structuredKeyOf a.moment.settings llm
          · dsimp only at hfound' ⊢
            rw [hkey, Memo.fill_self, Memo.get_of_none hfound] at hfound'
            obtain rfl := Option.some.inj hfound'
            rw [(f.structuredKeyOf_inj hschema hkey).1, Memo.fill_self]
          · dsimp only at hfound'
            rw [Memo.fill_of_ne hkey] at hfound'
            exact Memo.fill_eq_some (h.structured _ _ _ hfound') _
        · rw [filterMap_append_none h₃]
          exact h.bound
  · obtain ⟨-, h₁, -, h₃⟩ := ask_of_bound id (id : StructuredLlm σ → _) id hcall
    rw [step_of_answer (answer_of_bound caches hcall)]
    constructor
    · rw [filterMap_append_none h₁]
      exact h.instances
    · exact h.structured
    · rw [filterMap_append_some h₃]
      exact h.bound.fill

/-- **After any requests** the tables have what was asked for first. -/
theorem firsts_foldl (hschema : ∀ schema, '_' ∉ (f.schemaName schema).toList)
    (before : List (LlmRequest σ)) : f.Firsts before (before.foldl f.step .empty) := by
  induction before using List.reverseRecOn with
  | nil => exact firsts_empty
  | append_singleton before a ih =>
      rw [List.foldl_append]
      exact ih.step hschema a

/-- **A request for a model gets** what was constructed first under its key. -/
theorem returned_base (hschema : ∀ schema, '_' ∉ (f.schemaName schema).toList)
    (before : List (LlmRequest σ)) {llm : BaseChatModel} (h : f.Constructs a llm) :
    ∃ r, f.returned before a = some r ∧
      r.base = (f.firstInstance before (f.keyOf a.moment.settings llm)).getD llm := by
  have hfirsts := firsts_foldl (f := f) hschema before
  have hget : (before.foldl f.step .empty).instances.get (f.keyOf a.moment.settings llm) llm
      = (f.firstInstance before (f.keyOf a.moment.settings llm)).getD llm := hfirsts.instances.get
  rcases h with hfresh | ⟨schema, hfresh⟩
  · refine ⟨.plain _, ?_, hget⟩
    rw [returned, answer_of_plain _ hfresh]
    rfl
  · obtain ⟨hanswer, -⟩ := answer_of_structured (before.foldl f.step .empty) a hfresh
    refine ⟨_, hanswer, ?_⟩
    rw [← hget, Runnable.base_structured]
    cases hfound : (before.foldl f.step .empty).structured
        (f.structuredKeyOf a.moment.settings ⟨llm, schema⟩) with
    | none => rw [Memo.get_of_none hfound]
    | some found =>
        rw [Memo.get_of_some hfound, Memo.get_of_some (hfirsts.structured _ _ _ hfound)]

/-- **A request to bind gets** what was bound first under its key. -/
theorem returned_bound (hschema : ∀ schema, '_' ∉ (f.schemaName schema).toList)
    (before : List (LlmRequest σ)) {domain : String} {base : BaseChatModel}
    (h : a.call = .getCachedBoundLlm domain base) :
    f.returned before a = some (.bound ((f.firstBound before
      (f.boundCacheKey a.moment.settings domain base)).getD
        ⟨base, domainTools a.moment.mcpTools domain⟩)) := by
  rw [returned, answer_of_bound _ h, (firsts_foldl (f := f) hschema before).bound.get]
  rfl

/-- A model that was constructed under a key has the provider and the name in it, and an API
key with one hash. -/
theorem firstInstance_eq_some {settings : Settings} {llm made : BaseChatModel}
    (h : f.firstInstance before (f.keyOf settings llm) = some made) :
    made.provider = llm.provider ∧ made.modelName = llm.modelName ∧
      f.apiHash made.apiKey = f.apiHash llm.apiKey ∧ truthyText made.apiKey = made.apiKey := by
  obtain ⟨b, -, hask⟩ := exists_of_lookup h
  obtain ⟨made', hmade, heq⟩ := askInstance_eq_some hask
  obtain ⟨hkey, rfl⟩ := Prod.mk.inj heq
  obtain ⟨hprovider, hmodel, hhash, -⟩ := f.keyOf_eq_iff.1 hkey
  exact ⟨hprovider, hmodel, hhash, hmade.truthyText_apiKey⟩

/-- **An instance that is found is bound under the key of the one that would be
constructed.** -/
theorem boundCacheKey_firstInstance {settings : Settings} {llm made : BaseChatModel}
    (hllm : truthyText llm.apiKey = llm.apiKey)
    (h : f.firstInstance before (f.keyOf settings llm) = some made) (domain : String) :
    f.boundCacheKey settings domain made = f.boundCacheKey settings domain llm := by
  obtain ⟨hprovider, hmodel, hhash, hmade⟩ := firstInstance_eq_some h
  refine f.boundCacheKey_eq_iff.2 ⟨?_, ?_, rfl⟩
  · rw [modelLabel, modelLabel, hprovider, hmodel]
  · rw [extractApiKeyFromLlm, extractApiKeyFromLlm]
    rcases f.digest_of_apiHash hmade hllm hhash with ⟨hkey, hkey'⟩ | ⟨key, key', hkey, hkey', hdigest⟩
    · rw [hkey, hkey']
    · rw [hkey, hkey', Option.getD_some, Option.getD_some, hdigest]

end LlmFactory

end Llm
end CognitiveEngine
