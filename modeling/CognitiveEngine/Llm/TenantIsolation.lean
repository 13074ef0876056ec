/-
# Whose key a cached model has

Requests with different API keys share the three tables.  The key of an instance and
that of a bound model end in their hashes, so equal keys have equal hashes, whatever the
model name or the domain is.  In the key of a structured model the name of the schema
comes last: a model name that goes on with an underscore where another ends, and a
schema whose name goes on with what is between them, give the key of another tenant.

`tenants_isolated_iff` is the exact condition: no two requests for structured models
with different API keys are torn in this way.
-/

import CognitiveEngine.Llm.Tables

namespace CognitiveEngine
namespace Llm

open CognitiveEngine.Graph Machine

variable {σ : Type}

/-! ### Whose key -/

/-- The API key of the model. -/
def StructuredLlm.apiKey (llm : StructuredLlm σ) : Option String := llm.base.apiKey

/-- The API key of the model. -/
def BoundLlm.apiKey (llm : BoundLlm) : Option String := llm.base.apiKey

namespace LlmFactory

variable (f : LlmFactory σ)

/-- The API key of a request: the one `_resolve_provider_and_key` resolves, or that of
the model it passes. -/
def ownKey (a : LlmRequest σ) : Option String :=
  match a.call with
  | .getLlmInstance _ config | .getStructuredLlm _ _ config =>
      (resolveProviderAndKey f.toTexts a.moment.settings config).bind Resolved.apiKeyStr
  | .getCachedBoundLlm _ base => base.apiKey

/-- Every request gets a model that was constructed with its own key. -/
def Isolated (requests : List (LlmRequest σ)) : Prop :=
  ∀ before a after, requests = before ++ a :: after → ∀ r, f.returned before a = some r →
    r.base.apiKey = f.ownKey a

/-- Two requests for structured models with different keys have one key in the table:
where the provider and model of one end, those of the other go on. -/
def Torn (a b : LlmRequest σ) : Prop :=
  ∃ llm llm', f.fresh a = some (.structured llm) ∧ f.fresh b = some (.structured llm') ∧
    llm.base.apiKey ≠ llm'.base.apiKey ∧
    (TextOverhangs "_" (namePart llm.base) (f.hashPart a.moment.settings llm)
        (namePart llm'.base) (f.hashPart b.moment.settings llm') ∨
      TextOverhangs "_" (namePart llm'.base) (f.hashPart b.moment.settings llm')
        (namePart llm.base) (f.hashPart a.moment.settings llm))

/-- The keys of some requests: each has one that is not empty, and the digest tells
them apart. -/
structure KeysApart (requests : List (LlmRequest σ)) : Prop where
  resolved : ∀ a ∈ requests, ∃ key, key ≠ "" ∧ f.ownKey a = some key
  digest_inj : ∀ a ∈ requests, ∀ b ∈ requests, ∀ key key', f.ownKey a = some key →
    f.ownKey b = some key' → f.digest12 key = f.digest12 key' → key = key'

variable {f}

/-- What a request would construct has its key. -/
theorem ownKey_of_fresh {a : LlmRequest σ} {r : Runnable σ} (h : f.fresh a = some r) :
    f.ownKey a = r.base.apiKey := by
  obtain ⟨m, call⟩ := a
  cases call with
  | getLlmInstance tier config =>
      obtain ⟨resolved, hresolved, rfl⟩ := Option.map_eq_some_iff.1 h
      exact congrArg (Option.bind · Resolved.apiKeyStr) hresolved
  | getStructuredLlm tier schema config =>
      obtain ⟨resolved, hresolved, rfl⟩ := Option.map_eq_some_iff.1 h
      exact congrArg (Option.bind · Resolved.apiKeyStr) hresolved
  | getCachedBoundLlm domain base =>
      obtain rfl := Option.some.inj h
      rfl

theorem ownKey_of_constructs {a : LlmRequest σ} {llm : BaseChatModel} (h : f.Constructs a llm) :
    f.ownKey a = llm.apiKey :=
  h.elim (fun hfresh => ownKey_of_fresh hfresh) fun ⟨_, hfresh⟩ => ownKey_of_fresh hfresh

/-- Requests whose keys have one hash have one key. -/
theorem KeysApart.eq_of_apiHash {requests : List (LlmRequest σ)} (h : f.KeysApart requests)
    {a b : LlmRequest σ} (ha : a ∈ requests) (hb : b ∈ requests)
    (hhash : f.apiHash (f.ownKey a) = f.apiHash (f.ownKey b)) : f.ownKey a = f.ownKey b := by
  obtain ⟨key, hne, hkey⟩ := h.resolved a ha
  obtain ⟨key', hne', hkey'⟩ := h.resolved b hb
  have hdigest : ∀ text, text ≠ "" → f.apiHash (some text) = f.digest12 text := by
    intro text htext
    rw [apiHash, truthyText, if_neg htext]
  rw [hkey, hkey', hdigest key hne, hdigest key' hne'] at hhash
  rw [hkey, hkey', h.digest_inj a ha b hb key key' hkey hkey' hhash]

/-! ### What the entries have -/

/-- What is known of the tables after requests that got models of their own keys. -/
abbrev KeysKept (f : LlmFactory σ) (before : List (LlmRequest σ)) (caches : LlmCaches σ) : Prop :=
  f.Kept BaseChatModel.apiKey StructuredLlm.apiKey BoundLlm.apiKey before caches

section Step

variable {requests before : List (LlmRequest σ)} {caches : LlmCaches σ} {a : LlmRequest σ}

/-- **The instance table keeps tenants apart.** -/
theorem KeysKept.get_instance (hkept : f.KeysKept before caches)
    (happart : f.KeysApart requests) (hbefore : ∀ b ∈ before, b ∈ requests) (ha : a ∈ requests)
    {llm : BaseChatModel} (hllm : f.Constructs a llm) :
    (caches.instances.get (f.keyOf a.moment.settings llm) llm).apiKey = llm.apiKey := by
  refine hkept.instances.get fun key hkey => ?_
  obtain ⟨b, hb, hask⟩ := hkey
  obtain ⟨llm', hllm', heq⟩ := askInstance_eq_some hask
  obtain ⟨hkeys, rfl⟩ := Prod.mk.inj heq
  have hhash := (f.keyOf_eq_iff.1 hkeys).2.2.1
  rw [← ownKey_of_constructs hllm, ← ownKey_of_constructs hllm'] at hhash ⊢
  exact happart.eq_of_apiHash (hbefore b hb) ha hhash

/-- **So does the table of bound models.** -/
theorem KeysKept.get_bound (hkept : f.KeysKept before caches)
    (happart : f.KeysApart requests) (hbefore : ∀ b ∈ before, b ∈ requests) (ha : a ∈ requests)
    {domain : String} {base : BaseChatModel} (hcall : a.call = .getCachedBoundLlm domain base) :
    (caches.bound.get (f.boundCacheKey a.moment.settings domain base)
      ⟨base, domainTools a.moment.mcpTools domain⟩).apiKey = base.apiKey := by
  have hown : ∀ {b : LlmRequest σ} {domain : String} {base : BaseChatModel},
      b.call = .getCachedBoundLlm domain base → f.ownKey b = base.apiKey := by
    intro b domain base hcall
    rw [ownKey, hcall]
  refine hkept.bound.get fun key hkey => ?_
  obtain ⟨b, hb, hask⟩ := hkey
  obtain ⟨domain', base', hcall', heq⟩ := askBound_eq_some hask
  obtain ⟨hkeys, rfl⟩ := Prod.mk.inj heq
  obtain ⟨apiKey, -, happly⟩ := happart.resolved a ha
  obtain ⟨apiKey', -, happly'⟩ := happart.resolved b (hbefore b hb)
  have hbase : base.apiKey = some apiKey := (hown hcall).symm.trans happly
  have hbase' : base'.apiKey = some apiKey' := (hown hcall').symm.trans happly'
  have hdigest := (f.boundCacheKey_eq_iff.1 hkeys).2.1
  rw [extractApiKeyFromLlm, extractApiKeyFromLlm, hbase, hbase'] at hdigest
  have hsame := happart.digest_inj b (hbefore b hb) a ha apiKey' apiKey happly' happly hdigest
  exact hbase'.trans ((congrArg some hsame).trans hbase.symm)

/-- A request is answered with a model of its own key. -/
def OwnAnswer (f : LlmFactory σ) (caches : LlmCaches σ) (a : LlmRequest σ) : Prop :=
  ∀ r, (f.answer caches a).map Prod.fst = some r → r.base.apiKey = f.ownKey a

theorem ownAnswer_iff {r : Runnable σ} {caches' : LlmCaches σ}
    (h : f.answer caches a = some (r, caches')) :
    f.OwnAnswer caches a ↔ r.base.apiKey = f.ownKey a := by
  rw [OwnAnswer, h]
  exact ⟨fun hown => hown r rfl, fun hown r' hr => Option.some.inj hr ▸ hown⟩

/-- **When an answer has the right key.**  Only a request for a structured model can get
the model of another tenant, and it does when an earlier one had another API key for its
key in the table. -/
theorem KeysKept.ownAnswer_iff (hkept : f.KeysKept before caches)
    (happart : f.KeysApart requests) (hbefore : ∀ b ∈ before, b ∈ requests) (ha : a ∈ requests) :
    f.OwnAnswer caches a ↔ ∀ b ∈ before, AgreeOn (f.askStructured StructuredLlm.apiKey) b a := by
  rcases fresh_cases a with ⟨hfresh, hnone⟩ | ⟨llm, hfresh⟩ | ⟨llm, hfresh⟩ | ⟨domain, base, hcall⟩
  · obtain ⟨-, hask, -⟩ := ask_of_none BaseChatModel.apiKey StructuredLlm.apiKey BoundLlm.apiKey
      hfresh
    refine iff_of_true (fun r hr => ?_) fun b _ => agreeOn_of_none hask b
    rw [hnone] at hr
    exact absurd hr.symm (Option.some_ne_none r)
  · refine iff_of_true ?_ fun b _ => agreeOn_of_none (askStructured_plain _ hfresh) b
    rw [LlmFactory.ownAnswer_iff (answer_of_plain caches hfresh), ownKey_of_fresh hfresh,
      Runnable.base_plain, Runnable.base_plain]
    exact hkept.get_instance happart hbefore ha (.inl hfresh)
  · rw [forall_agreeOn_iff (askStructured_structured _ hfresh),
      ← Memo.get_iff hkept.structured hkept.covered]
    cases hfound : caches.structured (f.structuredKeyOf a.moment.settings llm) with
    | some found =>
        rw [LlmFactory.ownAnswer_iff (answer_of_hit hfresh hfound), ownKey_of_fresh hfresh,
          Memo.get_of_some hfound]
        exact Iff.rfl
    | none =>
        rw [LlmFactory.ownAnswer_iff (answer_of_miss hfresh hfound), ownKey_of_fresh hfresh,
          Memo.get_of_none hfound, Runnable.base_structured, Runnable.base_structured]
        exact iff_of_true (hkept.get_instance happart hbefore ha (.inr ⟨llm.schema, hfresh⟩)) rfl
  · obtain ⟨hfresh, -, hask, -⟩ :=
      ask_of_bound BaseChatModel.apiKey StructuredLlm.apiKey BoundLlm.apiKey hcall
    refine iff_of_true ?_ fun b _ => agreeOn_of_none hask b
    rw [LlmFactory.ownAnswer_iff (answer_of_bound caches hcall), ownKey_of_fresh hfresh,
      Runnable.base_bound, Runnable.base_bound]
    exact hkept.get_bound happart hbefore ha hcall

/-- **A request that is answered with its own key leaves the tables in order.** -/
theorem KeysKept.step (hkept : f.KeysKept before caches) (happart : f.KeysApart requests)
    (hbefore : ∀ b ∈ before, b ∈ requests) (ha : a ∈ requests) (hown : f.OwnAnswer caches a) :
    f.KeysKept (before ++ [a]) (f.step caches a) := by
  refine Kept.step hkept (fun llm hllm => ?_) (fun llm r hfresh hanswer => ?_)
    fun domain base hcall => ?_
  · exact hkept.get_instance happart hbefore ha hllm
  · exact (hown _ hanswer).trans (ownKey_of_fresh hfresh)
  · exact hkept.get_bound happart hbefore ha hcall

end Step

section Isolated

variable {requests : List (LlmRequest σ)}

/-- Tenants are isolated when the table of structured models keeps them apart. -/
theorem isolated_iff_agreeOn (happart : f.KeysApart requests) :
    f.Isolated requests ↔ requests.Pairwise (AgreeOn (f.askStructured StructuredLlm.apiKey)) := by
  have hiso : f.Isolated requests ↔ ∀ before a after, requests = before ++ a :: after →
      f.OwnAnswer (before.foldl f.step .empty) a := Iff.rfl
  have hstart : f.KeysKept [] .empty := Kept.empty
  rw [hiso]
  refine forall_answers_iff hstart (fun before caches a hbefore ha hkept => ?_)
    fun before caches a hbefore ha hkept hown => ?_
  · exact hkept.ownAnswer_iff happart hbefore ha
  · exact hkept.step happart hbefore ha hown

/-- **Two requests are torn** when they have one key in the table of structured models
and different API keys. -/
theorem agreeOn_iff_not_torn (happart : f.KeysApart requests) {a b : LlmRequest σ}
    (ha : a ∈ requests) (hb : b ∈ requests) :
    AgreeOn (f.askStructured StructuredLlm.apiKey) a b ↔ ¬ f.Torn a b := by
  constructor
  · rintro hagree ⟨llm, llm', hfresh, hfresh', hne, hoverhang⟩
    have hkeys : f.structuredKeyOf a.moment.settings llm = f.structuredKeyOf b.moment.settings llm' := by
      rw [f.structuredKeyOf_eq, f.structuredKeyOf_eq, text_joined_eq_iff (c := '_') rfl]
      exact .inr hoverhang
    refine hne (hagree _ _ _ (askStructured_structured _ hfresh) ?_)
    rw [askStructured_structured _ hfresh', hkeys]
    rfl
  · intro htorn key k k' hask hask'
    obtain ⟨llm, hfresh, heq⟩ := askStructured_eq_some.1 hask
    obtain ⟨llm', hfresh', heq'⟩ := askStructured_eq_some.1 hask'
    obtain ⟨rfl, rfl⟩ := Prod.mk.inj heq
    obtain ⟨hkeys, rfl⟩ := Prod.mk.inj heq'
    by_contra hne
    rw [f.structuredKeyOf_eq, f.structuredKeyOf_eq, eq_comm, text_joined_eq_iff (c := '_') rfl]
      at hkeys
    rcases hkeys with ⟨-, hpart⟩ | hoverhang
    · -- The parts are the same, so are the hashes and the keys.
      have hhash := (f.hashPart_inj hpart).1
      have hown : f.ownKey a = llm.base.apiKey := ownKey_of_fresh hfresh
      have hown' : f.ownKey b = llm'.base.apiKey := ownKey_of_fresh hfresh'
      rw [← hown, ← hown'] at hhash
      exact hne (hown.symm.trans ((happart.eq_of_apiHash ha hb hhash).trans hown'))
    · exact htorn ⟨llm, llm', hfresh, hfresh', hne, hoverhang⟩

/-- **When tenants are isolated.**  For requests with keys that the digest tells apart:
each gets a model of its own key, exactly when no two of them are torn. -/
theorem tenants_isolated_iff (happart : f.KeysApart requests) :
    f.Isolated requests ↔ requests.Pairwise fun a b => ¬ f.Torn a b := by
  rw [isolated_iff_agreeOn happart]
  exact List.Pairwise.iff_of_mem fun ha hb => agreeOn_iff_not_torn happart ha hb

end Isolated

end LlmFactory

/-! ### Two tenants -/

/-- The default settings without keys, with a model for tier 1. -/
def tier1Settings (model : String) : Settings :=
  ⟨{ openAiSettings none with tier1FastModel := model }, claudeSettings none⟩

/-- The digests of two keys and of two settings. -/
def tenantDigests : Digests where
  table :=
    [("sk-alice", "099295a3784e"), ("sk-bob", "36c76b48bb2e"),
      (fingerprintText (tier1Settings "gpt-4o-mini"), "01b5ced2d116"),
      (fingerprintText (tier1Settings "gpt-4o-mini_36c76b48bb2e_01b5ced2d116"), "7fff449de34f")]
  hex := by simp

/-- A request for a structured model of tier 1, with a key. -/
def structuredRequest (model schema key : String) : LlmRequest String :=
  ⟨⟨tier1Settings model, []⟩, .getStructuredLlm 1 schema (some ⟨some (some "openai"), some key⟩)⟩

/-- A request of Bob's, for a schema with a telling name. -/
def bobsRequest : LlmRequest String :=
  structuredRequest "gpt-4o-mini" "099295a3784e_7fff449de34f_SupervisorRouterOutput" "sk-bob"

/-- A request of Alice's, for a model with a telling name. -/
def alicesRequest : LlmRequest String :=
  structuredRequest "gpt-4o-mini_36c76b48bb2e_01b5ced2d116" "SupervisorRouterOutput" "sk-alice"

/-- The model that Bob's request constructs. -/
def bobsModel : StructuredLlm String :=
  ⟨⟨.openai, "gpt-4o-mini", some "sk-bob", some "https://models.inference.ai.azure.com", 1024⟩,
    "099295a3784e_7fff449de34f_SupervisorRouterOutput"⟩

/-- The model that Alice's request should get. -/
def alicesModel : StructuredLlm String :=
  ⟨⟨.openai, "gpt-4o-mini_36c76b48bb2e_01b5ced2d116", some "sk-alice",
    some "https://models.inference.ai.azure.com", 1024⟩, "SupervisorRouterOutput"⟩

/-- The digest tells requests with these two keys apart. -/
theorem keysApart_aliceBob {requests : List (LlmRequest String)}
    (h : ∀ a ∈ requests, tenantDigests.factory.ownKey a = some "sk-alice" ∨
      tenantDigests.factory.ownKey a = some "sk-bob") :
    tenantDigests.factory.KeysApart requests where
  resolved a ha := by
    rcases h a ha with hkey | hkey
    · exact ⟨"sk-alice", by decide, hkey⟩
    · exact ⟨"sk-bob", by decide, hkey⟩
  digest_inj a ha b hb key key' hkey hkey' hdigest := by
    have hapart : ∀ x ∈ ["sk-alice", "sk-bob"], ∀ y ∈ ["sk-alice", "sk-bob"],
        tenantDigests.digest12 x = tenantDigests.digest12 y → x = y := by decide
    have hmem : ∀ c ∈ requests, ∀ x, tenantDigests.factory.ownKey c = some x →
        x ∈ ["sk-alice", "sk-bob"] := by
      intro c hc x hx
      rcases h c hc with hown | hown
      · rw [Option.some.inj (hx.symm.trans hown)]
        exact List.mem_cons_self
      · rw [Option.some.inj (hx.symm.trans hown)]
        exact List.mem_cons_of_mem _ (List.mem_singleton_self _)
    exact hapart key (hmem a ha key hkey) key' (hmem b hb key' hkey') hdigest

/-- Each line of the table has a text of its own. -/
theorem nodup_tenantDigests : (tenantDigests.table.map Prod.fst).Nodup := by
  -- The texts are told apart by their lengths.
  have hlength : ∀ model, (fingerprintText (tier1Settings model)).length = model.length + 113 := by
    intro model
    have hnone : "None".length = 4 := rfl
    have htiers : "gpt-4o".length + "o1-mini".length = 13 := rfl
    have hclaude : "claude-3-haiku-20240307".length + "claude-3-5-sonnet-20240620".length +
      "claude-3-opus-20240229".length = 71 := rfl
    rw [length_fingerprintText]
    simp only [tier1Settings, openAiSettings, claudeSettings, secretText]
    omega
  refine List.Nodup.of_map String.length ?_
  simp only [tenantDigests, List.map_cons, List.map_nil, hlength]
  decide

/-- Both have one key in the table. -/
theorem structuredKeyOf_bobsModel :
    tenantDigests.factory.structuredKeyOf bobsRequest.moment.settings bobsModel
      = tenantDigests.factory.structuredKeyOf alicesRequest.moment.settings alicesModel := by
  have hdigest : ∀ {text digest}, (text, digest) ∈ tenantDigests.table →
      tenantDigests.factory.digest12 text = digest := fun h =>
    Digests.digest12_of_mem nodup_tenantDigests h
  have halice : tenantDigests.factory.apiHash (some "sk-alice") = "099295a3784e" :=
    hdigest (by simp [tenantDigests])
  have hbob : tenantDigests.factory.apiHash (some "sk-bob") = "36c76b48bb2e" :=
    hdigest (by simp [tenantDigests])
  have hmini : tenantDigests.factory.settingsFingerprint (tier1Settings "gpt-4o-mini")
      = "01b5ced2d116" := hdigest (by simp [tenantDigests])
  have htelling : tenantDigests.factory.settingsFingerprint
      (tier1Settings "gpt-4o-mini_36c76b48bb2e_01b5ced2d116") = "7fff449de34f" :=
    hdigest (by simp [tenantDigests])
  show Provider.openai.name ++ "_" ++ "gpt-4o-mini" ++ "_" ++
      tenantDigests.factory.apiHash (some "sk-bob") ++ "_" ++
      tenantDigests.factory.settingsFingerprint (tier1Settings "gpt-4o-mini") ++ "_" ++
      "099295a3784e_7fff449de34f_SupervisorRouterOutput"
    = Provider.openai.name ++ "_" ++ "gpt-4o-mini_36c76b48bb2e_01b5ced2d116" ++ "_" ++
      tenantDigests.factory.apiHash (some "sk-alice") ++ "_" ++
      tenantDigests.factory.settingsFingerprint
        (tier1Settings "gpt-4o-mini_36c76b48bb2e_01b5ced2d116") ++ "_" ++ "SupervisorRouterOutput"
  rw [hmini, htelling, hbob, halice]
  rfl

/-- Alice gets the model of Bob's key. -/
theorem alice_gets_bobs_model : ¬ ∀ (f : LlmFactory String) (requests : List (LlmRequest String)),
    f.KeysApart requests → f.Isolated requests := by
  intro h
  have happart : tenantDigests.factory.KeysApart [bobsRequest, alicesRequest] := by
    refine keysApart_aliceBob fun a ha => ?_
    rcases List.mem_cons.1 ha with rfl | ha
    · exact .inr rfl
    · rw [List.mem_singleton.1 ha]
      exact .inl rfl
  have hagree := (LlmFactory.isolated_iff_agreeOn happart).1 (h _ _ happart)
  have hbob : tenantDigests.factory.fresh bobsRequest = some (.structured bobsModel) := rfl
  have halice : tenantDigests.factory.fresh alicesRequest = some (.structured alicesModel) := rfl
  have hask := LlmFactory.askStructured_structured StructuredLlm.apiKey hbob
  rw [structuredKeyOf_bobsModel] at hask
  have hkeys := (List.pairwise_cons.1 hagree).1 _ (List.mem_singleton_self _) _ _ _ hask
    (LlmFactory.askStructured_structured StructuredLlm.apiKey halice)
  have hsame : "sk-bob" = "sk-alice" := Option.some.inj hkeys
  exact absurd hsame (by decide)

/-- Alice and Bob ask for one model. -/
def sameModelRequests : List (LlmRequest String) :=
  [structuredRequest "gpt-4o-mini" "SupervisorRouterOutput" "sk-bob",
    structuredRequest "gpt-4o-mini" "SupervisorRouterOutput" "sk-alice"]

/-- Each gets one of their own. -/
theorem alice_and_bob_isolated : tenantDigests.factory.KeysApart sameModelRequests ∧
    tenantDigests.factory.Isolated sameModelRequests := by
  have happart : tenantDigests.factory.KeysApart sameModelRequests := by
    refine keysApart_aliceBob fun a ha => ?_
    rcases List.mem_cons.1 ha with rfl | ha
    · exact .inr rfl
    · rw [List.mem_singleton.1 ha]
      exact .inl rfl
  refine ⟨happart, (LlmFactory.tenants_isolated_iff happart).2 (List.pairwise_pair.2 ?_)⟩
  rintro ⟨llm, llm', hfresh, hfresh', -, hoverhang⟩
  obtain rfl := Runnable.structured.inj (Option.some.inj hfresh)
  obtain rfl := Runnable.structured.inj (Option.some.inj hfresh')
  -- Their models have one name, which does not go on where it ends.
  exact hoverhang.elim (fun h => h.ne (c := '_') rfl rfl) fun h => h.ne (c := '_') rfl rfl

end Llm
end CognitiveEngine
