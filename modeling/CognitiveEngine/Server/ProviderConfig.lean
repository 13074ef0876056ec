/-
# Submitting a provider configuration

`submit_provider_config` (`app/api/routes/config.py`) and `UpdateProviderConfig`
(`app/grpc_server.py`) check a user's provider and key and store a record of them in
Redis, which the chat endpoints read back.

The second one asks its message for a field `default` that `ProviderConfigRequest` does
not declare (`protos/chat.proto`), and `HasField` raises for such a field: it stores
nothing, whatever it is sent.  `endpoints_agree_iff` says for which submissions that is
also what the first one does.
-/

import CognitiveEngine.Llm.Resolution
import CognitiveEngine.Server.Chat

namespace CognitiveEngine
namespace Server

open CognitiveEngine.Graph CognitiveEngine.Llm

/-! ### The store -/

/-- `config_dict`, entry by entry. -/
abbrev ConfigDict : Type := List (String × Json)

/-- What Redis has for a key: the JSON text of a dictionary, or nothing. -/
abbrev ConfigStore : Type := String → Option ConfigDict

/-- The key of a user's configuration. -/
def userConfigKey (userId : String) : String := "user_config:" ++ userId

/-- `setex` of a dictionary. -/
def ConfigStore.setex (store : ConfigStore) (key : String) (value : ConfigDict) : ConfigStore :=
  fun other => if other = key then some value else store other

/-- `user_config.get(key)` of a text. -/
def textEntry (dict : ConfigDict) (key : String) : Option String :=
  match dict.lookup key with
  | some (.str text) => some text
  | _ => none

/-- What the chat endpoints read of a dictionary. -/
def readDict (dict : ConfigDict) : UserConfig :=
  .stored (textEntry dict "llm_provider") (textEntry dict "api_key")
    (match dict.lookup "use_default_key" with
      | some (.bool b) => b
      | _ => false)

/-- What the chat endpoints read of the entry of a user. -/
def ConfigStore.read (store : ConfigStore) (userId : String) : UserConfig :=
  match store (userConfigKey userId) with
  | none => .absent
  | some dict => readDict dict

theorem read_of_some {store : ConfigStore} {userId : String} {dict : ConfigDict}
    (h : store (userConfigKey userId) = some dict) : store.read userId = readDict dict := by
  rw [ConfigStore.read, h]

theorem read_of_none {store : ConfigStore} {userId : String}
    (h : store (userConfigKey userId) = none) : store.read userId = .absent := by
  rw [ConfigStore.read, h]

theorem userConfigKey_inj {userId userId' : String} :
    userConfigKey userId = userConfigKey userId' ↔ userId = userId' :=
  String.append_right_inj _

/-! ### The REST endpoint -/

/-- The literals of `llm_provider`. -/
inductive RestProvider where
  | openai
  | gemini
  | claude
  | llama
  | deepseek
  deriving DecidableEq

/-- A literal as it is written. -/
def RestProvider.name : RestProvider → String
  | .openai => "openai"
  | .gemini => "gemini"
  | .claude => "claude"
  | .llama => "llama"
  | .deepseek => "deepseek"

/-- `ProviderConfigSubmit`. -/
structure ProviderConfigSubmit where
  userId : String
  llmProvider : Option RestProvider
  apiKey : Option String
  default : Option RestProvider

/-- `HTTPException`. -/
structure HttpException where
  statusCode : ℕ
  detail : String

/-- The record of an accepted submission. -/
def ProviderConfigSubmit.configDict (config : ProviderConfigSubmit) : ConfigDict :=
  ("user_id", .str config.userId) ::
    match config.default, config.llmProvider with
    | some provider, _ => [("llm_provider", .str provider.name), ("use_default_key", .bool true)]
    | none, some provider =>
        [("llm_provider", .str provider.name), ("api_key", .str (config.apiKey.getD "")),
          ("use_default_key", .bool false)]
    | none, none => []

/-- What is read of the record of a submission. -/
theorem readDict_configDict (config : ProviderConfigSubmit) :
    readDict config.configDict
      = .stored ((config.default.or config.llmProvider).map RestProvider.name)
          (match config.default, config.llmProvider with
            | none, some _ => some (config.apiKey.getD "")
            | _, _ => none) config.default.isSome := by
  obtain ⟨userId, llmProvider, apiKey, default⟩ := config
  cases default with
  | some provider => rfl
  | none =>
      cases llmProvider with
      | some provider => rfl
      | none => rfl

/-- `submit_provider_config`: the message it returns or the exception it raises, and
the store afterwards; there is none while the client is missing. -/
def submitProviderConfig (redis : Option ConfigStore) (config : ProviderConfigSubmit) :
    Except HttpException String × Option ConfigStore :=
  match redis with
  | none => (.error ⟨500, "Redis client not initialized."⟩, none)
  | some store =>
      if config.llmProvider.isSome ∧ config.default.isSome then
        (.error ⟨400,
          "Cannot set both 'llm_provider' (custom key) and 'default' at the same time."⟩, redis)
      else if config.llmProvider.isSome ∧ truthyText config.apiKey = none then
        (.error ⟨400, "Custom provider requires an 'api_key'."⟩, redis)
      else
        (.ok ("Configuration saved for user " ++ config.userId),
          some (store.setex (userConfigKey config.userId) config.configDict))

/-! ### The gRPC endpoint -/

/-- `ProviderConfigRequest`. -/
structure ProviderConfigRequest where
  userId : String
  llmProvider : Option String
  apiKey : Option String
  baseUrl : Option String
  tier1Model : Option String
  tier2Model : Option String
  tier3Model : Option String

/-- The optional field of a name; `none` for a name the message does not declare. -/
def ProviderConfigRequest.field? (request : ProviderConfigRequest) :
    String → Option (Option String)
  | "llm_provider" => some request.llmProvider
  | "api_key" => some request.apiKey
  | "base_url" => some request.baseUrl
  | "tier1_model" => some request.tier1Model
  | "tier2_model" => some request.tier2Model
  | "tier3_model" => some request.tier3Model
  | _ => none

/-- `request.HasField(name)`; `none` when it raises. -/
def ProviderConfigRequest.hasField (request : ProviderConfigRequest) (name : String) :
    Option Bool :=
  (request.field? name).map Option.isSome

/-- `request.name`, the empty text if it is not set; `none` when it raises. -/
def ProviderConfigRequest.get (request : ProviderConfigRequest) (name : String) : Option String :=
  (request.field? name).map fun value => value.getD ""

/-- The status codes the method sets. -/
inductive StatusCode where
  | internal
  | invalidArgument

/-- `ProviderConfigResponse`, with the status and the details set on the context. -/
structure ProviderConfigResponse where
  success : Bool
  message : String
  status : Option (StatusCode × String)

/-- The record of a request, or the text it is refused with; `none` when one of its
fields raises. -/
def ProviderConfigRequest.configDict (request : ProviderConfigRequest) :
    Option (Except String ConfigDict) := do
  if ← request.hasField "default" then
    let provider ← request.get "default"
    return .ok [("user_id", .str request.userId), ("llm_provider", .str provider),
      ("use_default_key", .bool true)]
  else if ← request.hasField "llm_provider" then
    if !(← request.hasField "api_key") then
      return .error "Custom provider requires an api_key."
    let provider ← request.get "llm_provider"
    let apiKey ← request.get "api_key"
    return .ok [("user_id", .str request.userId), ("llm_provider", .str provider),
      ("api_key", .str apiKey), ("use_default_key", .bool false)]
  else
    return .ok [("user_id", .str request.userId)]

/-- `UpdateProviderConfig`: its response, `none` when it raises, and the store
afterwards. -/
def updateProviderConfig (redis : Option ConfigStore) (request : ProviderConfigRequest) :
    Option ProviderConfigResponse × Option ConfigStore :=
  match redis with
  | none =>
      (some ⟨false, "Redis not initialized.", some (.internal, "Redis client not initialized.")⟩,
        none)
  | some store =>
      match request.configDict with
      | none => (none, redis)
      | some (.error details) => (some ⟨false, details, some (.invalidArgument, details)⟩, redis)
      | some (.ok dict) =>
          (some ⟨true, "Configuration saved for user " ++ request.userId, none⟩,
            some (store.setex (userConfigKey request.userId) dict))

/-! ### The same submission at both -/

/-- What can be submitted at either endpoint. -/
structure Submission where
  userId : String
  llmProvider : Option RestProvider
  apiKey : Option String

/-- A submission as the REST endpoint gets it. -/
def Submission.submit (s : Submission) : ProviderConfigSubmit :=
  ⟨s.userId, s.llmProvider, s.apiKey, none⟩

/-- A submission as the gRPC endpoint gets it. -/
def Submission.request (s : Submission) : ProviderConfigRequest :=
  ⟨s.userId, s.llmProvider.map RestProvider.name, s.apiKey, none, none, none, none⟩

/-- The REST endpoint takes the submission. -/
def Submission.submitted (s : Submission) (redis : Option ConfigStore) : Prop :=
  (submitProviderConfig redis s.submit).1.isOk

/-- The gRPC endpoint takes the submission. -/
def Submission.updated (s : Submission) (redis : Option ConfigStore) : Prop :=
  ∃ response, (updateProviderConfig redis s.request).1 = some response ∧ response.success

/-- Both endpoints reject a submission and leave the store as it is, or both take it and
leave one record for the user. -/
def EndpointsAgree (redis : Option ConfigStore) (s : Submission) : Prop :=
  (¬ s.submitted redis ∧ ¬ s.updated redis ∧ (submitProviderConfig redis s.submit).2 = redis ∧
    (updateProviderConfig redis s.request).2 = redis) ∨
  (s.submitted redis ∧ s.updated redis ∧ ∃ dict,
    ((submitProviderConfig redis s.submit).2.bind fun store => store (userConfigKey s.userId))
      = some dict ∧
    ((updateProviderConfig redis s.request).2.bind fun store => store (userConfigKey s.userId))
      = some dict)

/-- **The gRPC endpoint takes nothing**: without a client it says so, and with one it
raises before it looks at any field that exists. -/
theorem updateProviderConfig_rejects (redis : Option ConfigStore) (request : ProviderConfigRequest) :
    (∀ response, (updateProviderConfig redis request).1 = some response →
      response.success = false) ∧ (updateProviderConfig redis request).2 = redis := by
  cases redis with
  | none =>
      refine ⟨fun response h => ?_, rfl⟩
      obtain rfl := Option.some.inj h
      rfl
  | some store => exact ⟨fun response h => absurd h.symm (Option.some_ne_none response), rfl⟩

/-- A submission the REST endpoint refuses leaves the store as it is. -/
theorem submitProviderConfig_of_not_isOk {redis : Option ConfigStore}
    {config : ProviderConfigSubmit} (h : ¬ (submitProviderConfig redis config).1.isOk) :
    (submitProviderConfig redis config).2 = redis := by
  unfold submitProviderConfig at h ⊢
  cases redis with
  | none => rfl
  | some store =>
      dsimp only at h ⊢
      split
      · rfl
      · split
        · rfl
        · rename_i hboth hkey
          rw [if_neg hboth, if_neg hkey] at h
          exact absurd rfl h

/-- **When the REST endpoint refuses a submission.** -/
theorem not_submitted_iff {redis : Option ConfigStore} {s : Submission} :
    ¬ s.submitted redis ↔
      redis = none ∨ (s.llmProvider.isSome ∧ truthyText s.apiKey = none) := by
  unfold Submission.submitted submitProviderConfig
  cases redis with
  | none => exact iff_of_true (by simp [Except.isOk, Except.toBool]) (.inl rfl)
  | some store =>
      have hboth : ¬ (s.submit.llmProvider.isSome ∧ s.submit.default.isSome) :=
        fun h => absurd h.2 Bool.false_ne_true
      rw [or_iff_right (Option.some_ne_none store)]
      dsimp only
      rw [if_neg hboth]
      by_cases hkey : s.submit.llmProvider.isSome ∧ truthyText s.submit.apiKey = none
      · rw [if_pos hkey]
        exact iff_of_true (by simp [Except.isOk, Except.toBool]) hkey
      · rw [if_neg hkey]
        exact iff_of_false (fun h => h rfl) hkey

/-- **When the two endpoints agree:** on submissions that the REST endpoint refuses, and
while there is no client. -/
theorem endpoints_agree_iff (redis : Option ConfigStore) (s : Submission) :
    EndpointsAgree redis s ↔
      redis = none ∨ (s.llmProvider.isSome ∧ truthyText s.apiKey = none) := by
  obtain ⟨hrejects, hkept⟩ := updateProviderConfig_rejects redis s.request
  have hnot : ¬ s.updated redis := by
    rintro ⟨response, hresponse, hsuccess⟩
    rw [hrejects response hresponse] at hsuccess
    exact Bool.false_ne_true hsuccess
  rw [← not_submitted_iff]
  constructor
  · rintro (⟨hrefused, -⟩ | ⟨-, hupdated, -⟩)
    · exact hrefused
    · exact absurd hupdated hnot
  · intro hrefused
    exact .inl ⟨hrefused, hnot, submitProviderConfig_of_not_isOk hrefused, hkept⟩

/-- A key for Claude is taken by one endpoint only. -/
theorem claude_key_one_endpoint :
    ¬ ∀ (redis : Option ConfigStore) (s : Submission), EndpointsAgree redis s := by
  intro h
  rcases h (some fun _ => none) ⟨"alice", some .claude, some "sk-ant-1"⟩ with
    ⟨hrefused, -⟩ | ⟨-, ⟨response, hresponse, -⟩, -⟩
  · exact hrefused rfl
  · exact absurd hresponse.symm (Option.some_ne_none response)

end Server
end CognitiveEngine
