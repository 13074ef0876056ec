/-
# Guests of the web front end

`ChatController.StreamChat` (`AgentApp/Controllers/ChatController.cs`) gives a
browser that is not logged in a fresh user id, and `ChatGrpcClient.StreamChatAsync`
(`Infrastructure/Services/ChatGrpcClient.cs`) calls the Python core with it.

The front end marks its guests with `guest_`, the core looks for `anon_`, so the core
takes a guest for a user with an account: `guest_in_memory_iff` says that the only
guest calls without a checkpointer are those that do not come to the graph at all.
-/

import CognitiveEngine.Server.StreamEvents

namespace CognitiveEngine
namespace Web

open CognitiveEngine.Graph CognitiveEngine.Server

variable {C V : Type}

/-! ### The front end -/

/-- A request of a browser to `StreamChat`, with what the session holds. -/
structure BrowserRequest where
  prompt : String
  /-- `User.Identity?.IsAuthenticated`. -/
  isAuthenticated : Bool
  /-- The claim `ClaimTypes.NameIdentifier`. -/
  nameIdentifier : Option String
  /-- `HttpContext.Session.GetString("TempSessionId")`. -/
  tempSessionId : Option String

/-- What `Guid.NewGuid().ToString()` gives for the user and for the session. -/
structure NewGuids where
  user : String
  session : String

/-- `userId`; `none` is the null of a claim that is missing. -/
def BrowserRequest.userId (r : BrowserRequest) (guids : NewGuids) : Option String :=
  if r.isAuthenticated then r.nameIdentifier else some ("guest_" ++ guids.user)

/-- `sessionId`. -/
def BrowserRequest.sessionId (r : BrowserRequest) (guids : NewGuids) : String :=
  r.tempSessionId.getD guids.session

/-- The `TempSessionId` that is in the session afterwards. -/
def BrowserRequest.sessionAfter (r : BrowserRequest) (guids : NewGuids) : Option String :=
  if !r.isAuthenticated && r.tempSessionId.isNone then some (r.sessionId guids)
  else r.tempSessionId

/-- The `ChatRequest` that `StreamChatAsync` sends; protobuf refuses a null. -/
def BrowserRequest.chatRequest (r : BrowserRequest) (guids : NewGuids) : Option ChatRequest :=
  (r.userId guids).map fun userId => ⟨userId, r.sessionId guids, r.prompt⟩

/-- The call of the core: without metadata, and with the configuration that Redis has
for its user id. -/
def grpcCall (userConfig : String → UserConfig) (request : ChatRequest) : Call where
  endpoint := .streamChat
  request := request
  providerHeader := none
  keyHeader := none
  userConfig := userConfig request.userId

/-- The `StreamChat` call a request causes. -/
def BrowserRequest.call (r : BrowserRequest) (guids : NewGuids) (userConfig : String → UserConfig) :
    Option Call :=
  (r.chatRequest guids).map (grpcCall userConfig)

/-! ### Calls that stay in memory -/

/-- A deed that needs the Redis checkpointer, or publishes an extraction task. -/
def Deed.persists : Deed C → Prop
  | .openCheckpointer _ | .save _ _ | .publish _ => True
  | .send _ | .cacheSet _ _ _ => False

/-- A call uses no checkpointer and publishes no task. -/
def InMemory (cache : SemanticCache V) (x : Call) (e : Encounter C V) : Prop :=
  ∀ d ∈ (serve cache x e).1, ¬ Deed.persists d

variable (cache : SemanticCache V) (x : Call) (e : Encounter C V)

/-- A call that runs the graph opens its checkpointer first. -/
theorem opening_prefix_runGraph :
    x.threadId?.toList.map .openCheckpointer <+: (runGraph cache x e).1 := by
  unfold runGraph
  split_ifs
  · exact List.prefix_rfl
  · exact List.prefix_append _ _
  · exact ⟨_, (List.append_assoc _ _ _).symm⟩

/-- **When a call that is not anonymous stays in memory:** exactly when it does not run
the graph. -/
theorem inMemory_iff (hanon : isAnonymous x.request.userId = false) :
    InMemory cache x e ↔
      cache.get (e.stores.collections "semantic_cache") x.request.prompt ≠ some none ∨
        x.config = none := by
  have hthread : x.threadId? = some (conversationOf x.request).threadId :=
    if_neg (by simp [hanon])
  unfold InMemory serve
  cases hget : cache.get (e.stores.collections "semantic_cache") x.request.prompt with
  | none => simp
  | some found =>
      cases found with
      | some cachedReply => simp [Deed.persists]
      | none =>
          cases hconfig : x.config with
          | none => simp
          | some config =>
              refine iff_of_false (fun h => ?_) (by simp)
              have hopen := opening_prefix_runGraph cache x e
              rw [hthread] at hopen
              exact h _ (hopen.subset (List.mem_singleton_self _)) trivial

/-- A guest's user id does not have the prefix the core looks for. -/
theorem isAnonymous_guest (guid : String) : isAnonymous ("guest_" ++ guid) = false := by
  rw [isAnonymous, String.toList_append]
  rfl

/-- **When a guest's call stays in memory:** exactly when its prompt is answered from
the cache, the lookup fails, or no readable configuration is stored for the guest's
id, so that the call fails before it comes to the graph. -/
theorem guest_in_memory_iff (r : BrowserRequest) (guids : NewGuids)
    (userConfig : String → UserConfig) (hguest : r.isAuthenticated = false)
    (hcall : r.call guids userConfig = some x) :
    InMemory cache x e ↔
      cache.get (e.stores.collections "semantic_cache") r.prompt ≠ some none ∨
        ∀ llmProvider apiKey useDefaultKey,
          userConfig ("guest_" ++ guids.user) ≠ .stored llmProvider apiKey useDefaultKey := by
  have hx : x = grpcCall userConfig ⟨"guest_" ++ guids.user, r.sessionId guids, r.prompt⟩ := by
    simpa [BrowserRequest.call, BrowserRequest.chatRequest, BrowserRequest.userId, hguest]
      using hcall.symm
  subst hx
  rw [inMemory_iff cache _ e (isAnonymous_guest guids.user)]
  refine or_congr Iff.rfl ?_
  have hconfig : (grpcCall userConfig ⟨"guest_" ++ guids.user, r.sessionId guids, r.prompt⟩).config
      = streamChatConfig none none (userConfig ("guest_" ++ guids.user)) := rfl
  rw [hconfig]
  cases userConfig ("guest_" ++ guids.user) <;> simp [streamChatConfig]

/-! ### A guest whose id has a configuration -/

/-- A browser that is not logged in asks about the tides. -/
def guestRequest : BrowserRequest := ⟨"What makes the tides?", false, none, none⟩

/-- Two generated ids. -/
def someGuids : NewGuids :=
  ⟨"0f8fad5b-d9cb-469f-a165-70867728950e", "7c9e6679-7425-40de-944b-e07fc1f90ae7"⟩

/-- A prompt that is in the cache is answered without the checkpointer. -/
theorem cached_guest_in_memory :
    InMemory plainCache
      (grpcCall (fun _ => .absent) ⟨"guest_" ++ someGuids.user, someGuids.session,
        "What makes the tides?"⟩)
      (smoothEncounter [] [plainCache.entry "What makes the tides?" "The moon."]) :=
  (guest_in_memory_iff plainCache _ _ guestRequest someGuids (fun _ => .absent) rfl rfl).2
    (.inl (Option.ne_none_iff_isSome.2 rfl ∘ Option.some.inj))

/-- With a configuration stored for its id, a guest's conversation goes into Redis. -/
theorem guest_uses_checkpointer : ¬ ∀ (r : BrowserRequest) (guids : NewGuids)
    (userConfig : String → UserConfig) (x : Call) (e : Encounter Unit Unit),
    r.isAuthenticated = false → r.call guids userConfig = some x → InMemory plainCache x e := by
  intro h
  refine h guestRequest someGuids (fun _ => .stored (some "openai") none true) _
    (smoothEncounter [("final_synthesizer", "The moon.")] []) rfl rfl
    (.openCheckpointer ("guest_" ++ someGuids.user ++ "_" ++ someGuids.session)) ?_ trivial
  exact .head _

end Web
end CognitiveEngine
