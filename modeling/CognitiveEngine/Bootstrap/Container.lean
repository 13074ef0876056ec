/-
# The start of the container

`Container.initialize` (`app/bootstrap/container.py`).  It constructs the components one
after the other, any of them may raise, and what was assigned before stays.  `_initialized`
is set before the first of them, so a call that raised is also the last one that does
anything: `allOrNothing_iff` says that the calls keep their promise exactly
when the first one raises nowhere or no other follows.

A component stands for the arguments it is constructed with.
-/

import CognitiveEngine.Machine.Fallible
import CognitiveEngine.Server.CacheModelVersion

namespace CognitiveEngine
namespace Bootstrap

open CognitiveEngine.Llm CognitiveEngine.Server Machine

/-! ### The components -/

/-- `settings`, as far as the container goes. -/
structure ContainerSettings extends Settings where
  redisUrl : String
  qdrantServerHost : String
  qdrantServerPort : ℕ

/-- `redis_async.from_url`. -/
structure RedisClient where
  url : String

/-- `OpenAIEmbeddings`. -/
structure OpenAIEmbeddings where
  model : String
  openaiApiKey : Option String
  baseUrl : String

/-- `ChatAnthropic`, which has no base URL here, or `ChatOpenAI`. -/
structure MemoryLlm where
  provider : Provider
  model : String
  temperature : ℕ
  apiKey : Option String
  baseUrl : Option String

structure EmbeddingProvider where
  embeddings : OpenAIEmbeddings

/-- The client, and the model of the sparse embeddings. -/
structure QdrantVectorStore where
  host : String
  port : ℕ
  sparseModelName : String

structure QdrantMemoryStore where
  vectorStore : QdrantVectorStore
  embeddingProvider : EmbeddingProvider

structure QdrantSemanticCache where
  vectorStore : QdrantVectorStore
  embeddingProvider : EmbeddingProvider
  modelVersion : String

structure MemoryService where
  memoryStore : QdrantMemoryStore

structure FactExtractor where
  memoryLlm : MemoryLlm

structure MemoryWorker where
  memoryService : MemoryService
  extractor : FactExtractor

structure HybridRetriever where
  vectorStore : QdrantVectorStore
  embeddingProvider : EmbeddingProvider

/-- `Container`. -/
structure Container where
  memoryService : Option MemoryService
  memoryWorker : Option MemoryWorker
  embeddingProvider : Option EmbeddingProvider
  vectorStore : Option QdrantVectorStore
  memoryStore : Option QdrantMemoryStore
  extractor : Option FactExtractor
  semanticCache : Option QdrantSemanticCache
  hybridSearch : Option HybridRetriever
  redisClient : Option RedisClient
  initialized : Bool

/-- `Container.__init__`. -/
def Container.new : Container :=
  ⟨none, none, none, none, none, none, none, none, none, false⟩

/-- `_resolve_default_embedding`; the provider makes no difference. -/
def resolveDefaultEmbedding (settings : ContainerSettings) : OpenAIEmbeddings where
  model := "text-embedding-3-small"
  openaiApiKey := truthyText settings.openai.apiKey
  baseUrl := settings.openai.baseUrl

/-- `_resolve_default_memory_llm`. -/
def resolveDefaultMemoryLlm (settings : ContainerSettings) : Provider → MemoryLlm
  | .claude =>
      ⟨.claude, settings.claude.tier1FastModel, 0, truthyText settings.claude.apiKey, none⟩
  | .openai =>
      ⟨.openai, settings.openai.tier1FastModel, 0, truthyText settings.openai.apiKey,
        some settings.openai.baseUrl⟩

/-! ### The constructions -/

/-- The constructions of `initialize`. -/
inductive Construction where
  | redisClient
  | embeddingModel
  | memoryLlm
  | embeddingProvider
  | vectorStore
  | memoryStore
  | semanticCache
  | memoryService
  | extractor
  | memoryWorker
  | hybridSearch
  deriving DecidableEq

/-- The container during a call, and the constructions that the call has tried. -/
structure Startup where
  container : Container
  tried : List Construction

/-- The container with one field assigned. -/
def Startup.assign (st : Startup) (f : Container → Container) : Startup :=
  { st with container := f st.container }

variable (settings : ContainerSettings) (raises : Construction → Bool)

/-- `self.… = …`. -/
def assign (f : Container → Container) : EStateM Construction Startup Unit :=
  modify (Startup.assign · f)

/-- A component is constructed, unless its constructor raises. -/
def construct {α : Type} (k : Construction) (component : α) : EStateM Construction Startup α := do
  modify fun st => { st with tried := st.tried ++ [k] }
  if raises k then throw k else return component

/-- `initialize` after its guard. -/
def constructAll : EStateM Construction Startup Unit := do
  let redisClient ← construct raises .redisClient ⟨settings.redisUrl⟩
  assign fun c => { c with redisClient := some redisClient }
  let defaultProvider := resolveDefaultProvider settings.toSettings
  let embeddingModel ← construct raises .embeddingModel (resolveDefaultEmbedding settings)
  let memoryLlm ← construct raises .memoryLlm (resolveDefaultMemoryLlm settings defaultProvider)
  let embeddingProvider ← construct raises .embeddingProvider ⟨embeddingModel⟩
  assign fun c => { c with embeddingProvider := some embeddingProvider }
  let vectorStore ← construct raises .vectorStore
    ⟨settings.qdrantServerHost, settings.qdrantServerPort, "Qdrant/bm25"⟩
  assign fun c => { c with vectorStore := some vectorStore }
  let memoryStore ← construct raises .memoryStore ⟨vectorStore, embeddingProvider⟩
  assign fun c => { c with memoryStore := some memoryStore }
  let cacheModelVersion := resolveCacheModelVersion settings.toSettings defaultProvider
  let semanticCache ← construct raises .semanticCache
    ⟨vectorStore, embeddingProvider, cacheModelVersion⟩
  assign fun c => { c with semanticCache := some semanticCache }
  let memoryService ← construct raises .memoryService ⟨memoryStore⟩
  assign fun c => { c with memoryService := some memoryService }
  let extractor ← construct raises .extractor ⟨memoryLlm⟩
  assign fun c => { c with extractor := some extractor }
  let memoryWorker ← construct raises .memoryWorker ⟨memoryService, extractor⟩
  assign fun c => { c with memoryWorker := some memoryWorker }
  let hybridSearch ← construct raises .hybridSearch ⟨vectorStore, embeddingProvider⟩
  assign fun c => { c with hybridSearch := some hybridSearch }

/-- `Container.initialize`. -/
def initializeContainer : EStateM Construction Startup Unit := do
  if (← get).container.initialized then return
  else
    assign fun c => { c with initialized := true }
    constructAll settings raises

/-! ### One call -/

/-- All components are set. -/
structure Container.Complete (c : Container) : Prop where
  redisClient : c.redisClient.isSome
  embeddingProvider : c.embeddingProvider.isSome
  vectorStore : c.vectorStore.isSome
  memoryStore : c.memoryStore.isSome
  semanticCache : c.semanticCache.isSome
  memoryService : c.memoryService.isSome
  extractor : c.extractor.isSome
  memoryWorker : c.memoryWorker.isSome
  hybridSearch : c.hybridSearch.isSome

variable {settings raises} {st : Startup}

@[simp] theorem assign_tried (f : Container → Container) : (st.assign f).tried = st.tried := rfl

/-- A construction is tried, and raises or gives its component. -/
theorem construct_apply {α : Type} (k : Construction) (component : α) :
    construct raises k component st
      = if raises k then .error k ⟨st.container, st.tried ++ [k]⟩
        else .ok component ⟨st.container, st.tried ++ [k]⟩ := by
  cases h : raises k with
  | true =>
      rw [construct, h]
      rfl
  | false =>
      rw [construct, h]
      rfl

theorem construct_bind {α : Type} {k : Construction} {component : α}
    {f : α → EStateM Construction Startup Unit} {P : Unit → Startup → Prop}
    {E : Construction → Startup → Prop}
    (hraise : raises k = true → E k ⟨st.container, st.tried ++ [k]⟩)
    (hreturn : raises k = false → EndsIn (f component) ⟨st.container, st.tried ++ [k]⟩ P E) :
    EndsIn (construct raises k component >>= f) st P E := by
  refine .bind ?_
  rw [EndsIn, construct_apply]
  cases h : raises k with
  | true => exact hraise h
  | false => exact hreturn h

theorem assign_bind {g : Container → Container} {f : Unit → EStateM Construction Startup Unit}
    {P : Unit → Startup → Prop} {E : Construction → Startup → Prop}
    (h : EndsIn (f ()) (st.assign g) P E) : EndsIn (assign g >>= f) st P E :=
  .bind h

/-- What every way through the constructions has in common: something was tried, and the
guard is left alone. -/
structure Startup.Tries (st st' : Startup) : Prop where
  tried : st'.tried ≠ []
  initialized : st'.container.initialized = st.container.initialized

/-- **The constructions** set all components, or one of them raises and the last component
is not set. -/
theorem constructAll_endsIn (settings : ContainerSettings) (raises : Construction → Bool)
    (st : Startup) :
    EndsIn (constructAll settings raises) st
      (fun _ st' => st.Tries st' ∧ st'.container.Complete ∧ ∀ k, raises k = false)
      (fun k st' => st.Tries st' ∧ raises k = true ∧
        st'.container.hybridSearch = st.container.hybridSearch) := by
  rw [constructAll]
  refine construct_bind (fun h => ⟨⟨by simp, rfl⟩, h, rfl⟩) fun h₁ => assign_bind ?_
  refine construct_bind (fun h => ⟨⟨by simp, rfl⟩, h, rfl⟩) fun h₂ => ?_
  refine construct_bind (fun h => ⟨⟨by simp, rfl⟩, h, rfl⟩) fun h₃ => ?_
  refine construct_bind (fun h => ⟨⟨by simp, rfl⟩, h, rfl⟩) fun h₄ => assign_bind ?_
  refine construct_bind (fun h => ⟨⟨by simp, rfl⟩, h, rfl⟩) fun h₅ => assign_bind ?_
  refine construct_bind (fun h => ⟨⟨by simp, rfl⟩, h, rfl⟩) fun h₆ => assign_bind ?_
  refine construct_bind (fun h => ⟨⟨by simp, rfl⟩, h, rfl⟩) fun h₇ => assign_bind ?_
  refine construct_bind (fun h => ⟨⟨by simp, rfl⟩, h, rfl⟩) fun h₈ => assign_bind ?_
  refine construct_bind (fun h => ⟨⟨by simp, rfl⟩, h, rfl⟩) fun h₉ => assign_bind ?_
  refine construct_bind (fun h => ⟨⟨by simp, rfl⟩, h, rfl⟩) fun h₁₀ => assign_bind ?_
  refine construct_bind (fun h => ⟨⟨by simp, rfl⟩, h, rfl⟩) fun h₁₁ => ?_
  exact ⟨⟨by simp, rfl⟩, ⟨rfl, rfl, rfl, rfl, rfl, rfl, rfl, rfl, rfl⟩,
    fun k => by cases k <;> assumption⟩

/-! ### Calls -/

/-- How a call went: what raised, the container after it, and what the call tried. -/
structure Outcome where
  raised : Option Construction
  container : Container
  tried : List Construction

variable (settings raises)

/-- A call on a container. -/
def Container.call (c : Container) : Outcome :=
  match initializeContainer settings raises ⟨c, []⟩ with
  | .ok _ st => ⟨none, st.container, st.tried⟩
  | .error k st => ⟨some k, st.container, st.tried⟩

/-- Calls one after the other; in each of them other constructions may raise. -/
def outcomes : Container → List (Construction → Bool) → List Outcome
  | _, [] => []
  | c, raises :: calls =>
      let o := c.call settings raises
      o :: outcomes o.container calls

/-- All or nothing: a call that returns leaves no component unset, and the call after one
that raised tries again. -/
structure AllOrNothing (os : List Outcome) : Prop where
  complete : ∀ o ∈ os, o.raised = none → o.container.Complete
  triesAgain : os.IsChain fun o o' => o.raised ≠ none → o'.tried ≠ []

variable {settings raises} {c : Container}

/-- The guard of `initialize`. -/
theorem initializeContainer_apply (st : Startup) :
    initializeContainer settings raises st
      = if st.container.initialized then .ok () st
        else constructAll settings raises
          (st.assign fun c => { c with initialized := true }) := by
  change (if st.container.initialized = true then
    (return : EStateM Construction Startup Unit) else _) st = _
  split <;> rfl

/-- **With the guard up** a call does nothing. -/
theorem call_of_initialized (h : c.initialized = true) :
    c.call settings raises = ⟨none, c, []⟩ := by
  rw [Container.call, initializeContainer_apply, if_pos h]

/-- What a call with the guard down comes to. -/
structure FirstCall (raises : Construction → Bool) (c : Container) (o : Outcome) : Prop where
  tried : o.tried ≠ []
  initialized : o.container.initialized = true
  complete : o.raised = none → o.container.Complete
  hybridSearch : o.raised ≠ none → o.container.hybridSearch = c.hybridSearch
  raised : o.raised = none ↔ ∀ k, raises k = false

/-- **With the guard down** a call puts it up first, and then sets all components or
raises. -/
theorem call_of_not_initialized (settings : ContainerSettings) (raises : Construction → Bool)
    (h : c.initialized = false) :
    FirstCall raises c (c.call settings raises) := by
  have hall := constructAll_endsIn settings raises
    (Startup.assign ⟨c, []⟩ fun c => { c with initialized := true })
  rw [EndsIn] at hall
  rw [Container.call, initializeContainer_apply, if_neg (by simp [h])]
  split at hall
  · rename_i st' hst'
    obtain ⟨htries, hcomplete, hraises⟩ := hall
    rw [hst']
    exact ⟨htries.tried, htries.initialized, fun _ => hcomplete, fun hne => absurd rfl hne,
      iff_of_true rfl hraises⟩
  · rename_i k st' hst'
    obtain ⟨htries, hk, hhybridSearch⟩ := hall
    rw [hst']
    refine ⟨htries.tried, htries.initialized, by simp, fun _ => hhybridSearch, ?_⟩
    exact iff_of_false (by simp) fun hall => by simp [hall k] at hk

/-- **Once the guard is up** it is as if no call were made. -/
theorem outcomes_of_initialized (settings : ContainerSettings) (h : c.initialized = true)
    (calls : List (Construction → Bool)) :
    ∀ o ∈ outcomes settings c calls, o = ⟨none, c, []⟩ := by
  induction calls with
  | nil => simp [outcomes]
  | cons raises calls ih =>
      rw [outcomes, call_of_initialized h, List.forall_mem_cons]
      exact ⟨rfl, ih⟩

/-- **After a call that raised** the calls return, and the last component is never set. -/
theorem hybridSearch_of_raised {first : Construction → Bool} (hnew : c.initialized = false)
    (hsearch : c.hybridSearch = none) (hraised : (c.call settings first).raised ≠ none)
    (calls : List (Construction → Bool)) :
    ∀ o ∈ outcomes settings (c.call settings first).container calls,
      o.raised = none ∧ o.container.hybridSearch = none := by
  have hfirst := call_of_not_initialized settings first hnew
  intro o ho
  obtain rfl := outcomes_of_initialized settings hfirst.initialized calls o ho
  exact ⟨rfl, (hfirst.hybridSearch hraised).trans hsearch⟩

/-- **The calls are all or nothing** exactly when there is one at most, or the first one
raises nowhere. -/
theorem allOrNothing_iff (calls : List (Construction → Bool)) :
    AllOrNothing (outcomes settings .new calls) ↔
      calls.length ≤ 1 ∨ ∀ first ∈ calls.head?, ∀ k, first k = false := by
  cases calls with
  | nil => exact ⟨fun _ => .inl (Nat.zero_le 1), fun _ => ⟨by simp [outcomes], .nil⟩⟩
  | cons first rest =>
      have hfirst := call_of_not_initialized settings first (rfl : Container.new.initialized = false)
      rw [outcomes, List.head?_cons]
      simp only [Option.mem_some_iff, forall_eq']
      rw [← hfirst.raised]
      constructor
      · intro h
        cases rest with
        | nil => exact .inl le_rfl
        | cons second rest =>
            refine .inr ?_
            by_contra hraised
            -- The second call returns with what the first one left.
            have hsecond := hybridSearch_of_raised rfl rfl hraised (second :: rest) _
              List.mem_cons_self
            have hcomplete := h.complete _ (List.mem_cons_of_mem _ List.mem_cons_self) hsecond.1
            exact absurd hcomplete.hybridSearch (by simp [hsecond.2])
      · intro h
        have hrest := outcomes_of_initialized settings hfirst.initialized rest
        rcases h with hlength | hraised
        · obtain rfl : rest = [] := by simpa using hlength
          exact ⟨by simpa [outcomes] using hfirst.complete, .singleton _⟩
        · have hall : ∀ o ∈ Container.new.call settings first ::
              outcomes settings (Container.new.call settings first).container rest,
              o.raised = none ∧ o.container.Complete := by
            rw [List.forall_mem_cons]
            refine ⟨⟨hraised, hfirst.complete hraised⟩, fun o ho => ?_⟩
            obtain rfl := hrest o ho
            exact ⟨rfl, hfirst.complete hraised⟩
          exact ⟨fun o ho _ => (hall o ho).2,
            (List.pairwise_of_forall_mem_list fun o ho _ _ hne =>
              absurd (hall o ho).1 hne).isChain⟩

/-! ### A sparse model that cannot be fetched at first -/

/-- The key is set, and everything is on this machine. -/
def localSettings : ContainerSettings where
  openai := openAiSettings (some "sk-1")
  claude := claudeSettings none
  redisUrl := "redis://localhost:6379/0"
  qdrantServerHost := "localhost"
  qdrantServerPort := 6333

/-- **Two calls**, of which only the first one raises, at the vector store. -/
theorem vectorStore_raises_at_first :
    ¬AllOrNothing (outcomes localSettings .new [(· == .vectorStore), fun _ => false]) := by
  intro h
  have hcomplete := h.complete _ (List.mem_cons_of_mem _ List.mem_cons_self) rfl
  exact absurd hcomplete.hybridSearch (by decide)

end Bootstrap
end CognitiveEngine
