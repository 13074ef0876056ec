/-
# Whose configuration the models of a run have

The configuration of a request is handed on by hand, from node to node and from there to
`get_llm_instance` and `get_structured_llm`.  `nodeUses` lists the models that a node
asks in a superstep; `runNode_eq_of_answers` says that the list leaves none out, since a
node does the same in two outside worlds in which these models answer alike.

`transform_user_query`, which the research executor calls, is not handed the
configuration, so its model is the one of the settings.  `callers_models_iff` says that
this is the only call that does not ask for the caller's model.  What it gets is another
matter: the entry of a model in the caches may have been left by somebody else, since the
key of a bound model has no provider and a digest of the API key stands for it.
-/

import CognitiveEngine.Llm.ProcessRuns
import CognitiveEngine.Machine.Trace

namespace CognitiveEngine
namespace Llm

open CognitiveEngine.Graph Machine

/-! ### The models a node asks -/

/-- The models of `node_supervisor_router` and the others that first read the last
message; without one they raise. -/
def afterLast (s : AgentState) (uses : List ModelUse) : List ModelUse :=
  match lastMessage s with
  | .ok _ => uses
  | .error _ => []

/-- The models of `node_critic_agent` and `node_reflection_agent`, which first read what
is to be judged. -/
def afterPayload (s : AgentState) (uses : List ModelUse) : List ModelUse :=
  match rawOrLast s with
  | .ok _ => uses
  | .error _ => []

/-- The use of `transform_user_query`. -/
def transformUse : ModelUse := ⟨transformModel, none⟩

/-- The models a node asks, in order. -/
def nodeUses (env : Env) (s : AgentState) : Node → List ModelUse
  | .supervisorRouter =>
      afterLast s [⟨getLlmInstance 1 (some env.config), some .supervisorRouterOutput⟩]
  | .planner => [⟨getLlmInstance 2 (some env.config), some .plannerOutput⟩]
  | .executor .generalMemory => [⟨generalProfile.model env s, none⟩]
  | .executor .researchPapers => [transformUse, ⟨researchProfile.model env s, none⟩]
  | .executor .visionDetection => [⟨visionProfile.model env s, none⟩]
  | .findingExtractor => afterLast s [⟨getLlmInstance 1 (some env.config), some .executorOutput⟩]
  | .criticAgent => afterPayload s [⟨getLlmInstance 2 (some env.config), some .criticOutput⟩]
  | .reflectionAgent =>
      afterPayload s [⟨getLlmInstance 2 (some env.config), some .reflectionOutput⟩]
  | .finalSynthesizer => [⟨getLlmInstance 2 (some env.config), none⟩]
  | .directExecutorInit | .actionTracker | .tools | .taskManager => []

/-- The model answers alike in both worlds. -/
structure SameAnswers (env env' : Env) (m : ChatModel) : Prop where
  chat : env'.chat m = env.chat m
  router : env'.router m = env.router m
  planner : env'.planner m = env.planner m
  extractor : env'.extractor m = env.extractor m
  critic : env'.critic m = env.critic m
  reflection : env'.reflection m = env.reflection m

section Answers

variable {rt : Runtime} {env env' : Env} {s : AgentState}

/-- An executor does the same when its query comes out the same and its model answers
alike. -/
theorem executorNode_eq_of_answers (p : ExecutorProfile) (hconfig : env'.config = env.config)
    (hretrieve : env'.retrieve = env.retrieve) (hquery : p.query env' s = p.query env s)
    (h : SameAnswers env env' (p.model env s)) :
    executorNode p rt env' s = executorNode p rt env s := by
  have hmodel : p.model env' s = p.model env s := by
    rw [ExecutorProfile.model, hconfig]
    rfl
  have hprompt : p.prompt rt env' s = p.prompt rt env s := by
    simp only [ExecutorProfile.prompt, ExecutorProfile.compiledMessages, ExecutorProfile.context,
      hretrieve, hquery]
  rw [executorNode, hmodel, hprompt, h.chat]
  rfl

/-- **No other model is asked.** -/
theorem runNode_eq_of_answers {n : Node} (hconfig : env'.config = env.config)
    (hretrieve : env'.retrieve = env.retrieve) (hcallTool : env'.callTool = env.callTool)
    (h : ∀ use ∈ nodeUses env s n, SameAnswers env env' use.model) :
    runNode rt env' n s = runNode rt env n s := by
  cases n with
  | supervisorRouter =>
      rw [runNode, runNode, nodeSupervisorRouter, nodeSupervisorRouter]
      cases hlast : lastMessage s with
      | error e => rfl
      | ok last =>
          rw [nodeUses, afterLast, hlast] at h
          rw [hconfig, (h _ (List.mem_singleton_self _)).router]
  | planner =>
      have hanswers := h _ (List.mem_singleton_self _)
      rw [runNode, runNode, nodePlannerAgent, nodePlannerAgent, hconfig, hanswers.planner]
  | directExecutorInit => rfl
  | executor lane =>
      cases lane with
      | generalMemory =>
          exact congrArg Except.ok (executorNode_eq_of_answers generalProfile hconfig hretrieve rfl
            (h _ (List.mem_singleton_self _)))
      | researchPapers =>
          have hquery : transformUserQuery env' s.userInitialPrompt
              = transformUserQuery env s.userInitialPrompt := by
            have hanswers : SameAnswers env env' transformModel := h _ List.mem_cons_self
            rw [transformUserQuery, hanswers.chat]
            rfl
          exact congrArg Except.ok (executorNode_eq_of_answers researchProfile hconfig hretrieve
            hquery (h _ (List.mem_cons_of_mem _ (List.mem_singleton_self _))))
      | visionDetection =>
          exact congrArg Except.ok (executorNode_eq_of_answers visionProfile hconfig hretrieve rfl
            (h _ (List.mem_singleton_self _)))
  | actionTracker => rfl
  | tools => rw [runNode, runNode, toolNode, toolNode, hcallTool]
  | findingExtractor =>
      rw [runNode, runNode, nodeFindingExtractor, nodeFindingExtractor]
      cases hlast : lastMessage s with
      | error e => rfl
      | ok last =>
          rw [nodeUses, afterLast, hlast] at h
          rw [hconfig, (h _ (List.mem_singleton_self _)).extractor]
  | criticAgent =>
      rw [runNode, runNode, nodeCriticAgent, nodeCriticAgent]
      cases hpayload : rawOrLast s with
      | error e => rfl
      | ok payload =>
          rw [nodeUses, afterPayload, hpayload] at h
          rw [hconfig, (h _ (List.mem_singleton_self _)).critic]
  | reflectionAgent =>
      rw [runNode, runNode, nodeReflectionAgent, nodeReflectionAgent]
      cases hpayload : rawOrLast s with
      | error e => rfl
      | ok payload =>
          rw [nodeUses, afterPayload, hpayload] at h
          rw [hconfig, (h _ (List.mem_singleton_self _)).reflection]
  | taskManager => rfl
  | finalSynthesizer =>
      have hanswers := h _ (List.mem_singleton_self _)
      rw [runNode, runNode, nodeFinalSynthesizer, nodeFinalSynthesizer, hconfig, hanswers.chat]

end Answers

/-! ### The instances -/

/-- The model is of the provider, and was constructed with the key. -/
def IsCallers (p : Provider) (key : String) (llm : BaseChatModel) : Prop :=
  llm.provider = p ∧ llm.apiKey = some key

/-- What the settings themselves select: a provider, and a key of theirs. -/
def Settings.Selects (settings : Settings) (p : Provider) (key : String) : Prop :=
  settings.fallbackProvider = p ∧ truthyText (settings.ofProvider p).apiKey = some key

/-- The configuration names a supported provider and carries a key. -/
structure Names (texts : Texts) (config : RunnableConfig) (p : Provider) (key : String) : Prop where
  provider : ∃ name, config.llmProvider = some name ∧ Provider.ofName? (texts.lower name) = some p
  apiKey : config.apiKey = some key
  ne_empty : key ≠ ""

variable {texts : Texts} {settings : Settings} {config : RunnableConfig} {p : Provider}
  {key : String}

variable (settings) in
/-- **A model that is asked for with the configuration is the caller's.** -/
theorem isCallers_of_config (h : Names texts config p key) {m : ChatModel}
    (hm : m.config = some config) :
    ∃ made, instanceOf? texts settings m = some made ∧ IsCallers p key made := by
  obtain ⟨name, hname, hp⟩ := h.provider
  have hselect : settings.selectProvider texts name = p := by
    rw [Settings.selectProvider, hp, Option.getD_some]
  refine ⟨(settings.resolve texts name config.apiKey).newLlm m.tier, ?_, hselect, ?_⟩
  · rw [instanceOf?, hm, Option.map_some, resolve_ofRunnableConfig, hname, Option.map_some,
      Option.map_some]
  · have hkey : (truthyText config.apiKey).or
        (truthyText (settings.ofProvider (settings.selectProvider texts name)).apiKey)
          = some key := by
      rw [h.apiKey, truthyText_eq_some.2 ⟨rfl, h.ne_empty⟩, Option.some_or]
    exact hkey

/-- An empty provider name is resolved to what the settings have a key for. -/
theorem selectProvider_empty : settings.selectProvider texts "" = settings.fallbackProvider := by
  have hlower : texts.lower "" = "" := by
    rw [← String.toList_inj]
    exact texts.lower_ascii "" (by simp)
  rw [Settings.selectProvider, hlower]
  rfl

variable (texts settings) in
/-- The model that `transform_user_query` would construct. -/
def systemInstance : BaseChatModel := (settings.resolve texts "" none).newLlm 1

theorem instanceOf?_transformModel :
    instanceOf? texts settings transformModel = some (systemInstance texts settings) := rfl

/-- **It is what the settings select.** -/
theorem isCallers_systemInstance :
    IsCallers p key (systemInstance texts settings) ↔ settings.Selects p key := by
  have hprovider : (systemInstance texts settings).provider = settings.fallbackProvider :=
    selectProvider_empty
  have hkey : (systemInstance texts settings).apiKey
      = truthyText (settings.ofProvider settings.fallbackProvider).apiKey := by
    rw [← hprovider]
    rfl
  rw [IsCallers, hprovider, hkey, Settings.Selects]
  exact and_congr_right fun hp => by rw [hp]

/-! ### What is left in the caches -/

namespace GraphFactory

variable (f : GraphFactory)

/-- A use gets a model of the provider that was constructed with the key. -/
def ServesCaller (p : Provider) (key : String) (process : Process) (use : ModelUse) : Prop :=
  ∃ r, f.served process use = some r ∧ IsCallers p key r.base

/-- If an earlier request has left a model in the entry of a use, it is the caller's. -/
def Untaken (p : Provider) (key : String) (process : Process) (use : ModelUse) : Prop :=
  ∀ made, instanceOf? f.toTexts process.moment.settings use.model = some made →
    ∀ left, f.entry process use made = some left → IsCallers p key left

variable {f} {process : Process} {use : ModelUse} {made left : BaseChatModel}

/-- **A use gets what is left in its entry**, and else what it constructs. -/
theorem servesCaller_iff
    (h : instanceOf? f.toTexts process.moment.settings use.model = some made) :
    f.ServesCaller p key process use ↔
      f.Untaken p key process use ∧ (f.entry process use made = none → IsCallers p key made) := by
  obtain ⟨r, hr, hbase⟩ := f.served_eq h
  have hserves : f.ServesCaller p key process use ↔
      IsCallers p key ((f.entry process use made).getD made) := by
    rw [← hbase]
    exact ⟨fun ⟨r', hr', hcallers⟩ => Option.some.inj (hr.symm.trans hr') ▸ hcallers,
      fun hcallers => ⟨r, hr, hcallers⟩⟩
  have huntaken : f.Untaken p key process use ↔
      ∀ left, f.entry process use made = some left → IsCallers p key left :=
    ⟨fun hall => hall made h, fun hall made' hmade' =>
      Option.some.inj (h.symm.trans hmade') ▸ hall⟩
  rw [hserves, huntaken]
  cases f.entry process use made with
  | none => exact ⟨fun hmade => ⟨nofun, fun _ => hmade⟩, fun hall => hall.2 rfl⟩
  | some left =>
      refine ⟨fun hleft => ⟨fun left' hleft' => ?_, nofun⟩, fun hall => hall.1 left rfl⟩
      exact Option.some.inj hleft' ▸ hleft

/-- **What is left in an entry** was constructed or bound by an earlier request, and has a key
with the digest of the caller's. -/
theorem request_of_entry (hmade : made.apiKey = some key) (hne : key ≠ "")
    (h : f.entry process use made = some left) :
    f.digest12 (extractApiKeyFromLlm left) = f.digest12 key ∧
      ∃ b ∈ process.requests, f.Constructs b left ∨
        ∃ domain, b.call = .getCachedBoundLlm domain left := by
  have hextract : extractApiKeyFromLlm made = key := by
    rw [extractApiKeyFromLlm, hmade, Option.getD_some]
  rcases Option.or_eq_some_iff.1 h with hbound | ⟨-, hfirst⟩
  · obtain ⟨found, hfound, rfl⟩ := Option.map_eq_some_iff.1 hbound
    obtain ⟨domain, -, hfirst⟩ := Option.bind_eq_some_iff.1 hfound
    obtain ⟨b, hb, hask⟩ := exists_of_lookup hfirst
    obtain ⟨domain', base, hcall, heq⟩ := LlmFactory.askBound_eq_some hask
    obtain ⟨hkey, rfl⟩ := Prod.mk.inj heq
    refine ⟨?_, b, hb, .inr ⟨domain', hcall⟩⟩
    rw [← hextract]
    exact (f.boundCacheKey_eq_iff.1 hkey).2.1
  · obtain ⟨b, hb, hask⟩ := exists_of_lookup hfirst
    obtain ⟨left', hleft, heq⟩ := LlmFactory.askInstance_eq_some hask
    obtain ⟨hkey, rfl : left' = left⟩ := Prod.mk.inj heq
    refine ⟨?_, b, hb, .inl hleft⟩
    rcases f.digest_of_apiHash hleft.truthyText_apiKey
      (hmade ▸ truthyText_eq_some.2 ⟨rfl, hne⟩) (f.keyOf_eq_iff.1 hkey).2.2.1 with
      ⟨-, hnone⟩ | ⟨key', made', hkey', hmade', hdigest⟩
    · exact absurd (hmade.symm.trans hnone) (Option.some_ne_none key)
    · obtain rfl := Option.some.inj (hmade.symm.trans hmade')
      rwa [extractApiKeyFromLlm, hkey', Option.getD_some]

/-- **A request leaves** the model of what it is answered with when it finds nothing. -/
theorem base_of_fresh {b : LlmRequest GraphSchema} {r : Runnable GraphSchema}
    (h : f.fresh b = some r)
    (hleft : f.Constructs b left ∨ ∃ domain, b.call = .getCachedBoundLlm domain left) :
    r.base = left := by
  rcases hleft with (hplain | ⟨schema, hstructured⟩) | ⟨domain, hbound⟩
  · obtain rfl := Option.some.inj (h.symm.trans hplain)
    rfl
  · obtain rfl := Option.some.inj (h.symm.trans hstructured)
    rfl
  · obtain ⟨moment, call⟩ := b
    obtain rfl : call = .getCachedBoundLlm domain left := hbound
    obtain rfl := Option.some.inj h
    rfl

/-- Nothing is in the way when every earlier request whose API key has the digest of the
caller's was for the caller's model. -/
theorem untaken_of_requests
    (hinstance : instanceOf? f.toTexts process.moment.settings use.model = some made)
    (hkey : made.apiKey = some key) (hne : key ≠ "")
    (hrequests : ∀ b ∈ process.requests, ∀ left, (f.Constructs b left ∨
      ∃ domain, b.call = .getCachedBoundLlm domain left) →
        f.digest12 (extractApiKeyFromLlm left) = f.digest12 key → IsCallers p key left) :
    f.Untaken p key process use := by
  intro made' hmade' left hleft
  obtain rfl := Option.some.inj (hinstance.symm.trans hmade')
  obtain ⟨hdigest, b, hb, hasked⟩ := request_of_entry hkey hne hleft
  exact hrequests b hb left hasked hdigest

end GraphFactory

/-! ### Runs -/

/-- One superstep of a run with a configuration, in some outside world and with the processes
in which its node asks for its first model, its second and so on; a run that raises is over. -/
def RunStep (rt : Runtime) (config : RunnableConfig) (c : Config) (input : Env × (ℕ → Process))
    (o : Except PyError Config) (c' : Config) : Prop :=
  c.next ≠ none ∧ input.1.config = config ∧ o = step rt input.1 c ∧
    c' = o.toOption.getD ⟨none, c.state⟩

/-- A superstep of a run. -/
abbrev RunEvent : Type := Event Config (Env × (ℕ → Process)) (Except PyError Config)

/-- Every model that the node of the superstep gets is of the provider, and was constructed
with the key. -/
def CallsWith (f : GraphFactory) (p : Provider) (key : String) (e : RunEvent) : Prop :=
  ∀ n, e.before.next = some n → ∀ i use, (nodeUses e.input.1 e.before.state n)[i]? = some use →
    f.ServesCaller p key (e.input.2 i) use

/-- **What the process has to be like at a superstep.**  What earlier requests have left for
the models of the node is the caller's; and if they have left nothing for the model that
transforms the query of the research executor, the settings select the caller's provider and
key by themselves. -/
structure LeavesToCaller (f : GraphFactory) (p : Provider) (key : String)
    (e : RunEvent) : Prop where
  untaken : ∀ n, e.before.next = some n → ∀ i use,
    (nodeUses e.input.1 e.before.state n)[i]? = some use → f.Untaken p key (e.input.2 i) use
  selected : e.before.next = some (.executor .researchPapers) →
    f.entry (e.input.2 0) transformUse (systemInstance f.toTexts (e.input.2 0).moment.settings)
      = none → (e.input.2 0).moment.settings.Selects p key

theorem mem_afterLast {s : AgentState} {uses : List ModelUse} {use : ModelUse}
    (h : use ∈ afterLast s uses) : use ∈ uses := by
  unfold afterLast at h
  split at h
  · exact h
  · exact absurd h List.not_mem_nil

theorem mem_afterPayload {s : AgentState} {uses : List ModelUse} {use : ModelUse}
    (h : use ∈ afterPayload s uses) : use ∈ uses := by
  unfold afterPayload at h
  split at h
  · exact h
  · exact absurd h List.not_mem_nil

/-- **Every model but one has the configuration.** -/
theorem config_of_nodeUses {env : Env} {s : AgentState} {n : Node} {i : ℕ} {use : ModelUse}
    (h : (nodeUses env s n)[i]? = some use) :
    use.model.config = some env.config ∨
      (n = .executor .researchPapers ∧ i = 0 ∧ use = transformUse) := by
  have hmem := List.mem_of_getElem? h
  cases n with
  | executor lane =>
      cases lane with
      | generalMemory | visionDetection =>
          rw [List.mem_singleton.1 hmem]
          exact .inl rfl
      | researchPapers =>
          cases i with
          | zero => exact .inr ⟨rfl, rfl, (Option.some.inj h).symm⟩
          | succ i =>
              have hrest := List.mem_of_getElem? ((List.getElem?_cons_succ ..).symm.trans h)
              rw [List.mem_singleton.1 hrest]
              exact .inl rfl
  | supervisorRouter | findingExtractor =>
      rw [List.mem_singleton.1 (mem_afterLast hmem)]
      exact .inl rfl
  | criticAgent | reflectionAgent =>
      rw [List.mem_singleton.1 (mem_afterPayload hmem)]
      exact .inl rfl
  | planner | finalSynthesizer =>
      rw [List.mem_singleton.1 hmem]
      exact .inl rfl
  | directExecutorInit | actionTracker | tools | taskManager => exact absurd hmem List.not_mem_nil

/-- **When all models of a run are the caller's:** exactly when, at every superstep, whatever
earlier requests have left in the entries of its models is the caller's, and the settings
select the caller's provider and key by themselves when the research executor runs and they
have left nothing for its query. -/
theorem callers_models_iff {f : GraphFactory} {rt : Runtime} {thread : AgentState}
    {request : ChatRequest} {es : List RunEvent} {c' : Config}
    (h : Names f.toTexts config p key)
    (ht : Trace (RunStep rt config) (startTurn thread request) es c') :
    (∀ e ∈ es, CallsWith f p key e) ↔ ∀ e ∈ es, LeavesToCaller f p key e := by
  refine forall₂_congr fun e he => ?_
  obtain ⟨c₁, -, hconfig, -⟩ := ht.step_of_mem he
  have hown : ∀ {i : ℕ} {use : ModelUse}, use.model.config = some e.input.1.config →
      (f.ServesCaller p key (e.input.2 i) use ↔ f.Untaken p key (e.input.2 i) use) := by
    intro i use hm
    obtain ⟨made, hmade, hcallers⟩ := isCallers_of_config (e.input.2 i).moment.settings h
      (hm.trans (congrArg some hconfig))
    rw [GraphFactory.servesCaller_iff hmade]
    exact and_iff_left fun _ => hcallers
  have hsystem : f.ServesCaller p key (e.input.2 0) transformUse ↔ _ :=
    GraphFactory.servesCaller_iff instanceOf?_transformModel
  rw [isCallers_systemInstance] at hsystem
  constructor
  · intro hcalls
    refine ⟨fun n hnext i use huse => ?_, fun hnext => (hsystem.1 (hcalls _ hnext 0 _ rfl)).2⟩
    rcases config_of_nodeUses huse with hm | ⟨rfl, rfl, rfl⟩
    · exact (hown hm).1 (hcalls n hnext i use huse)
    · exact (hsystem.1 (hcalls _ hnext 0 _ rfl)).1
  · rintro ⟨huntaken, hselected⟩ n hnext i use huse
    rcases config_of_nodeUses huse with hm | ⟨rfl, rfl, rfl⟩
    · exact (hown hm).2 (huntaken n hnext i use huse)
    · exact hsystem.2 ⟨huntaken _ hnext 0 _ huse, hselected hnext⟩

/-! ### Alice asks about papers -/

/-- Alice's provider and key. -/
def aliceConfig : RunnableConfig := ⟨some "claude", some "sk-alice"⟩

theorem names_aliceConfig : Names asciiTexts aliceConfig .claude "sk-alice" where
  provider := ⟨"claude", rfl, by decide⟩
  apiKey := rfl
  ne_empty := by decide

/-- The settings of a process that has an OpenAI key. -/
def systemSettings : Settings := ⟨openAiSettings (some "sk-env"), claudeSettings none⟩

/-- The digests of the keys and of the settings. -/
def callerDigests : Digests where
  table := [("sk-alice", "099295a3784e"), ("sk-bob", "36c76b48bb2e"), ("sk-env", "c46b5e898819"),
    (fingerprintText systemSettings, "f8306157f3ae")]
  hex := by simp

/-- The model of tier 2 that Bob has. -/
def bobsClaude : BaseChatModel :=
  ⟨.claude, "claude-3-5-sonnet-20240620", some "sk-bob", none, 1024⟩

/-- The moment of all requests. -/
def callerMoment : Moment := ⟨systemSettings, []⟩

/-- The requests of Bob's, who has asked the general agent. -/
def bobsRequests : List (LlmRequest GraphSchema) :=
  [⟨callerMoment, .getLlmInstance 2 (some ⟨some (some "claude"), some "sk-bob"⟩)⟩,
    ⟨callerMoment, .getCachedBoundLlm "general_memory" bobsClaude⟩]

/-- The first models of a run of Alice's that goes on to the research executor. -/
def aliceUses : List ModelUse :=
  [⟨getLlmInstance 1 (some aliceConfig), some .supervisorRouterOutput⟩, transformUse]

/-- The process in which Alice's run asks for its model number `i`. -/
def aliceProcess (earlier : List (LlmRequest GraphSchema)) (i : ℕ) : Process where
  requests := earlier ++ (aliceUses.take i).map fun use => ⟨callerMoment, use.call⟩
  moment := callerMoment

/-- Bob has left nothing in the entries of Alice's models. -/
theorem untaken_aliceProcess (i : ℕ) {use : ModelUse} (huse : use.model.config = some aliceConfig) :
    callerDigests.graphFactory.Untaken .claude "sk-alice" (aliceProcess bobsRequests i) use := by
  obtain ⟨made, hmade, -, hkey⟩ := isCallers_of_config systemSettings names_aliceConfig huse
  refine GraphFactory.untaken_of_requests hmade hkey (by decide) fun b hb left hleft hdigest => ?_
  rcases List.mem_append.1 hb with hb | hb
  · obtain rfl : bobsClaude = left := by
      rcases List.mem_cons.1 hb with rfl | hb
      · exact GraphFactory.base_of_fresh rfl hleft
      · obtain rfl := List.mem_singleton.1 hb
        exact GraphFactory.base_of_fresh rfl hleft
    exact absurd hdigest (by decide)
  · obtain ⟨asked, hasked, rfl⟩ := List.mem_map.1 hb
    rcases List.mem_cons.1 (List.mem_of_mem_take hasked) with rfl | hasked
    · rw [← GraphFactory.base_of_fresh rfl hleft]
      exact ⟨rfl, rfl⟩
    · obtain rfl := List.mem_singleton.1 hasked
      rw [← GraphFactory.base_of_fresh rfl hleft] at hdigest
      exact absurd hdigest (by decide)

/-- Nothing is left for the query of Alice's run in a new process. -/
theorem entry_aliceProcess : callerDigests.graphFactory.entry (aliceProcess [] 1) transformUse
    (systemInstance asciiTexts systemSettings) = none := by
  refine Option.eq_none_iff_forall_ne_some.2 fun left hleft => ?_
  obtain ⟨hdigest, b, hb, hmade⟩ := GraphFactory.request_of_entry rfl (by decide) hleft
  obtain rfl := List.mem_singleton.1 hb
  -- There is only the model of the supervisor, and its key has another digest.
  rw [← GraphFactory.base_of_fresh rfl hmade] at hdigest
  exact absurd hdigest (by decide)

/-- Alice's question. -/
def aliceStart : Config := startTurn .empty ⟨"alice", "s1", "What makes the tides?"⟩

/-- The worlds of a run that goes on from some requests of others: the supervisor picks a
lane, and the executor answers. -/
def laneInputs (earlier : List (LlmRequest GraphSchema)) (lane : String) :
    List (Env × (ℕ → Process)) :=
  [({ Env.routing ⟨lane, "low", [], ""⟩ with config := aliceConfig }, aliceProcess earlier),
    ({ Env.silent with config := aliceConfig }, fun i => aliceProcess earlier (1 + i)),
    ({ Env.saying "The moon." [] with config := aliceConfig }, fun i =>
      aliceProcess earlier (1 + i))]

/-- The events of a run over some inputs. -/
def eventsOf (rt : Runtime) : Config → List (Env × (ℕ → Process)) → List RunEvent
  | _, [] => []
  | c, input :: inputs =>
      ⟨c, input, step rt input.1 c⟩ ::
        eventsOf rt ((step rt input.1 c).toOption.getD ⟨none, c.state⟩) inputs

/-- A run goes on as long as it is not over. -/
theorem trace_eventsOf {rt : Runtime} {inputs : List (Env × (ℕ → Process))} {c : Config}
    (h : ∀ e ∈ eventsOf rt c inputs, e.before.next ≠ none ∧ e.input.1.config = config) :
    ∃ c', Trace (RunStep rt config) c (eventsOf rt c inputs) c' := by
  induction inputs generalizing c with
  | nil => exact ⟨c, .nil c⟩
  | cons input inputs ih =>
      rw [eventsOf, List.forall_mem_cons] at h
      obtain ⟨c', ht⟩ := ih h.2
      exact ⟨c', .cons ⟨h.1.1, h.1.2, rfl, rfl⟩ ht⟩

theorem input_mem_of_mem_eventsOf {rt : Runtime} {inputs : List (Env × (ℕ → Process))}
    {c : Config} {e : RunEvent} (he : e ∈ eventsOf rt c inputs) : e.input ∈ inputs := by
  induction inputs generalizing c with
  | nil => exact absurd he List.not_mem_nil
  | cons input inputs ih =>
      rcases List.mem_cons.1 he with rfl | he
      · exact List.mem_cons_self
      · exact List.mem_cons_of_mem _ (ih he)

/-- Alice's run in a lane. -/
def laneRun (earlier : List (LlmRequest GraphSchema)) (lane : String) : List RunEvent :=
  eventsOf .plain aliceStart (laneInputs earlier lane)

theorem nodes_general (earlier : List (LlmRequest GraphSchema)) :
    (laneRun earlier "general_memory").map (fun e => e.before.next)
      = [some .supervisorRouter, some .directExecutorInit, some (.executor .generalMemory)] := by
  rfl

theorem nodes_research (earlier : List (LlmRequest GraphSchema)) :
    (laneRun earlier "research_papers").map (fun e => e.before.next)
      = [some .supervisorRouter, some .directExecutorInit, some (.executor .researchPapers)] := by
  rfl

/-- The inputs of Alice's run. -/
theorem input_of_mem_laneRun {earlier : List (LlmRequest GraphSchema)} {lane : String}
    {e : RunEvent} (he : e ∈ laneRun earlier lane) :
    e.input.1.config = aliceConfig ∧ ∀ i, ∃ j, e.input.2 i = aliceProcess earlier j := by
  have hmem := input_mem_of_mem_eventsOf he
  simp only [laneInputs, List.mem_cons, List.not_mem_nil, or_false] at hmem
  rcases hmem with h | h | h <;> rw [h] <;> exact ⟨rfl, fun i => ⟨_, rfl⟩⟩

/-- A run of Alice's that does not end early is a run. -/
theorem trace_laneRun (earlier : List (LlmRequest GraphSchema)) (lane : String)
    (hnext : none ∉ (laneRun earlier lane).map fun e => e.before.next) :
    ∃ c', Trace (RunStep .plain aliceConfig) aliceStart (laneRun earlier lane) c' := by
  refine trace_eventsOf fun e he => ⟨fun hnone => hnext ?_, (input_of_mem_laneRun he).1⟩
  exact hnone ▸ List.mem_map_of_mem he

/-- A run that asks the general agent has Alice's models only, also where Bob has asked
before. -/
theorem general_run_has_alices_models :
    ∃ es c', Trace (RunStep .plain aliceConfig) aliceStart es c' ∧ es.length = 3 ∧
      ∀ e ∈ es, CallsWith callerDigests.graphFactory .claude "sk-alice" e := by
  obtain ⟨c', ht⟩ := trace_laneRun bobsRequests "general_memory"
    (by rw [nodes_general]; decide)
  refine ⟨_, c', ht, rfl, (callers_models_iff names_aliceConfig ht).2 fun e he => ?_⟩
  obtain ⟨hconfig, hprocess⟩ := input_of_mem_laneRun he
  have hmem : e.before.next ∈ [some .supervisorRouter, some .directExecutorInit,
      some (.executor .generalMemory)] := by
    rw [← nodes_general bobsRequests]
    exact List.mem_map_of_mem he
  have hgeneral : e.before.next ≠ some (.executor .researchPapers) := fun h =>
    absurd (h ▸ hmem) (by decide)
  refine ⟨fun n hnext i use huse => ?_, fun hnext => absurd hnext hgeneral⟩
  rcases config_of_nodeUses huse with hm | ⟨rfl, -⟩
  · obtain ⟨j, hj⟩ := hprocess i
    rw [hj]
    exact untaken_aliceProcess j (hm.trans (congrArg some hconfig))
  · exact absurd hnext hgeneral

/-- The query of a question about papers is made by the process's own model. -/
theorem query_by_system_model : ¬ ∀ (rt : Runtime) (f : GraphFactory) (config : RunnableConfig)
    (p : Provider) (key : String) (thread : AgentState) (request : ChatRequest)
    (es : List RunEvent) (c' : Config), Names f.toTexts config p key →
    Trace (RunStep rt config) (startTurn thread request) es c' →
    ∀ e ∈ es, CallsWith f p key e := by
  intro h
  obtain ⟨c', ht⟩ := trace_laneRun [] "research_papers" (by rw [nodes_research]; decide)
  obtain ⟨e, he, hnext, hinput⟩ : ∃ e ∈ laneRun [] "research_papers",
      e.before.next = some (.executor .researchPapers) ∧ e.input.2 0 = aliceProcess [] 1 :=
    ⟨_, List.mem_cons_of_mem _ (List.mem_cons_of_mem _ List.mem_cons_self), rfl, rfl⟩
  have hcalls := h .plain callerDigests.graphFactory _ _ _ _ _ _ _ names_aliceConfig ht e he _
    hnext 0 transformUse rfl
  rw [hinput, GraphFactory.servesCaller_iff instanceOf?_transformModel,
    isCallers_systemInstance] at hcalls
  exact absurd (hcalls.2 entry_aliceProcess).1 (by decide)

end Llm
end CognitiveEngine
