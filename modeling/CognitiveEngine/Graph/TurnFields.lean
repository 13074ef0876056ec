/-
# Which fields a turn reads

The checkpointer restores every channel of `AgentState`, so what a turn finds in a
field it has not written itself is what an earlier turn of the thread left there.
`initial_state` resets most of the fields; `critic_feedback`, `needs_rework`,
`raw_executor_output` and `extracted_findings` are left to the nodes.

A run is followed here together with the fields written so far, in the turn and on
the whole thread.  `no_field_leaks` is definite assignment for the graph: whatever
the node about to run, or the router after it, reads was written in the turn; the
one key without a channel, `objective`, is never written on any thread.  That the
list of what is read is complete is said without it as well: two states that agree
on the messages and on what the turn has written make the same superstep.
-/

import CognitiveEngine.Graph.Runs

namespace CognitiveEngine
namespace Graph

open Machine

/-- The keys of the state that nodes and routers read, `messages` apart. -/
inductive Key where
  | userId | sessionId | currentDomain | complexity | requiredAgents | objective
  | tasks | currentTaskId | iterationCount | toolCallCount | actionHistory | reworkCount
  | criticFeedback | needsRework | rawExecutorOutput | extractedFindings
  deriving DecidableEq

/-- The key is one of `AgentState`, so that the graph has a channel for it. -/
def Key.hasChannel (k : Key) : Bool := k ≠ .objective

/-- The dictionary a node returned has the key. -/
def StateUpdate.has (u : StateUpdate) : Key → Bool
  | .userId => u.userId.isSome
  | .sessionId => u.sessionId.isSome
  | .currentDomain => u.currentDomain.isSome
  | .complexity => u.complexity.isSome
  | .requiredAgents => u.requiredAgents.isSome
  | .objective => u.objective.isSome
  | .tasks => u.tasks.isSome
  | .currentTaskId => u.currentTaskId.isSome
  | .iterationCount => u.iterationCount.isSome
  | .toolCallCount => u.toolCallCount.isSome
  | .actionHistory => u.actionHistory.isSome
  | .reworkCount => u.reworkCount.isSome
  | .criticFeedback => u.criticFeedback.isSome
  | .needsRework => u.needsRework.isSome
  | .rawExecutorOutput => u.rawExecutorOutput.isSome
  | .extractedFindings => u.extractedFindings.isSome

/-- The merge of what a node returned writes the field. -/
def StateUpdate.Writes (u : StateUpdate) (k : Key) : Prop := k.hasChannel ∧ u.has k

/-- The two states have the same value in a field. -/
def AgentState.SameAt (s s' : AgentState) : Key → Prop
  | .userId => s.userId = s'.userId
  | .sessionId => s.sessionId = s'.sessionId
  | .currentDomain => s.currentDomain = s'.currentDomain
  | .complexity => s.complexity = s'.complexity
  | .requiredAgents => s.requiredAgents = s'.requiredAgents
  | .objective => True
  | .tasks => s.tasks = s'.tasks
  | .currentTaskId => s.currentTaskId = s'.currentTaskId
  | .iterationCount => s.iterationCount = s'.iterationCount
  | .toolCallCount => s.toolCallCount = s'.toolCallCount
  | .actionHistory => s.actionHistory = s'.actionHistory
  | .reworkCount => s.reworkCount = s'.reworkCount
  | .criticFeedback => s.criticFeedback = s'.criticFeedback
  | .needsRework => s.needsRework = s'.needsRework
  | .rawExecutorOutput => s.rawExecutorOutput = s'.rawExecutorOutput
  | .extractedFindings => s.extractedFindings = s'.extractedFindings

/-- The two states agree on the messages and on some fields. -/
structure AgentState.AgreesOn (P : Key → Prop) (s s' : AgentState) : Prop where
  messages : s.messages = s'.messages
  fields : ∀ k, P k → s.SameAt s' k

/-! ### Reads -/

/-- The keys a node reads with `state.get`. -/
def nodeReads : Node → List Key
  | .supervisorRouter => []
  | .planner => [.objective, .requiredAgents, .currentDomain]
  | .directExecutorInit => [.objective, .currentDomain]
  | .executor _ => [.userId, .currentDomain, .tasks, .currentTaskId, .iterationCount]
  | .actionTracker => [.actionHistory, .toolCallCount]
  | .tools => []
  | .findingExtractor => []
  | .criticAgent => [.objective, .rawExecutorOutput, .extractedFindings, .actionHistory]
  | .reflectionAgent => [.criticFeedback, .rawExecutorOutput, .reworkCount]
  | .taskManager => [.tasks, .currentTaskId, .rawExecutorOutput, .extractedFindings]
  | .finalSynthesizer => [.objective, .tasks, .iterationCount, .currentDomain]

/-- The keys the router behind a node reads. -/
def routerReads : Node → List Key
  | .supervisorRouter => [.complexity]
  | .planner | .directExecutorInit => [.tasks, .currentDomain]
  | .executor _ => [.sessionId, .currentDomain, .iterationCount, .toolCallCount, .actionHistory]
  | .tools => [.currentDomain]
  | .reflectionAgent => [.needsRework, .reworkCount, .currentDomain]
  | .taskManager => [.currentTaskId, .tasks, .currentDomain]
  | .actionTracker | .findingExtractor | .criticAgent | .finalSynthesizer => []

section Reads

variable {rt : Runtime} {env : Env} {s s' : AgentState}

theorem executorNode_congr (p : ExecutorProfile)
    (h : s.AgreesOn (· ∈ nodeReads (.executor .generalMemory)) s')
    (hq : p.query env s = p.query env s') : executorNode p rt env s = executorNode p rt env s' := by
  have hm : s.messages = s'.messages := h.messages
  have hu : s.userId = s'.userId := h.fields .userId (by decide)
  have hd : s.currentDomain = s'.currentDomain := h.fields .currentDomain (by decide)
  have ht : s.tasks = s'.tasks := h.fields .tasks (by decide)
  have hc : s.currentTaskId = s'.currentTaskId := h.fields .currentTaskId (by decide)
  have hi : s.iterationCount = s'.iterationCount := h.fields .iterationCount (by decide)
  simp only [executorNode, executorUpdate, ExecutorProfile.model, ExecutorProfile.prompt,
    ExecutorProfile.compiledMessages, ExecutorProfile.context, ExecutorProfile.domain,
    buildTaskContext, activeTask, hm, hu, hd, ht, hc, hi, hq]

/-- **What a node does is decided by the messages and the keys it reads.** -/
theorem runNode_congr {n : Node} (h : s.AgreesOn (· ∈ nodeReads n) s') :
    runNode rt env n s = runNode rt env n s' := by
  have hm : s.messages = s'.messages := h.messages
  have hprompt : s.userInitialPrompt = s'.userInitialPrompt := by
    simp only [AgentState.userInitialPrompt, hm]
  cases n with
  | supervisorRouter =>
      simp only [runNode, nodeSupervisorRouter, lastMessage, hm]
  | planner =>
      have ha : s.requiredAgents = s'.requiredAgents := h.fields .requiredAgents (by decide)
      have hd : s.currentDomain = s'.currentDomain := h.fields .currentDomain (by decide)
      simp only [runNode, nodePlannerAgent, planTasks, plannerPrompt, agentsStr,
        AgentState.getObjective, hprompt, ha, hd]
  | directExecutorInit =>
      have hd : s.currentDomain = s'.currentDomain := h.fields .currentDomain (by decide)
      simp only [runNode, nodeDirectExecutorInit, AgentState.getObjective, hprompt, hd]
  | executor l =>
      cases l with
      | generalMemory => exact congrArg Except.ok (executorNode_congr generalProfile h hprompt)
      | researchPapers =>
          exact congrArg Except.ok (executorNode_congr researchProfile h
            (congrArg (transformUserQuery env) hprompt))
      | visionDetection => exact congrArg Except.ok (executorNode_congr visionProfile h hprompt)
  | actionTracker =>
      have ha : s.actionHistory = s'.actionHistory := h.fields .actionHistory (by decide)
      have hc : s.toolCallCount = s'.toolCallCount := h.fields .toolCallCount (by decide)
      simp only [runNode, actionTrackerNode, lastMessage, hm, ha, hc]
  | tools => simp only [runNode, toolNode, lastMessage, hm]
  | findingExtractor => simp only [runNode, nodeFindingExtractor, lastMessage, hm]
  | criticAgent =>
      have hr : s.rawExecutorOutput = s'.rawExecutorOutput := h.fields .rawExecutorOutput (by decide)
      have hf : s.extractedFindings = s'.extractedFindings := h.fields .extractedFindings (by decide)
      have ha : s.actionHistory = s'.actionHistory := h.fields .actionHistory (by decide)
      simp only [runNode, nodeCriticAgent, rawOrLast, lastMessage, criticPrompt,
        AgentState.getObjective, hm, hr, hf, ha]
  | reflectionAgent =>
      have hr : s.rawExecutorOutput = s'.rawExecutorOutput := h.fields .rawExecutorOutput (by decide)
      have hf : s.criticFeedback = s'.criticFeedback := h.fields .criticFeedback (by decide)
      have hw : s.reworkCount = s'.reworkCount := h.fields .reworkCount (by decide)
      have hpayload : rawOrLast s = rawOrLast s' := by
        simp only [rawOrLast, lastMessage, hm, hr]
      have hask : ∀ payload, reflectionPrompt s payload = reflectionPrompt s' payload := by
        intro payload
        simp only [reflectionPrompt, hf]
      have hupdate : ∀ verdict, reflectionUpdate s verdict = reflectionUpdate s' verdict := by
        intro verdict
        simp only [reflectionUpdate, hw]
      simp only [runNode, nodeReflectionAgent, hpayload, hask, hupdate]
  | taskManager =>
      have ht : s.tasks = s'.tasks := h.fields .tasks (by decide)
      have hc : s.currentTaskId = s'.currentTaskId := h.fields .currentTaskId (by decide)
      have hr : s.rawExecutorOutput = s'.rawExecutorOutput := h.fields .rawExecutorOutput (by decide)
      have hf : s.extractedFindings = s'.extractedFindings := h.fields .extractedFindings (by decide)
      simp only [runNode, nodeTaskManager, taskManagerUpdate, completeCurrent, rawOrLast,
        lastMessage, hm, ht, hc, hr, hf]
  | finalSynthesizer =>
      have ht : s.tasks = s'.tasks := h.fields .tasks (by decide)
      simp only [runNode, nodeFinalSynthesizer, synthesisPrompt, AgentState.getObjective, hm, ht]

/-- **Where an edge leads is decided by the messages and the keys its router reads.** -/
theorem follow_congr {n : Node} (h : s.AgreesOn (· ∈ routerReads n) s') :
    (edge rt n).follow s = (edge rt n).follow s' := by
  have hm : s.messages = s'.messages := h.messages
  cases n with
  | supervisorRouter =>
      have hc : s.complexity = s'.complexity := h.fields .complexity (by decide)
      simp only [edge, Edge.follow, routeFromSupervisor, hc]
  | planner | directExecutorInit =>
      have ht : s.tasks = s'.tasks := h.fields .tasks (by decide)
      have hd : s.currentDomain = s'.currentDomain := h.fields .currentDomain (by decide)
      simp only [edge, Edge.follow, routeFromPlanner, AgentState.domain, ht, hd]
  | executor l =>
      have hi : s.iterationCount = s'.iterationCount := h.fields .iterationCount (by simp [routerReads])
      have hc : s.toolCallCount = s'.toolCallCount := h.fields .toolCallCount (by simp [routerReads])
      have ha : s.actionHistory = s'.actionHistory := h.fields .actionHistory (by simp [routerReads])
      have hhooks : toolHooks rt s = toolHooks rt s' := by
        funext last
        simp only [toolHooks, hi, hc, ha]
      simp only [edge, Edge.follow, evaluateToolHooks, lastMessage, hm, hhooks]
  | tools =>
      have hd : s.currentDomain = s'.currentDomain := h.fields .currentDomain (by decide)
      simp only [edge, Edge.follow, routeBackToAgent, AgentState.domain, hd]
  | reflectionAgent =>
      have hr : s.needsRework = s'.needsRework := h.fields .needsRework (by decide)
      have hw : s.reworkCount = s'.reworkCount := h.fields .reworkCount (by decide)
      have hd : s.currentDomain = s'.currentDomain := h.fields .currentDomain (by decide)
      simp only [edge, Edge.follow, routeFromReflection, AgentState.domain, hr, hw, hd]
  | taskManager =>
      have hc : s.currentTaskId = s'.currentTaskId := h.fields .currentTaskId (by decide)
      have ht : s.tasks = s'.tasks := h.fields .tasks (by decide)
      have hd : s.currentDomain = s'.currentDomain := h.fields .currentDomain (by decide)
      simp only [edge, Edge.follow, routeFromTaskManager, AgentState.domain, hc, ht, hd]
  | actionTracker | findingExtractor | criticAgent | finalSynthesizer => rfl

/-- Merging keeps a field equal, or writes it. -/
theorem sameAt_merge {k : Key} (u : StateUpdate) (h : u.has k = false → s.SameAt s' k) :
    (s.merge u).SameAt (s'.merge u) k := by
  have hor : ∀ {α : Type} (o : Option α) {a b : Option α}, (o.isSome = false → a = b) →
      o.or a = o.or b := by
    intro α o a b hab
    cases o with
    | none => exact hab rfl
    | some x => rfl
  have hgetD : ∀ {α : Type} (o : Option α) {a b : α}, (o.isSome = false → a = b) →
      o.getD a = o.getD b := by
    intro α o a b hab
    cases o with
    | none => exact hab rfl
    | some x => rfl
  cases k with
  | userId | sessionId | currentDomain | complexity | requiredAgents | criticFeedback
  | needsRework => exact hor _ h
  | tasks | currentTaskId | iterationCount | toolCallCount | actionHistory | reworkCount
  | rawExecutorOutput | extractedFindings => exact hgetD _ h
  | objective => trivial

/-- Merging keeps the agreement and extends it to what is written. -/
theorem AgentState.AgreesOn.merge {P : Key → Prop} (h : s.AgreesOn P s') (u : StateUpdate) :
    (s.merge u).AgreesOn (fun k => P k ∨ u.Writes k) (s'.merge u) := by
  refine ⟨by simp only [AgentState.merge, h.messages], fun k hk => sameAt_merge u fun hno => ?_⟩
  rcases hk with hk | hk
  · exact h.fields k hk
  · exact absurd hk.2 (Bool.eq_false_iff.1 hno)

end Reads

/-! ### What has been written -/

/-- Where a run is, with the fields written so far in its turn and on its thread. -/
structure Ledger where
  config : Config
  turn : Key → Prop
  thread : Key → Prop

/-- A new request on a thread: `initial_state` is what the turn has written. -/
def openLedger (thread : AgentState) (written : Key → Prop) (request : ChatRequest) : Ledger where
  config := startTurn thread request
  turn := (initialState request).Writes
  thread := fun k => written k ∨ (initialState request).Writes k

/-- A superstep or the start of a turn, with what it writes. -/
inductive LedgerStep (rt : Runtime) : Ledger → Ledger → Prop
  | step {n : Node} {s : AgentState} (turn thread : Key → Prop) (env : Env) (u : StateUpdate)
      (hu : runNode rt env n s = .ok u) (next : Option Node)
      (hnext : (edge rt n).follow (s.merge u) = .ok next) :
      LedgerStep rt ⟨⟨some n, s⟩, turn, thread⟩
        ⟨⟨next, s.merge u⟩, fun k => turn k ∨ u.Writes k, fun k => thread k ∨ u.Writes k⟩
  | turn (l : Ledger) (request : ChatRequest) :
      LedgerStep rt l (openLedger l.config.state l.thread request)

/-- The first turn of a thread, on which nothing has been written. -/
def FirstLedger (l : Ledger) : Prop := ∃ request, l = openLedger .empty (fun _ => False) request

/-- A run of a thread with what is written along it. -/
def LedgerHistory (rt : Runtime) : List Ledger → Prop := History FirstLedger (LedgerStep rt)

/-- Every run of a thread has a ledger. -/
theorem exists_ledger {rt : Runtime} {h : List Config} (hh : ThreadHistory rt h) :
    ∃ g, LedgerHistory rt g ∧ g.map Ledger.config = h := by
  induction hh with
  | start hs =>
      obtain ⟨request, rfl⟩ := hs
      exact ⟨_, .start ⟨request, rfl⟩, rfl⟩
  | next hh hR ih =>
      obtain ⟨_ | ⟨l, g⟩, hg, hconfig⟩ := ih
      · cases hconfig
      · obtain ⟨rfl, rfl⟩ := List.cons.inj hconfig
        cases hR with
        | turn request => exact ⟨_, .next hg (.turn l request), rfl⟩
        | step hs =>
            obtain ⟨hne, env, hok⟩ := hs
            obtain ⟨⟨_ | n, s⟩, turn, thread⟩ := l
            · exact absurd rfl hne
            · obtain ⟨u, hu, next, hnext, rfl⟩ := step_eq_ok_iff.1 hok
              exact ⟨_, .next hg (.step turn thread env u hu next hnext), rfl⟩

/-! ### Definite assignment -/

/-- The keys of `initial_state`. -/
def initialKeys : List Key :=
  [.userId, .sessionId, .currentDomain, .complexity, .requiredAgents, .tasks, .currentTaskId,
    .iterationCount, .toolCallCount, .actionHistory, .reworkCount]

/-- The other keys that are written in a turn before a node runs. -/
def assignedBefore : Option Node → List Key
  | some .criticAgent => [.rawExecutorOutput, .extractedFindings]
  | some .reflectionAgent => [.rawExecutorOutput, .extractedFindings, .criticFeedback]
  | some .taskManager => [.rawExecutorOutput, .extractedFindings]
  | _ => []

/-- The keys a node always writes, of those `initial_state` leaves out. -/
def assignedBy : Node → List Key
  | .findingExtractor => [.rawExecutorOutput, .extractedFindings]
  | .criticAgent => [.criticFeedback]
  | .reflectionAgent => [.needsRework]
  | _ => []

theorem writes_assignedBy {rt : Runtime} {env : Env} {n : Node} {s : AgentState} {u : StateUpdate}
    (h : runNode rt env n s = .ok u) : ∀ k ∈ assignedBy n, u.Writes k := by
  cases n with
  | findingExtractor =>
      obtain ⟨last, -, hu⟩ := bind_eq_ok_iff.1 h
      obtain rfl := Except.ok.inj hu
      cases (env.extractor _ (extractionPrompt last.content)).output <;>
        simp [assignedBy, StateUpdate.Writes, StateUpdate.has, extractionUpdate, Key.hasChannel]
  | criticAgent =>
      obtain ⟨payload, -, hu⟩ := bind_eq_ok_iff.1 h
      obtain rfl := Except.ok.inj hu
      simp [assignedBy, StateUpdate.Writes, StateUpdate.has, Key.hasChannel]
  | reflectionAgent =>
      obtain ⟨payload, -, hu⟩ := bind_eq_ok_iff.1 h
      obtain rfl := Except.ok.inj hu
      simp [assignedBy, StateUpdate.Writes, StateUpdate.has, Key.hasChannel, reflectionUpdate]
  | supervisorRouter | planner | directExecutorInit | executor | actionTracker | tools
  | taskManager | finalSynthesizer => simp [assignedBy]

/-- What has been written before a node is what was written before the node that handed
over to it, or by that node. -/
theorem Transition.assignedBefore {rt : Runtime} {c c' : Config} (h : Transition rt c c') :
    ∀ k ∈ assignedBefore c'.next,
      k ∈ Graph.assignedBefore c.next ∨ ∃ n, c.next = some n ∧ k ∈ assignedBy n := by
  cases h with
  | supervise s domain complexity =>
      by_cases hc : complexity = "low" <;> simp [Graph.assignedBefore, hc]
  | extract | criticize | exhaust | accept => simp [Graph.assignedBefore, assignedBy]
  | plan | initDirect | dispatch | conclude | track | callTools | rework | dismiss | advance
  | finish | synthesize => simp [Graph.assignedBefore]

/-- The invariant: `initial_state` and the nodes before have written what they do, and
nothing writes a key without a channel. -/
structure Ledger.Assigned (l : Ledger) : Prop where
  initial : ∀ k ∈ initialKeys, l.turn k
  before : ∀ k ∈ assignedBefore l.config.next, l.turn k
  channels : ∀ k, l.thread k → k.hasChannel

theorem assigned_openLedger (thread : AgentState) {written : Key → Prop}
    (hw : ∀ k, written k → k.hasChannel) (request : ChatRequest) :
    (openLedger thread written request).Assigned := by
  refine ⟨?_, fun k hk => absurd hk List.not_mem_nil, ?_⟩
  · simp [initialKeys, openLedger, StateUpdate.Writes, StateUpdate.has, Key.hasChannel,
      initialState]
  · rintro k (hk | hk)
    · exact hw k hk
    · exact hk.1

theorem Ledger.Assigned.step {rt : Runtime} {l l' : Ledger} (hl : l.Assigned)
    (h : LedgerStep rt l l') : l'.Assigned := by
  cases h with
  | turn _ request => exact assigned_openLedger _ hl.channels request
  | @step n s turn thread env u hu next hnext =>
      have hs : Step rt ⟨some n, s⟩ ⟨next, s.merge u⟩ :=
        ⟨by simp, env, step_eq_ok_iff.2 ⟨u, hu, next, hnext, rfl⟩⟩
      refine ⟨fun k hk => .inl (hl.initial k hk), fun k hk => ?_, ?_⟩
      · rcases hs.transition.assignedBefore k hk with hbefore | ⟨n', hn', hby⟩
        · exact .inl (hl.before k hbefore)
        · obtain rfl := Option.some.inj hn'
          exact .inr (writes_assignedBy hu k hby)
      · rintro k (hk | hk)
        · exact hl.channels k hk
        · exact hk.1

/-- What a node reads has a place among what is written before it. -/
theorem mem_of_mem_nodeReads {n : Node} {k : Key} (hk : k ∈ nodeReads n) :
    k = .objective ∨ k ∈ initialKeys ∨ k ∈ assignedBefore (some n) := by
  revert k
  cases n <;> simp [nodeReads, initialKeys, assignedBefore]

/-- What a router reads has a place among what is written before it and by its node. -/
theorem mem_of_mem_routerReads {n : Node} {k : Key} (hk : k ∈ routerReads n) :
    k ∈ initialKeys ∨ k ∈ assignedBy n := by
  revert k
  cases n <;> simp [routerReads, initialKeys, assignedBy]

/-- Nothing an earlier turn left in a field reaches the superstep about to be made: what
the node and its router read was written in this turn, or never on this thread; and every
state that agrees on the messages and on what this turn has written makes the same
superstep. -/
structure Ledger.NoLeak (rt : Runtime) (l : Ledger) : Prop where
  node : ∀ n, l.config.next = some n → ∀ k ∈ nodeReads n, l.turn k ∨ ¬ l.thread k
  router : ∀ n env u, l.config.next = some n → runNode rt env n l.config.state = .ok u →
    ∀ k ∈ routerReads n, (l.turn k ∨ u.Writes k) ∨ ¬ (l.thread k ∨ u.Writes k)
  update : ∀ n env s, l.config.next = some n → l.config.state.AgreesOn l.turn s →
    runNode rt env n l.config.state = runNode rt env n s
  route : ∀ n env s u, l.config.next = some n → l.config.state.AgreesOn l.turn s →
    runNode rt env n l.config.state = .ok u →
    (edge rt n).follow (l.config.state.merge u) = (edge rt n).follow (s.merge u)

theorem Ledger.Assigned.noLeak {rt : Runtime} {l : Ledger} (hl : l.Assigned) : l.NoLeak rt := by
  obtain ⟨⟨next, s⟩, turn, thread⟩ := l
  have hnode : ∀ n, next = some n → ∀ k ∈ nodeReads n, k = .objective ∨ turn k := by
    rintro n rfl k hk
    rcases mem_of_mem_nodeReads hk with h | h | h
    · exact .inl h
    · exact .inr (hl.initial k h)
    · exact .inr (hl.before k h)
  have hrouter : ∀ n env u, runNode rt env n s = .ok u → ∀ k ∈ routerReads n,
      turn k ∨ u.Writes k := by
    intro n env u hu k hk
    rcases mem_of_mem_routerReads hk with h | h
    · exact .inl (hl.initial k h)
    · exact .inr (writes_assignedBy hu k h)
  constructor
  · intro n hn k hk
    rcases hnode n hn k hk with rfl | h
    · exact .inr fun hk => absurd (hl.channels _ hk) (by decide)
    · exact .inl h
  · intro n env u _ hu k hk
    exact .inl (hrouter n env u hu k hk)
  · intro n env s' hn ha
    refine runNode_congr ⟨ha.messages, fun k hk => ?_⟩
    rcases hnode n hn k hk with rfl | h
    · trivial
    · exact ha.fields k h
  · intro n env s' u _ ha hu
    have hmerge := ha.merge u
    exact follow_congr ⟨hmerge.messages, fun k hk => hmerge.fields k (hrouter n env u hu k hk)⟩

/-- **No field leaks from one turn into the next.**  Every run of a thread, any number of
turns long and with any outcome of each model call, can be followed with a ledger; and at
every state of every ledger each node and router reads only fields written in the turn it
runs in, or never on the thread. -/
theorem no_field_leaks (rt : Runtime) :
    (∀ h, ThreadHistory rt h → ∃ g, LedgerHistory rt g ∧ g.map Ledger.config = h) ∧
      ∀ g, LedgerHistory rt g → ∀ l ∈ g, l.NoLeak rt := by
  refine ⟨fun h hh => exists_ledger hh, fun g hg l hl => ?_⟩
  have hassigned : ∀ l ∈ g, l.Assigned := by
    refine History.forall_mem ?_ (fun _ _ ha hs => ha.step hs) hg
    rintro _ ⟨request, rfl⟩
    exact assigned_openLedger _ (fun k hk => hk.elim) request
  exact (hassigned l hl).noLeak

end Graph
end CognitiveEngine
