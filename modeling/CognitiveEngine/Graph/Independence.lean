/-
# What the safeguards of a task depend on

A task can start in three ways: after the planner, after `direct_executor_init`,
or when `task_manager` advances.  The safeguards read four fields.  All three ways
reset `iteration_count`, `tool_call_count` and `rework_count`; `action_history` is
emptied by the first two only.  A later task of a plan therefore has its tool calls
checked against those of the tasks before it.

`Decides` runs one task on a given sequence of executor messages and verdicts and
records what the two guards decide.  Two task starts decide alike on every
sequence exactly when their action histories hold the same hashes
(`decisions_eq_iff`): alike histories give alike decisions by a simulation
(`Decides.unique`), and a hash only one of them holds is the hash of a call that
one turns down and the other dispatches (`exists_differing`).
-/

import CognitiveEngine.Graph.ToolBudget

namespace CognitiveEngine
namespace Graph

open Machine

/-- What the guards of a task decide: `evaluate_tool_hooks` the first two,
`route_from_reflection` the last two. -/
inductive Decision where
  | executeTools
  | extract
  | rework
  | advance
  deriving DecidableEq

/-- The decision of `evaluate_tool_hooks`, read off where the run goes. -/
def hookDecision (c' : Config) : Decision :=
  if c'.next = some .actionTracker then .executeTools else .extract

/-- The decision of `route_from_reflection`. -/
def reflectionDecision (c' : Config) : Decision :=
  if c'.next = some .taskManager then .advance else .rework

/-- The nodes no message or verdict is fed to. -/
def Config.quiet (c : Config) : Bool :=
  c.next = some .actionTracker || c.next = some .tools || c.next = some .findingExtractor ||
    c.next = some .criticAgent

theorem Config.not_atExecutor_of_quiet {c : Config} (hq : c.quiet) (he : c.atExecutor) : False := by
  obtain ⟨next, s⟩ := c
  simp only [Config.quiet, Bool.or_eq_true, decide_eq_true_eq] at hq
  rcases hq with ((rfl | rfl) | rfl) | rfl <;> exact Bool.false_ne_true he

/-- `Decides rt c A V D`: there is a run from `c` to the next visit of
`task_manager` in which the executors answer the messages of `A` and the
reflection gives the verdicts of `V`, one after the other, and the guards decide
`D`.  What is left of `A` and `V` at `task_manager` is not used. -/
inductive Decides (rt : Runtime) :
    Config → List (String × List ToolCall) → List Bool → List Decision → Prop
  | arrive {c : Config} (hn : c.next = some .taskManager) (A : List (String × List ToolCall))
      (V : List Bool) : Decides rt c A V []
  | quiet {c c' : Config} {A : List (String × List ToolCall)} {V : List Bool}
      {D : List Decision} (hq : c.quiet) (hs : Step rt c c') (hd : Decides rt c' A V D) :
      Decides rt c A V D
  | answer {c c' : Config} {content : String} {calls : List ToolCall}
      {A : List (String × List ToolCall)} {V : List Bool} {D : List Decision}
      (he : c.atExecutor) (hs : Step rt c c')
      (hm : c'.state.messages.last? = some (.ai content calls)) (hd : Decides rt c' A V D) :
      Decides rt c ((content, calls) :: A) V (hookDecision c' :: D)
  | verdict {c c' : Config} {b : Bool} {A : List (String × List ToolCall)} {V : List Bool}
      {D : List Decision} (hn : c.next = some .reflectionAgent) (hs : Step rt c c')
      (hv : c'.state.needsRework = some b) (hd : Decides rt c' A V D) :
      Decides rt c A (b :: V) (reflectionDecision c' :: D)

/-! ### The simulation -/

/-- The two states look alike to the guards. -/
structure SameGuards (s₁ s₂ : AgentState) : Prop where
  iterationCount : s₁.iterationCount = s₂.iterationCount
  toolCallCount : s₁.toolCallCount = s₂.toolCallCount
  reworkCount : s₁.reworkCount = s₂.reworkCount
  actionHistory : ∀ x, x ∈ s₁.actionHistory ↔ x ∈ s₂.actionHistory

/-- Two runs of a task are at the same point: the same node, or an executor each,
with states that look alike to the guards; at the tracker, with the same calls. -/
structure Alike (c₁ c₂ : Config) : Prop where
  node : c₁.next = c₂.next ∨ c₁.atExecutor ∧ c₂.atExecutor
  guards : SameGuards c₁.state c₂.state
  calls : c₁.next = some .actionTracker → c₁.lastCalls = c₂.lastCalls

theorem SameGuards.answered {s₁ s₂ : AgentState} (h : SameGuards s₁ s₂) (m₁ m₂ : Message) :
    SameGuards (s₁.answered m₁) (s₂.answered m₂) :=
  ⟨congrArg (· + 1) h.iterationCount, h.toolCallCount, h.reworkCount, h.actionHistory⟩

/-- The duplicate check looks for members only, so states that look alike dispatch
the same calls. -/
theorem SameGuards.dispatches_iff {rt : Runtime} {s₁ s₂ : AgentState} (h : SameGuards s₁ s₂)
    (calls : List ToolCall) : Dispatches rt s₁ calls ↔ Dispatches rt s₂ calls := by
  unfold Dispatches
  simp only [h.iterationCount, h.toolCallCount, h.actionHistory]

theorem SameGuards.tracked {rt : Runtime} {s₁ s₂ : AgentState} (h : SameGuards s₁ s₂)
    (calls : List ToolCall) : SameGuards (s₁.tracked rt calls) (s₂.tracked rt calls) := by
  refine ⟨h.iterationCount, congrArg (· + calls.length) h.toolCallCount, h.reworkCount, ?_⟩
  intro x
  simp only [AgentState.tracked, List.mem_append, h.actionHistory x]

/-- An executor fed a message hands over according to `Dispatches`. -/
theorem Step.of_executor {rt : Runtime} {c c' : Config} (hs : Step rt c c')
    (he : c.atExecutor) {content : String} {calls : List ToolCall}
    (hm : c'.state.messages.last? = some (.ai content calls)) :
    c' = ⟨some (if Dispatches rt (c.state.answered (.ai content calls)) calls
      then .actionTracker else .findingExtractor), c.state.answered (.ai content calls)⟩ := by
  cases hs.transition with
  | dispatch l s content' calls' hd =>
      rw [s.last?_answered] at hm
      obtain ⟨rfl, rfl⟩ := Message.ai.inj (Option.some.inj hm)
      rw [if_pos hd]
  | conclude l s content' calls' hd =>
      rw [s.last?_answered] at hm
      obtain ⟨rfl, rfl⟩ := Message.ai.inj (Option.some.inj hm)
      rw [if_neg hd]
  | supervise | plan | initDirect | track | callTools | extract | criticize | rework | exhaust
  | accept | dismiss | advance | finish | synthesize => exact absurd he Bool.false_ne_true

/-- The reflection fed a verdict hands over according to the rework counter. -/
theorem Step.of_reflection {rt : Runtime} {c c' : Config} (hs : Step rt c c')
    (hn : c.next = some .reflectionAgent) {b : Bool} (hv : c'.state.needsRework = some b) :
    ∃ advice, c' = ⟨some (if b = true ∧ c.state.reworkCount + 1 < maxReworkCycles
      then .executor (laneOf c.state.domain) else .taskManager), c.state.reflected b advice⟩ := by
  cases hs.transition with
  | rework s payload hp advice hr =>
      obtain rfl := Option.some.inj hv
      exact ⟨advice, by rw [if_pos ⟨rfl, hr⟩]⟩
  | exhaust s payload hp advice hr =>
      obtain rfl := Option.some.inj hv
      exact ⟨advice, by rw [if_neg fun h => absurd h.2 (Nat.not_lt.2 hr)]⟩
  | accept s payload hp advice =>
      obtain rfl := Option.some.inj hv
      exact ⟨advice, by rw [if_neg fun h => absurd h.1 Bool.false_ne_true]⟩
  | supervise | plan | initDirect | dispatch | conclude | track | callTools | extract | criticize
  | dismiss | advance | finish | synthesize => cases hn

theorem SameGuards.reflected {s₁ s₂ : AgentState} (h : SameGuards s₁ s₂) (b : Bool)
    (advice₁ advice₂ : String) :
    SameGuards (s₁.reflected b advice₁) (s₂.reflected b advice₂) := by
  refine ⟨h.iterationCount, h.toolCallCount, ?_, h.actionHistory⟩
  simp only [AgentState.reflected, h.reworkCount]

namespace Alike

/-- A node that is not an executor is the same in both runs. -/
theorem next_eq {c₁ c₂ : Config} (h : Alike c₁ c₂) {n : Node} (hn : c₁.next = some n)
    (hne : n.lane? = none) : c₂.next = some n := by
  rcases h.node with heq | ⟨he, _⟩
  · rw [← heq, hn]
  · rw [Config.atExecutor, Config.lane?, hn, Option.bind_some, hne] at he
    exact absurd he Bool.false_ne_true

/-- Runs that are alike stay alike through the nodes nothing is fed to. -/
theorem quiet {rt : Runtime} {c₁ c₂ c₁' c₂' : Config} (h : Alike c₁ c₂) (hq : c₁.quiet)
    (hs₁ : Step rt c₁ c₁') (hs₂ : Step rt c₂ c₂') : Alike c₁' c₂' := by
  cases hs₁.transition with
  | track s₁ last₁ hlast₁ =>
      have hn : c₂.next = some .actionTracker := h.next_eq rfl rfl
      cases hs₂.transition with
      | track s₂ last₂ hlast₂ =>
          have hcalls : last₁.toolCalls = last₂.toolCalls := by
            rw [← Config.lastCalls_of_last? (c := ⟨some .actionTracker, s₁⟩) hlast₁, h.calls rfl]
            exact Config.lastCalls_of_last? hlast₂
          rw [hcalls]
          exact ⟨.inl rfl, h.guards.tracked _, fun h => by cases h⟩
      | supervise | plan | initDirect | dispatch | conclude | callTools | extract | criticize
      | rework | exhaust | accept | dismiss | advance | finish | synthesize => cases hn
  | callTools s₁ content₁ calls₁ hlast₁ result₁ =>
      have hn : c₂.next = some .tools := h.next_eq rfl rfl
      cases hs₂.transition with
      | callTools s₂ content₂ calls₂ hlast₂ result₂ =>
          exact ⟨.inr ⟨rfl, rfl⟩, ⟨h.guards.1, h.guards.2, h.guards.3, h.guards.4⟩,
            fun h => by cases h⟩
      | supervise | plan | initDirect | dispatch | conclude | track | extract | criticize
      | rework | exhaust | accept | dismiss | advance | finish | synthesize => cases hn
  | extract s₁ last₁ hlast₁ summary₁ findings₁ =>
      have hn : c₂.next = some .findingExtractor := h.next_eq rfl rfl
      cases hs₂.transition with
      | extract s₂ last₂ hlast₂ summary₂ findings₂ =>
          exact ⟨.inl rfl, ⟨h.guards.1, h.guards.2, h.guards.3, h.guards.4⟩, fun h => by cases h⟩
      | supervise | plan | initDirect | dispatch | conclude | track | callTools | criticize
      | rework | exhaust | accept | dismiss | advance | finish | synthesize => cases hn
  | criticize s₁ payload₁ hp₁ feedback₁ =>
      have hn : c₂.next = some .criticAgent := h.next_eq rfl rfl
      cases hs₂.transition with
      | criticize s₂ payload₂ hp₂ feedback₂ =>
          exact ⟨.inl rfl, ⟨h.guards.1, h.guards.2, h.guards.3, h.guards.4⟩, fun h => by cases h⟩
      | supervise | plan | initDirect | dispatch | conclude | track | callTools | extract
      | rework | exhaust | accept | dismiss | advance | finish | synthesize => cases hn
  | supervise | plan | initDirect | dispatch | conclude | rework | exhaust | accept | dismiss
  | advance | finish | synthesize => exact absurd hq Bool.false_ne_true

/-- Executors fed the same message decide alike and stay alike. -/
theorem answer {rt : Runtime} {c₁ c₂ c₁' c₂' : Config} (h : Alike c₁ c₂) (he₁ : c₁.atExecutor)
    (he₂ : c₂.atExecutor) (hs₁ : Step rt c₁ c₁') (hs₂ : Step rt c₂ c₂') {content : String}
    {calls : List ToolCall} (hm₁ : c₁'.state.messages.last? = some (.ai content calls))
    (hm₂ : c₂'.state.messages.last? = some (.ai content calls)) :
    Alike c₁' c₂' ∧ hookDecision c₁' = hookDecision c₂' := by
  have hg := h.guards.answered (.ai content calls) (.ai content calls)
  rw [hs₁.of_executor he₁ hm₁, hs₂.of_executor he₂ hm₂]
  simp only [hg.dispatches_iff]
  refine ⟨⟨.inl rfl, hg, fun _ => ?_⟩, rfl⟩
  rw [Config.lastCalls_of_last? (AgentState.last?_answered _ _),
    Config.lastCalls_of_last? (AgentState.last?_answered _ _)]

/-- Reflections fed the same verdict decide alike and stay alike. -/
theorem verdict {rt : Runtime} {c₁ c₂ c₁' c₂' : Config} (h : Alike c₁ c₂)
    (hn₁ : c₁.next = some .reflectionAgent) (hn₂ : c₂.next = some .reflectionAgent)
    (hs₁ : Step rt c₁ c₁') (hs₂ : Step rt c₂ c₂') {b : Bool}
    (hv₁ : c₁'.state.needsRework = some b) (hv₂ : c₂'.state.needsRework = some b) :
    Alike c₁' c₂' ∧ reflectionDecision c₁' = reflectionDecision c₂' := by
  obtain ⟨advice₁, rfl⟩ := hs₁.of_reflection hn₁ hv₁
  obtain ⟨advice₂, rfl⟩ := hs₂.of_reflection hn₂ hv₂
  have hg := h.guards.reflected b advice₁ advice₂
  rw [h.guards.reworkCount]
  split_ifs
  · exact ⟨⟨.inr ⟨rfl, rfl⟩, hg, fun h => by cases h⟩, rfl⟩
  · exact ⟨⟨.inl rfl, hg, fun h => by cases h⟩, rfl⟩

end Alike

/-- **Runs that look alike to the guards are decided alike**, whatever their
tools, extractions and advice are. -/
theorem Decides.unique {rt : Runtime} {c₁ : Config} {A : List (String × List ToolCall)}
    {V : List Bool} {D₁ : List Decision} (h₁ : Decides rt c₁ A V D₁) :
    ∀ {c₂ : Config} {D₂ : List Decision}, Alike c₁ c₂ → Decides rt c₂ A V D₂ → D₁ = D₂ := by
  induction h₁ with
  | arrive hn A V =>
      intro c₂ D₂ ha h₂
      have hn₂ := ha.next_eq hn rfl
      cases h₂ with
      | arrive => rfl
      | quiet hq => simp [Config.quiet, hn₂] at hq
      | answer he => simp [Config.atExecutor, Config.lane?, hn₂, Node.lane?] at he
      | verdict hn => rw [hn₂] at hn; cases hn
  | @quiet c₁ c₁' A V D hq hs hd ih =>
      intro c₂ D₂ ha h₂
      have hq₂ : c₂.quiet := by
        rcases ha.node with heq | ⟨he, _⟩
        · rw [Config.quiet, ← heq]
          exact hq
        · exact (Config.not_atExecutor_of_quiet hq he).elim
      cases h₂ with
      | arrive hn => simp [Config.quiet, hn] at hq₂
      | quiet _ hs₂ hd₂ => exact ih (ha.quiet hq hs hs₂) hd₂
      | answer he => exact (Config.not_atExecutor_of_quiet hq₂ he).elim
      | verdict hn => simp [Config.quiet, hn] at hq₂
  | @answer c₁ c₁' content calls A V D he hs hm hd ih =>
      intro c₂ D₂ ha h₂
      have he₂ : c₂.atExecutor := by
        rcases ha.node with heq | ⟨_, he₂⟩
        · rw [Config.atExecutor, Config.lane?, ← heq]
          exact he
        · exact he₂
      cases h₂ with
      | arrive hn => simp [Config.atExecutor, Config.lane?, hn, Node.lane?] at he₂
      | quiet hq => exact (Config.not_atExecutor_of_quiet hq he₂).elim
      | answer _ hs₂ hm₂ hd₂ =>
          obtain ⟨ha', heq⟩ := ha.answer he he₂ hs hs₂ hm hm₂
          rw [heq, ih ha' hd₂]
      | verdict hn => simp [Config.atExecutor, Config.lane?, hn, Node.lane?] at he₂
  | @verdict c₁ c₁' b A V D hn hs hv hd ih =>
      intro c₂ D₂ ha h₂
      have hn₂ := ha.next_eq hn rfl
      cases h₂ with
      | arrive hn => rw [hn₂] at hn; cases hn
      | quiet hq => simp [Config.quiet, hn₂] at hq
      | answer he => simp [Config.atExecutor, Config.lane?, hn₂, Node.lane?] at he
      | verdict _ hs₂ hv₂ hd₂ =>
          obtain ⟨ha', heq⟩ := ha.verdict hn hn₂ hs hs₂ hv hv₂
          rw [heq, ih ha' hd₂]

/-! ### Task starts -/

/-- All three ways to start a task reset the counters. -/
theorem Transition.counters_reset {rt : Runtime} {c c' : Config} (h : Transition rt c c')
    (hm : TaskStart c c') :
    c'.state.iterationCount = 0 ∧ c'.state.toolCallCount = 0 ∧ c'.state.reworkCount = 0 := by
  cases h with
  | plan | initDirect | advance => exact ⟨rfl, rfl, rfl⟩
  | supervise | dispatch | conclude | track | callTools | extract | criticize | rework | exhaust
  | accept => exact absurd hm.1 Bool.false_ne_true
  | dismiss | finish | synthesize => exact absurd hm.2 Bool.false_ne_true

/-- A run right after a task start. -/
structure Started (rt : Runtime) (c p : Config) (h : List Config) : Prop where
  history : ThreadHistory rt (c :: p :: h)
  start : TaskStart p c

theorem Started.counters {rt : Runtime} {c p : Config} {h : List Config}
    (hs : Started rt c p h) :
    c.state.iterationCount = 0 ∧ c.state.toolCallCount = 0 ∧ c.state.reworkCount = 0 := by
  obtain ⟨hh, hm⟩ := hs
  cases hh with
  | next hh hR =>
      cases hR with
      | turn request => exact absurd hm (not_taskStart_startTurn _ _ _)
      | step hs => exact hs.transition.counters_reset hm

/-- Task starts with alike action histories are alike. -/
theorem Started.alike {rt : Runtime} {c₁ p₁ c₂ p₂ : Config} {h₁ h₂ : List Config}
    (hs₁ : Started rt c₁ p₁ h₁) (hs₂ : Started rt c₂ p₂ h₂)
    (hx : ∀ x, x ∈ c₁.state.actionHistory ↔ x ∈ c₂.state.actionHistory) : Alike c₁ c₂ := by
  obtain ⟨hi₁, ht₁, hr₁⟩ := hs₁.counters
  obtain ⟨hi₂, ht₂, hr₂⟩ := hs₂.counters
  refine ⟨.inr ⟨hs₁.start.2, hs₂.start.2⟩, ⟨hi₁.trans hi₂.symm, ht₁.trans ht₂.symm,
    hr₁.trans hr₂.symm, hx⟩, fun hn => ?_⟩
  have he := hs₁.start.2
  rw [Config.atExecutor, Config.lane?, hn] at he
  exact absurd he Bool.false_ne_true

/-! ### A hash that tells two task starts apart -/

/-- An executor whose message is not dispatched, and a verdict without rework. -/
theorem decides_conclude {rt : Runtime} {l : Lane} {s : AgentState} {calls : List ToolCall}
    (hd : ¬ Dispatches rt (s.answered (.ai "" calls)) calls) (A : List (String × List ToolCall))
    (V : List Bool) :
    Decides rt ⟨some (.executor l), s⟩ (("", calls) :: A) (false :: V) [.extract, .advance] := by
  have hlast := s.last?_answered (.ai "" calls)
  refine .answer rfl (Transition.conclude l s "" calls hd).step hlast ?_
  refine .quiet rfl (Transition.extract _ _ hlast "A summary." []).step ?_
  refine .quiet rfl (Transition.criticize _ "A summary." rfl "Fine.").step ?_
  exact .verdict rfl (Transition.accept _ "A summary." rfl "Done.").step rfl (.arrive rfl _ _)

/-- An executor whose message is dispatched; the next one makes no calls. -/
theorem decides_dispatch {rt : Runtime} {l : Lane} {s : AgentState} {calls : List ToolCall}
    (hd : Dispatches rt (s.answered (.ai "" calls)) calls) (A : List (String × List ToolCall))
    (V : List Bool) :
    Decides rt ⟨some (.executor l), s⟩ (("", calls) :: ("", []) :: A) (false :: V)
      [.executeTools, .extract, .advance] := by
  have hlast := s.last?_answered (.ai "" calls)
  refine .answer rfl (Transition.dispatch l s "" calls hd).step hlast ?_
  refine .quiet rfl (Transition.track _ _ hlast).step ?_
  refine .quiet rfl (Transition.callTools
    ((s.answered (.ai "" calls)).tracked rt calls) "" calls hlast fun _ => "").step ?_
  exact decides_conclude (fun h => h.1 rfl) A V

/-- **A call of an earlier task is turned down.**  A hash that only the first
action history holds is the hash of a call; a message that makes this call is
turned down at the first task start and dispatched at the second. -/
theorem exists_differing {rt : Runtime} {c₁ p₁ c₂ p₂ : Config} {h₁ h₂ : List Config}
    (hs₁ : Started rt c₁ p₁ h₁) (hs₂ : Started rt c₂ p₂ h₂) {x : String}
    (hx₁ : x ∈ c₁.state.actionHistory) (hx₂ : x ∉ c₂.state.actionHistory) :
    ∃ A V D₁ D₂, Decides rt c₁ A V D₁ ∧ Decides rt c₂ A V D₂ ∧ D₁ ≠ D₂ := by
  obtain ⟨tc, hx⟩ : ∃ tc : ToolCall, tc.hash rt = x := by
    have hmem := hx₁
    rw [← map_hash_handedSince hs₁.history] at hmem
    obtain ⟨tc, _, hx⟩ := List.mem_map.1 hmem
    exact ⟨tc, hx⟩
  subst hx
  obtain ⟨l₁, s₁, rfl⟩ := Config.exists_of_atExecutor hs₁.start.2
  obtain ⟨l₂, s₂, rfl⟩ := Config.exists_of_atExecutor hs₂.start.2
  have hdown : ¬ Dispatches rt (s₁.answered (.ai "" [tc])) [tc] :=
    fun hd => hd.2.2.2 tc (List.mem_singleton_self tc) hx₁
  have hup : Dispatches rt (s₂.answered (.ai "" [tc])) [tc] := by
    obtain ⟨hi, ht, _⟩ := hs₂.counters
    refine ⟨List.cons_ne_nil tc [], ?_, ?_, ?_⟩
    · show s₂.iterationCount + 1 < 8
      have : s₂.iterationCount = 0 := hi
      omega
    · show s₂.toolCallCount < 10
      have : s₂.toolCallCount = 0 := ht
      omega
    · intro tc' htc'
      rw [List.mem_singleton.1 htc']
      exact hx₂
  exact ⟨_, _, _, _, decides_conclude hdown [("", [])] [], decides_dispatch hup [] [], by decide⟩

/-- **The safeguards of a task depend on earlier tasks through `action_history`
alone.**  Two reachable task starts are decided alike on every sequence of executor
messages and verdicts, up to the next visit of `task_manager`, if and only if their
action histories hold the same hashes. -/
theorem decisions_eq_iff {rt : Runtime} {c₁ p₁ c₂ p₂ : Config} {h₁ h₂ : List Config}
    (hs₁ : Started rt c₁ p₁ h₁) (hs₂ : Started rt c₂ p₂ h₂) :
    (∀ A V D₁ D₂, Decides rt c₁ A V D₁ → Decides rt c₂ A V D₂ → D₁ = D₂) ↔
      ∀ x, x ∈ c₁.state.actionHistory ↔ x ∈ c₂.state.actionHistory := by
  constructor
  · intro heq x
    constructor
    · intro hx₁
      by_contra hx₂
      obtain ⟨A, V, D₁, D₂, hd₁, hd₂, hne⟩ := exists_differing hs₁ hs₂ hx₁ hx₂
      exact hne (heq A V D₁ D₂ hd₁ hd₂)
    · intro hx₂
      by_contra hx₁
      obtain ⟨A, V, D₂, D₁, hd₂, hd₁, hne⟩ := exists_differing hs₂ hs₁ hx₂ hx₁
      exact hne (heq A V D₁ D₂ hd₁ hd₂).symm
  · intro hx A V D₁ D₂ hd₁ hd₂
    exact hd₁.unique (hs₁.alike hs₂ hx) hd₂

/-- The plan of two tasks that the runs below work on. -/
def twoTasks : PlannerOutput where
  tasks := [⟨1, "Find the news.", .generalMemory⟩, ⟨2, "Sum them up.", .generalMemory⟩]

/-- The supervisor and the planner of a turn with two tasks. -/
def planTwo : List Env :=
  [.routing ⟨"general_memory", "high", ["general_memory"], "News"⟩, .planning (some twoTasks)]

/-- A task done with one search, up to the start of the next one. -/
def searchOnce : List Env :=
  [.saying "" [⟨"search_web", [("query", .str "news")], "1"⟩], .silent, .silent] ++ doneOnce

/-- The second task of a plan starts like the first one when the first one made no
tool calls. -/
theorem decisions_eq_without_calls :
    ∃ c₁ p₁ h₁ c₂ p₂ h₂, Started .plain c₁ p₁ h₁ ∧ Started .plain c₂ p₂ h₂ ∧
      ∀ A V D₁ D₂, Decides .plain c₁ A V D₁ → Decides .plain c₂ A V D₂ → D₁ = D₂ := by
  have hs₁ : Started .plain _ _ _ :=
    ⟨threadHistory_replayTurn .plain ⟨"alice", "s1", "What is new?"⟩ planTwo, ⟨rfl, rfl⟩⟩
  have hs₂ : Started .plain _ _ _ :=
    ⟨threadHistory_replayTurn .plain ⟨"alice", "s1", "What is new?"⟩ (planTwo ++ doneOnce),
      ⟨rfl, rfl⟩⟩
  exact ⟨_, _, _, _, _, _, hs₁, hs₂, (decisions_eq_iff hs₁ hs₂).2 fun x => Iff.rfl⟩

/-- **The second task may not repeat the first one's search**: the same message is
dispatched at the first task start and turned down at the second. -/
theorem decisions_differ_after_search :
    ¬ ∀ rt c₁ p₁ h₁ c₂ p₂ h₂, Started rt c₁ p₁ h₁ → Started rt c₂ p₂ h₂ →
      ∀ A V D₁ D₂, Decides rt c₁ A V D₁ → Decides rt c₂ A V D₂ → D₁ = D₂ := by
  intro hall
  have hs₁ : Started .plain _ _ _ :=
    ⟨threadHistory_replayTurn .plain ⟨"alice", "s1", "What is new?"⟩ (planTwo ++ searchOnce),
      ⟨rfl, rfl⟩⟩
  have hs₂ : Started .plain _ _ _ :=
    ⟨threadHistory_replayTurn .plain ⟨"alice", "s1", "What is new?"⟩ planTwo, ⟨rfl, rfl⟩⟩
  obtain ⟨A, V, D₁, D₂, hd₁, hd₂, hne⟩ := exists_differing hs₁ hs₂
    (x := "search_web_[('query', 'news')]") (by decide) (by decide)
  exact hne (hall _ _ _ _ _ _ _ hs₁ hs₂ A V D₁ D₂ hd₁ hd₂)

end Graph
end CognitiveEngine
