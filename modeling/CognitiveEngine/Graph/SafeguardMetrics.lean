/-
# What the graph reports about itself

Three Prometheus metrics (`app/core/metrics.py`) are written by the graph.
`evaluate_tool_hooks` and `route_from_reflection` increment `FORCED_TERMINATION_TOTAL` and
`DUPLICATE_TOOL_CALL_TOTAL` when a safeguard trips, and `node_final_synthesizer` observes
`GRAPH_ITERATIONS`.

`forcedTerminations_of_turn` says what the first two add up to over a turn: each message
whose tool calls are refused counts once and each verdict that is overruled counts once, and
a duplicate is counted in both.  Over the whole turn no more messages are refused than
executors are sent to work, and no more verdicts overruled than tasks are begun.
`graphIterations_of_turn` says what the third has seen at the end of a turn.  The code
calls it `total_iterations`, and the metric is described as iterations per session; what is
observed is the counter of the last task, which is the total only of a turn with one task.
-/

import CognitiveEngine.Graph.Counters
import CognitiveEngine.Graph.Supersteps

namespace CognitiveEngine
namespace Graph

open Machine

/-! ### The metrics -/

/-- An update of a metric, with its labels. -/
inductive GraphMetric where
  /-- `FORCED_TERMINATION_TOTAL.labels(domain=domain, reason=reason).inc()`. -/
  | forcedTermination (domain reason : String)
  /-- `DUPLICATE_TOOL_CALL_TOTAL.labels(tool_name=name).inc()`. -/
  | duplicateToolCall (toolName : String)
  /-- `GRAPH_ITERATIONS.labels(domain=domain).observe(total_iterations)`. -/
  | graphIterations (domain : String) (totalIterations : ℕ)
  deriving DecidableEq

/-- What `evaluate_tool_hooks` counts on the last message, in the order of its checks. -/
def toolHooksMetrics (rt : Runtime) (s : AgentState) (last : Message) : List GraphMetric :=
  if last.toolCalls = [] then []
  else if maxIterations ≤ s.iterationCount then [.forcedTermination s.domain "max_iterations"]
  else if maxToolCalls ≤ s.toolCallCount then [.forcedTermination s.domain "budget_depleted"]
  else match last.toolCalls.find? fun tc => tc.hash rt ∈ s.actionHistory with
    | some tc => [.duplicateToolCall tc.name, .forcedTermination s.domain "duplicate_action"]
    | none => []

/-- What `route_from_reflection` counts. -/
def reflectionMetrics (s : AgentState) : List GraphMetric :=
  if s.needsRework = some true then
    if maxReworkCycles ≤ s.reworkCount then [.forcedTermination s.domain "max_rework_cycles"]
    else []
  else []

/-- What `node_final_synthesizer` observes. -/
def synthesizerMetrics (s : AgentState) : List GraphMetric :=
  [.graphIterations s.domain s.iterationCount]

/-- What one superstep does to the metrics: a router counts in the state its node has left,
the synthesizer in the one it was handed. -/
def superstepMetrics (rt : Runtime) (c c' : Config) : List GraphMetric :=
  match c.next with
  | some (.executor _) => (c'.state.messages.last?.map (toolHooksMetrics rt c'.state)).getD []
  | some .reflectionAgent => reflectionMetrics c'.state
  | some .finalSynthesizer => synthesizerMetrics c.state
  | _ => []

/-- What a run has done to the metrics, in order. -/
def metricsOf (rt : Runtime) : List Config → List GraphMetric
  | c' :: c :: h => metricsOf rt (c :: h) ++ superstepMetrics rt c c'
  | _ => []

namespace GraphMetric

/-- A safeguard is reported. -/
def isForced : GraphMetric → Bool
  | .forcedTermination _ _ => true
  | _ => false

/-- A duplicate is reported as the reason. -/
def isDuplicateAction : GraphMetric → Bool
  | .forcedTermination _ reason => reason = "duplicate_action"
  | _ => false

/-- A duplicate is reported with its tool. -/
def isDuplicateCall : GraphMetric → Bool
  | .duplicateToolCall _ => true
  | _ => false

/-- The number of iterations is reported. -/
def isIterations : GraphMetric → Bool
  | .graphIterations _ _ => true
  | _ => false

end GraphMetric

/-! ### What trips -/

/-- An executor asks for tools and is sent on without them. -/
def abandons (p : Config × Config) : Bool :=
  p.1.atExecutor && p.2.next = some .findingExtractor && !p.2.lastCalls.isEmpty

/-- A verdict demands rework, and the task is closed nevertheless. -/
def overrules (p : Config × Config) : Bool :=
  p.1.next = some .reflectionAgent && p.2.next = some .taskManager &&
    p.2.state.needsRework = some true

/-- **The tool hooks count once** for a message whose calls they refuse, and not for any
other; a refused duplicate is reported twice over. -/
theorem count_toolHooksMetrics (rt : Runtime) (s : AgentState) (last : Message) :
    (toolHooksMetrics rt s last).countP GraphMetric.isForced =
        (if last.toolCalls ≠ [] ∧ ¬ Dispatches rt s last.toolCalls then 1 else 0) ∧
      (toolHooksMetrics rt s last).countP GraphMetric.isDuplicateCall =
        (toolHooksMetrics rt s last).countP GraphMetric.isDuplicateAction := by
  unfold toolHooksMetrics
  by_cases hnone : last.toolCalls = []
  · simp [hnone]
  · rw [if_neg hnone]
    by_cases hiter : maxIterations ≤ s.iterationCount
    · have hd : ¬ Dispatches rt s last.toolCalls := fun h => absurd h.2.1 (not_lt.2 hiter)
      rw [if_pos hiter, if_pos ⟨hnone, hd⟩]
      exact ⟨rfl, rfl⟩
    · rw [if_neg hiter]
      by_cases hbudget : maxToolCalls ≤ s.toolCallCount
      · have hd : ¬ Dispatches rt s last.toolCalls := fun h => absurd h.2.2.1 (not_lt.2 hbudget)
        rw [if_pos hbudget, if_pos ⟨hnone, hd⟩]
        exact ⟨rfl, rfl⟩
      · rw [if_neg hbudget]
        cases hdup : last.toolCalls.find? fun tc => tc.hash rt ∈ s.actionHistory with
        | some tc =>
            have hmem : tc.hash rt ∈ s.actionHistory := by simpa using List.find?_some hdup
            have hd : ¬ Dispatches rt s last.toolCalls := fun h =>
              h.2.2.2 tc (List.mem_of_find?_eq_some hdup) hmem
            rw [if_pos ⟨hnone, hd⟩]
            exact ⟨rfl, rfl⟩
        | none =>
            have hd : Dispatches rt s last.toolCalls :=
              ⟨hnone, not_le.1 hiter, not_le.1 hbudget, fun tc htc => by
                simpa using List.find?_eq_none.1 hdup tc htc⟩
            rw [if_neg fun h => h.2 hd]
            exact ⟨rfl, rfl⟩

/-- What an executor's superstep reports, and the calls of its message. -/
theorem superstepMetrics_answered (rt : Runtime) (l : Lane) (s : AgentState) (content : String)
    (calls : List ToolCall) (next : Option Node) :
    superstepMetrics rt ⟨some (.executor l), s⟩ ⟨next, s.answered (.ai content calls)⟩ =
        toolHooksMetrics rt (s.answered (.ai content calls)) (.ai content calls) ∧
      (⟨next, s.answered (.ai content calls)⟩ : Config).lastCalls = calls := by
  have hlast : (s.answered (.ai content calls)).messages.last? = some (.ai content calls) := by
    simp [AgentState.answered]
  refine ⟨?_, (Config.lastCalls_of_last? hlast).trans rfl⟩
  simp only [superstepMetrics, hlast]
  rfl

/-- **One superstep** reports what trips in it, once. -/
theorem Transition.count_superstepMetrics {rt : Runtime} {c c' : Config}
    (h : Transition rt c c') :
    (superstepMetrics rt c c').countP GraphMetric.isForced =
        (if abandons (c, c') then 1 else 0) + (if overrules (c, c') then 1 else 0) ∧
      (superstepMetrics rt c c').countP GraphMetric.isDuplicateCall =
        (superstepMetrics rt c c').countP GraphMetric.isDuplicateAction := by
  cases h with
  | supervise | plan | initDirect | track | callTools | extract | criticize | dismiss | advance
  | finish | synthesize => exact ⟨rfl, rfl⟩
  | dispatch l s content calls hd =>
      obtain ⟨hmetrics, -⟩ := superstepMetrics_answered rt l s content calls (some .actionTracker)
      rw [hmetrics]
      obtain ⟨hforced, hdup⟩ :=
        count_toolHooksMetrics rt (s.answered (.ai content calls)) (.ai content calls)
      rw [if_neg fun h => h.2 hd] at hforced
      exact ⟨hforced, hdup⟩
  | conclude l s content calls hd =>
      obtain ⟨hmetrics, hcalls⟩ :=
        superstepMetrics_answered rt l s content calls (some .findingExtractor)
      rw [hmetrics]
      obtain ⟨hforced, hdup⟩ :=
        count_toolHooksMetrics rt (s.answered (.ai content calls)) (.ai content calls)
      refine ⟨?_, hdup⟩
      have habandons : abandons (⟨some (.executor l), s⟩,
          ⟨some .findingExtractor, s.answered (.ai content calls)⟩) = !calls.isEmpty := by
        rw [abandons, hcalls]
        rfl
      have hoverrules : overrules (⟨some (.executor l), s⟩,
          ⟨some .findingExtractor, s.answered (.ai content calls)⟩) = false := rfl
      rw [hforced, habandons, hoverrules]
      cases calls with
      | nil => rfl
      | cons tc calls => exact if_pos ⟨List.cons_ne_nil _ _, hd⟩
  | rework s payload hp advice hr =>
      have hmetrics : reflectionMetrics (s.reflected true advice) = [] :=
        (if_pos rfl).trans (if_neg (not_le.2 hr))
      refine ⟨?_, ?_⟩ <;> simp only [superstepMetrics, hmetrics] <;> rfl
  | exhaust s payload hp advice hr =>
      have hmetrics : reflectionMetrics (s.reflected true advice)
          = [.forcedTermination s.domain "max_rework_cycles"] :=
        (if_pos rfl).trans (if_pos hr)
      refine ⟨?_, ?_⟩ <;> simp only [superstepMetrics, hmetrics] <;> rfl
  | accept s payload hp advice =>
      have hmetrics : reflectionMetrics (s.reflected false advice) = [] :=
        if_neg (by simp [AgentState.reflected])
      refine ⟨?_, ?_⟩ <;> simp only [superstepMetrics, hmetrics] <;> rfl

/-! ### How often it trips -/

/-- The executor at work has not concluded yet. -/
def Node.answering : Node → Bool
  | .executor _ | .actionTracker | .tools => true
  | _ => false

/-- The task at work has not been judged for good yet. -/
def Node.unsettled : Node → Bool
  | .executor _ | .actionTracker | .tools | .findingExtractor | .criticAgent
  | .reflectionAgent => true
  | _ => false

/-- What has tripped so far, against the starts and the reworks. -/
structure TripsBounded (c : Config) (n : StepCount) (abandoned overruled : ℕ) : Prop where
  abandoned_le :
    abandoned + (if c.next.any Node.answering then 1 else 0) ≤ n.starts + n.reworks
  overruled_le : overruled + (if c.next.any Node.unsettled then 1 else 0) ≤ n.starts

/-- A new task has room for one more of each. -/
theorem TripsBounded.of_start {l : Lane} {s : AgentState} {n : StepCount} {a o : ℕ}
    (ha : a ≤ n.starts + n.reworks) (ho : o ≤ n.starts) :
    TripsBounded ⟨some (.executor l), s⟩
      { n with supersteps := n.supersteps + 1, starts := n.starts + 1 } a o where
  abandoned_le := by
    show a + 1 ≤ n.starts + 1 + n.reworks
    omega
  overruled_le := Nat.succ_le_succ ho

/-- **One superstep keeps the bounds.** -/
theorem TripsBounded.transition {rt : Runtime} {c c' : Config} {n : StepCount} {a o : ℕ}
    (hb : TripsBounded c n a o) (h : Transition rt c c') :
    TripsBounded c' (n.add c c') (a + if abandons (c, c') then 1 else 0)
      (o + if overrules (c, c') then 1 else 0) := by
  obtain ⟨ha, ho⟩ := hb
  cases h with
  | supervise s domain complexity agents last hlast =>
      by_cases hlow : complexity = "low"
      · rw [if_pos hlow]
        exact ⟨ha, ho⟩
      · rw [if_neg hlow]
        exact ⟨ha, ho⟩
  | dispatch | track | callTools | extract | criticize =>
      exact ⟨ha, ho⟩
  | plan | initDirect | advance => exact .of_start ha ho
  | conclude l s content calls hd =>
      refine ⟨?_, ho⟩
      have ha₁ : a + 1 ≤ n.starts + n.reworks := ha
      show a + (if abandons _ then 1 else 0) + 0 ≤ n.starts + (n.reworks + 0)
      split_ifs <;> omega
  | rework s payload hp advice hr =>
      refine ⟨?_, ho⟩
      have ha₀ : a + 0 ≤ n.starts + n.reworks := ha
      show a + 0 + 1 ≤ n.starts + (n.reworks + 1)
      omega
  | exhaust s payload hp advice hr =>
      refine ⟨ha, ?_⟩
      have ho₁ : o + 1 ≤ n.starts := ho
      show o + 1 + 0 ≤ n.starts
      omega
  | accept s payload hp advice =>
      refine ⟨ha, ?_⟩
      have ho₁ : o + 1 ≤ n.starts := ho
      show o + 0 + 0 ≤ n.starts
      omega
  | dismiss | finish | synthesize => exact ⟨ha, ho⟩

/-! ### A turn -/

section Turn

variable {rt : Runtime} {thread : AgentState} {request : ChatRequest} {c : Config}
  {h : List Config}

/-- What is reported along a run, and the bounds on what has tripped. -/
theorem tripsBounded_of_turn (hh : TurnHistory rt thread request (c :: h)) :
    (metricsOf rt (c :: h)).countP GraphMetric.isForced =
        (steps (c :: h)).countP abandons + (steps (c :: h)).countP overrules ∧
      (metricsOf rt (c :: h)).countP GraphMetric.isDuplicateCall =
        (metricsOf rt (c :: h)).countP GraphMetric.isDuplicateAction ∧
      TripsBounded c (stepCount (c :: h)) ((steps (c :: h)).countP abandons)
        ((steps (c :: h)).countP overrules) := by
  refine hh.rec_head (P := fun c h =>
    (metricsOf rt (c :: h)).countP GraphMetric.isForced =
        (steps (c :: h)).countP abandons + (steps (c :: h)).countP overrules ∧
      (metricsOf rt (c :: h)).countP GraphMetric.isDuplicateCall =
        (metricsOf rt (c :: h)).countP GraphMetric.isDuplicateAction ∧
      TripsBounded c (stepCount (c :: h)) ((steps (c :: h)).countP abandons)
        ((steps (c :: h)).countP overrules)) ?_ ?_
  · rintro _ rfl
    exact ⟨rfl, rfl, Nat.le_refl 0, Nat.le_refl 0⟩
  · rintro c c' h - ⟨hforced, hdup, hbound⟩ hs
    obtain ⟨hstep, hstepdup⟩ := hs.transition.count_superstepMetrics
    refine ⟨?_, ?_, ?_⟩
    · rw [metricsOf, List.countP_append, hforced, hstep, steps_cons_cons, List.countP_cons,
        List.countP_cons]
      omega
    · rw [metricsOf, List.countP_append, List.countP_append, hdup, hstepdup]
    · rw [steps_cons_cons, List.countP_cons, List.countP_cons]
      exact hbound.transition hs.transition

/-- **What the counters add up to over a turn.**  `FORCED_TERMINATION_TOTAL` has grown by
the messages whose tool calls were refused and the verdicts that were overruled, each
counted once; `DUPLICATE_TOOL_CALL_TOTAL` by the duplicates among them.  Over the turn there
are at most as many refusals as starts and reworks of a task, at most as many overrulings as
starts, and the counter has grown by at most three for each start. -/
theorem forcedTerminations_of_turn (hh : TurnHistory rt thread request (c :: h))
    (hend : c.next = none) :
    (metricsOf rt (c :: h)).countP GraphMetric.isForced =
        (steps (c :: h)).countP abandons + (steps (c :: h)).countP overrules ∧
      (metricsOf rt (c :: h)).countP GraphMetric.isDuplicateCall =
        (metricsOf rt (c :: h)).countP GraphMetric.isDuplicateAction ∧
      (steps (c :: h)).countP abandons ≤
        (stepCount (c :: h)).starts + (stepCount (c :: h)).reworks ∧
      (steps (c :: h)).countP overrules ≤ (stepCount (c :: h)).starts ∧
      (metricsOf rt (c :: h)).countP GraphMetric.isForced ≤ 3 * (stepCount (c :: h)).starts := by
  obtain ⟨hforced, hdup, hbound⟩ := tripsBounded_of_turn hh
  obtain ⟨-, hlaw, -⟩ := stepLaw_of_turn hh
  have hclosed : c.opening = false := by simp [Config.opening, hend]
  have hreworks := hlaw.reworks_le hclosed
  have habandoned := hbound.abandoned_le
  have hoverruled := hbound.overruled_le
  simp only [maxReworkCycles] at hreworks
  exact ⟨hforced, hdup, by omega, by omega, by omega⟩

end Turn

/-- An executor that asks for a search. -/
def askingSearch (query : String) : Env :=
  .saying "" [⟨"search_web", [("query", .str query)], "call"⟩]

/-- A turn in which the executor asks for the same search twice, and is reworked. -/
def refusedTurn : List Config :=
  replayTurn .plain ⟨"alice", "s1", "What is new?"⟩
    ([.silent, .silent, askingSearch "news", .silent, .silent, askingSearch "news"] ++
      (answerThenJudge "A summary." true).tail ++ doneOnce ++ [.saying "The news." []])

/-- The refused search is counted once, and once as a duplicate. -/
theorem refusedTurn_counted :
    ∃ c h, refusedTurn = c :: h ∧
      (metricsOf .plain (c :: h)).countP GraphMetric.isForced =
        (steps (c :: h)).countP abandons + (steps (c :: h)).countP overrules ∧
      (steps (c :: h)).countP abandons = 1 ∧
      (metricsOf .plain (c :: h)).countP GraphMetric.isDuplicateCall = 1 := by
  have hh : TurnHistory .plain .empty ⟨"alice", "s1", "What is new?"⟩ refusedTurn :=
    history_replay id _ (.start rfl)
  have hend : currentNode refusedTurn = none := by decide +kernel
  have habandoned : (steps refusedTurn).countP abandons = 1 := by decide +kernel
  have hdup : (metricsOf .plain refusedTurn).countP GraphMetric.isDuplicateCall = 1 := by
    decide +kernel
  obtain ⟨c, h, hrun⟩ := List.exists_cons_of_ne_nil hh.ne_nil
  rw [hrun] at hh hend habandoned hdup ⊢
  exact ⟨c, h, rfl, (forcedTerminations_of_turn hh hend).1, habandoned, hdup⟩

/-! ### The histogram -/

section Histogram

variable {rt : Runtime} {thread : AgentState} {request : ChatRequest} {c : Config}
  {h : List Config}

/-- How many executors have run in the whole turn. -/
def turnVisits (h : List Config) : ℕ := (steps h).countP fun p => p.1.atExecutor

/-- The iterations of the task at hand, against the executors that have run. -/
structure Iterated (c : Config) (starts visits : ℕ) : Prop where
  idle : c.opening → visits = 0
  /-- An executor has run for the task at hand, unless one is about to. -/
  ran : c.opening = false → c.next.any Node.answering = false → 1 ≤ c.state.iterationCount
  /-- Each earlier task has had one. -/
  least : c.opening = false → c.state.iterationCount + starts ≤ visits + 1
  /-- The only task has had them all. -/
  only : c.opening = false → starts = 1 → visits = c.state.iterationCount

/-- **One superstep keeps the comparison.** -/
theorem Iterated.transition {c' : Config} {n : StepCount} {visits : ℕ}
    (hi : Iterated c n.starts visits) (hl : StepLaw c n) (h : Transition rt c c') :
    Iterated c' (n.add c c').starts (visits + if c.atExecutor then 1 else 0) := by
  obtain ⟨hidle, hran, hleast, honly⟩ := hi
  cases h with
  | supervise s domain complexity agents last hlast =>
      by_cases hlow : complexity = "low"
      · rw [if_pos hlow]
        exact ⟨fun _ => hidle rfl, nofun, nofun, nofun⟩
      · rw [if_neg hlow]
        exact ⟨fun _ => hidle rfl, nofun, nofun, nofun⟩
  | plan | initDirect =>
      have hv : visits = 0 := hidle rfl
      have hs : n.starts = 0 := (hl.unstarted rfl).1
      refine ⟨nofun, nofun, fun _ => ?_, fun _ _ => hv⟩
      show 0 + (n.starts + 1) ≤ visits + 0 + 1
      omega
  | advance s =>
      have hone : 1 ≤ s.iterationCount := hran rfl rfl
      have hle : s.iterationCount + n.starts ≤ visits + 1 := hleast rfl
      have hs : 1 ≤ n.starts := hl.started rfl
      refine ⟨nofun, nofun, fun _ => ?_, fun _ hstart => ?_⟩
      · show 0 + (n.starts + 1) ≤ visits + 0 + 1
        omega
      · have heq : n.starts + 1 = 1 := hstart
        omega
  | dispatch l s content calls hd =>
      have hle : s.iterationCount + n.starts ≤ visits + 1 := hleast rfl
      refine ⟨nofun, nofun, fun _ => ?_, fun _ hs => congrArg (· + 1) (honly rfl hs)⟩
      show s.iterationCount + 1 + n.starts ≤ visits + 1 + 1
      omega
  | conclude l s content calls hd =>
      have hle : s.iterationCount + n.starts ≤ visits + 1 := hleast rfl
      refine ⟨nofun, fun _ _ => Nat.le_add_left 1 _, fun _ => ?_,
        fun _ hs => congrArg (· + 1) (honly rfl hs)⟩
      show s.iterationCount + 1 + n.starts ≤ visits + 1 + 1
      omega
  | track | callTools => exact ⟨nofun, nofun, fun _ => hleast rfl, fun _ => honly rfl⟩
  | rework s payload hp advice hr => exact ⟨nofun, nofun, fun _ => hleast rfl, fun _ => honly rfl⟩
  | extract | criticize | exhaust | accept | dismiss | finish | synthesize =>
      exact ⟨nofun, fun _ _ => hran rfl rfl, fun _ => hleast rfl, fun _ => honly rfl⟩

/-- The safeguards do not touch the histogram. -/
theorem not_isIterations_of_forced {ms : List GraphMetric}
    (h : ∀ m ∈ ms, m.isForced || m.isDuplicateCall) : ms.filter GraphMetric.isIterations = [] := by
  refine List.filter_eq_nil_iff.2 fun m hm hi => ?_
  have hm := h m hm
  cases m <;> simp_all [GraphMetric.isForced, GraphMetric.isDuplicateCall,
    GraphMetric.isIterations]

theorem forced_or_duplicate_toolHooksMetrics (rt : Runtime) (s : AgentState) (last : Message) :
    ∀ m ∈ toolHooksMetrics rt s last, m.isForced || m.isDuplicateCall := by
  intro m hm
  unfold toolHooksMetrics at hm
  split_ifs at hm
  · exact absurd hm List.not_mem_nil
  · rw [List.mem_singleton.1 hm]
    rfl
  · rw [List.mem_singleton.1 hm]
    rfl
  · split at hm
    · rcases List.mem_pair.1 hm with rfl | rfl <;> rfl
    · exact absurd hm List.not_mem_nil

theorem forced_reflectionMetrics (s : AgentState) :
    ∀ m ∈ reflectionMetrics s, m.isForced || m.isDuplicateCall := by
  intro m hm
  unfold reflectionMetrics at hm
  split_ifs at hm
  · rw [List.mem_singleton.1 hm]
    rfl
  · exact absurd hm List.not_mem_nil
  · exact absurd hm List.not_mem_nil

/-- **The histogram is observed by the synthesizer alone**, whose superstep is the last. -/
theorem Transition.iterations_superstepMetrics {c' : Config} (h : Transition rt c c') :
    (superstepMetrics rt c c').filter GraphMetric.isIterations =
      if c'.next = none then [.graphIterations c'.state.domain c'.state.iterationCount] else [] := by
  have hreflected (s : AgentState) :
      (reflectionMetrics s).filter GraphMetric.isIterations = [] :=
    not_isIterations_of_forced (forced_reflectionMetrics s)
  cases h with
  | dispatch l s content calls hd =>
      rw [(superstepMetrics_answered rt l s content calls _).1]
      exact not_isIterations_of_forced (forced_or_duplicate_toolHooksMetrics _ _ _)
  | conclude l s content calls hd =>
      rw [(superstepMetrics_answered rt l s content calls _).1]
      exact not_isIterations_of_forced (forced_or_duplicate_toolHooksMetrics _ _ _)
  | rework | exhaust | accept => exact hreflected _
  | supervise | plan | initDirect | track | callTools | extract | criticize | dismiss | advance
  | finish | synthesize => rfl

/-- What a run has observed so far. -/
theorem observed_of_turn (hh : TurnHistory rt thread request (c :: h)) :
    (metricsOf rt (c :: h)).filter GraphMetric.isIterations =
        (if c.next = none then [.graphIterations c.state.domain c.state.iterationCount] else []) ∧
      Iterated c (stepCount (c :: h)).starts (turnVisits (c :: h)) := by
  refine hh.rec_head (P := fun c h =>
    (metricsOf rt (c :: h)).filter GraphMetric.isIterations =
        (if c.next = none then [.graphIterations c.state.domain c.state.iterationCount] else []) ∧
      Iterated c (stepCount (c :: h)).starts (turnVisits (c :: h))) ?_ ?_
  · rintro _ rfl
    exact ⟨rfl, fun _ => rfl, nofun, nofun, nofun⟩
  · rintro c c' h hh ⟨hobserved, hiter⟩ hs
    obtain ⟨-, hlaw, -⟩ := stepLaw_of_turn hh
    refine ⟨?_, ?_⟩
    · rw [metricsOf, List.filter_append, hobserved, if_neg hs.1, List.nil_append,
        hs.transition.iterations_superstepMetrics]
    · have hvisits : turnVisits (c' :: c :: h)
          = turnVisits (c :: h) + if c.atExecutor then 1 else 0 := by
        rw [turnVisits, steps_cons_cons, List.countP_cons]
        rfl
      rw [hvisits]
      exact hiter.transition hlaw hs.transition

/-- **What the histogram sees of a turn.**  At the end of a turn it has been observed once,
with the executors that have run since the last task start.  These are all the executors of
the turn exactly when the turn has started one task. -/
theorem graphIterations_of_turn (hh : TurnHistory rt thread request (c :: h))
    (hend : c.next = none) :
    (metricsOf rt (c :: h)).filter GraphMetric.isIterations =
        [.graphIterations c.state.domain (executorVisits (c :: h))] ∧
      (executorVisits (c :: h) = turnVisits (c :: h) ↔ (stepCount (c :: h)).starts = 1) := by
  obtain ⟨hobserved, hiter⟩ := observed_of_turn hh
  obtain ⟨-, hlaw, -⟩ := stepLaw_of_turn hh
  have hclosed : c.opening = false := by simp [Config.opening, hend]
  have hcounter : c.state.iterationCount = executorVisits (c :: h) :=
    (tallied_of_history hh).iterationCount
  have hleast := hiter.least hclosed
  have hstarted := hlaw.started hclosed
  rw [if_pos hend, hcounter] at hobserved
  refine ⟨hobserved, ?_, fun hone => ?_⟩
  · intro heq
    omega
  · rw [hiter.only hclosed hone, hcounter]

end Histogram

/-- Of its two executors the histogram sees one. -/
theorem twoTaskTurn_observed :
    ∃ c h, twoTaskTurn = c :: h ∧
      (metricsOf .plain (c :: h)).filter GraphMetric.isIterations =
        [.graphIterations "general_memory" 1] ∧
      executorVisits (c :: h) ≠ turnVisits (c :: h) := by
  have hh : TurnHistory .plain .empty ⟨"alice", "s1", "What is new?"⟩ twoTaskTurn :=
    history_replay id _ (.start rfl)
  have hend : currentNode twoTaskTurn = none := by decide +kernel
  have hstarts : (stepCount twoTaskTurn).starts ≠ 1 := by decide +kernel
  have hobserved : (metricsOf .plain twoTaskTurn).filter GraphMetric.isIterations =
      [.graphIterations "general_memory" 1] := by decide +kernel
  obtain ⟨c, h, hrun⟩ := List.exists_cons_of_ne_nil hh.ne_nil
  rw [hrun] at hh hend hstarts hobserved ⊢
  exact ⟨c, h, rfl, hobserved, mt (graphIterations_of_turn hh hend).2.1 hstarts⟩

end Graph
end CognitiveEngine
