/-
# What the safeguards count

The safeguards compare four fields of the state: `iteration_count`, `tool_call_count`,
`action_history` and `rework_count`.  Six nodes write them, and three of these reset some
of them.  `Accounted` says what they stand for, in terms of the supersteps of the run so
far: the executors that have run, the calls that the tools node has been handed, and the
verdicts of the reflection.

`counters_accounted` holds in every state of every run of a turn, except between the
tracker, which counts, and the tools node, which has not run yet; there the fields are
ahead by the calls of the last message (`Tallied`).
-/

import CognitiveEngine.Graph.ReworkCap
import CognitiveEngine.Graph.Termination
import CognitiveEngine.Graph.ToolBudget

namespace CognitiveEngine
namespace Graph

open Machine

/-! ### What has happened -/

/-- The planner or `direct_executor_init` runs. -/
def Plans (c _c' : Config) : Prop :=
  c.next = some .planner ∨ c.next = some .directExecutorInit

instance : DecidableRel Plans := fun c c' => by unfold Plans; infer_instance

/-- How many executors have run since the last task start. -/
def executorVisits (h : List Config) : ℕ :=
  (stepsSince TaskStart h).countP fun p => p.1.atExecutor

/-- The calls that the tools node has been handed since the last marked superstep, in
order. -/
def callsTaken (mark : Config → Config → Prop) [DecidableRel mark] (h : List Config) :
    List ToolCall :=
  (stepsSince mark h).reverse.flatMap fun p => p.1.handed

/-- How many verdicts since the last task start demanded rework. -/
def demandsSince (h : List Config) : ℕ := (verdicts h).count true

/-- The fields are what they stand for. -/
structure Accounted (rt : Runtime) (s : AgentState) (h : List Config) : Prop where
  iterationCount : s.iterationCount = executorVisits h
  toolCallCount : s.toolCallCount = (callsTaken TaskStart h).length
  actionHistory : s.actionHistory = (callsTaken Plans h).map (ToolCall.hash rt)
  reworkCount : s.reworkCount = demandsSince h

/-! ### One superstep -/

section Steps

variable {mark : Config → Config → Prop} [DecidableRel mark] {c c' : Config} {h : List Config}

theorem callsTaken_of_mark (hm : mark c c') : callsTaken mark (c' :: c :: h) = [] := by
  simp [callsTaken, stepsSince_cons_of_mark hm]

theorem callsTaken_of_not_mark (hm : ¬mark c c') :
    callsTaken mark (c' :: c :: h) = callsTaken mark (c :: h) ++ c.handed := by
  simp [callsTaken, stepsSince_cons_of_not_mark hm]

theorem executorVisits_of_start (hm : TaskStart c c') : executorVisits (c' :: c :: h) = 0 := by
  simp [executorVisits, stepsSince_cons_of_mark hm]

theorem executorVisits_of_not_start (hm : ¬TaskStart c c') :
    executorVisits (c' :: c :: h)
      = executorVisits (c :: h) + if c.atExecutor then 1 else 0 := by
  simp [executorVisits, stepsSince_cons_of_not_mark hm, List.countP_cons]

theorem demandsSince_of_start (hm : TaskStart c c') : demandsSince (c' :: c :: h) = 0 := by
  rw [demandsSince, verdicts_of_start hm, List.count_nil]

theorem demandsSince_of_not_start (hm : ¬TaskStart c c') :
    demandsSince (c' :: c :: h)
      = demandsSince (c :: h) + if verdict? (c, c') = some true then 1 else 0 := by
  rw [demandsSince, demandsSince, verdicts, verdicts, stepsSince_cons_of_not_mark hm,
    List.filterMap_cons]
  cases hv : verdict? (c, c') with
  | none => rfl
  | some b => cases b <;> simp

end Steps

/-- One superstep and the rework counter: the start of a task resets it, and a verdict
that demands rework adds one, granted or not. -/
theorem Transition.reworkCount {rt : Runtime} {c c' : Config} (h : Transition rt c c') :
    (TaskStart c c' ∧ c'.state.reworkCount = 0) ∨
      (¬TaskStart c c' ∧ c'.state.reworkCount
        = c.state.reworkCount + if verdict? (c, c') = some true then 1 else 0) := by
  cases h with
  | plan | initDirect | advance => exact .inl ⟨⟨rfl, rfl⟩, rfl⟩
  | supervise | dispatch | conclude | track | callTools | extract | criticize | rework | exhaust
  | accept => exact .inr ⟨fun h => Bool.false_ne_true h.1, rfl⟩
  | dismiss | finish | synthesize => exact .inr ⟨fun h => Bool.false_ne_true h.2, rfl⟩

/-- In a superstep the action history is emptied by the planner and
`direct_executor_init` alone. -/
theorem Transition.historyReset_iff {rt : Runtime} {c c' : Config} (h : Transition rt c c') :
    HistoryReset c c' ↔ Plans c c' := by
  cases h with
  | plan => exact iff_of_true (.inr ⟨.inl rfl, rfl⟩) (.inl rfl)
  | initDirect => exact iff_of_true (.inr ⟨.inr rfl, rfl⟩) (.inr rfl)
  | supervise => split_ifs <;> simp [HistoryReset, Plans]
  | dispatch | conclude | track | callTools | extract | criticize | rework | exhaust | accept
  | dismiss | advance | finish | synthesize => simp [HistoryReset, Plans]

/-! ### Whole runs -/

/-- The fields, with the calls that the tools node is about to be handed. -/
structure Tallied (rt : Runtime) (c : Config) (h : List Config) : Prop where
  iterationCount : c.state.iterationCount = executorVisits (c :: h)
  toolCallCount : c.state.toolCallCount = (callsTaken TaskStart (c :: h) ++ c.handed).length
  actionHistory :
    c.state.actionHistory = (callsTaken Plans (c :: h) ++ c.handed).map (ToolCall.hash rt)
  reworkCount : c.state.reworkCount = demandsSince (c :: h)

/-- **The tally is kept.** -/
theorem Tallied.transition {rt : Runtime} {c c' : Config} {h : List Config} (hc : Tallied rt c h)
    (ht : Transition rt c c') : Tallied rt c' (c :: h) := by
  constructor
  · rcases ht.iterations with ⟨hm, hi⟩ | ⟨hm, hi⟩
    · rw [executorVisits_of_start hm, hi]
    · rw [executorVisits_of_not_start hm, hi, hc.iterationCount]
  · rcases ht.toolCalls with ⟨hm, hcount, hnone⟩ | ⟨hm, hcount⟩
    · rw [callsTaken_of_mark hm, hcount, hnone]
      rfl
    · rw [callsTaken_of_not_mark hm, List.length_append, hcount, hc.toolCallCount]
  · rcases ht.history with ⟨hm, hhist, hnone⟩ | ⟨hm, hhist⟩
    · rw [callsTaken_of_mark (ht.historyReset_iff.1 hm), hhist, hnone]
      rfl
    · rw [callsTaken_of_not_mark (mt ht.historyReset_iff.2 hm), List.map_append, hhist,
        hc.actionHistory]
  · rcases ht.reworkCount with ⟨hm, hr⟩ | ⟨hm, hr⟩
    · rw [demandsSince_of_start hm, hr]
    · rw [demandsSince_of_not_start hm, hr, hc.reworkCount]

/-- The tally is right all along a run of a turn. -/
theorem tallied_of_history {rt : Runtime} {thread : AgentState} {request : ChatRequest}
    {c : Config} {h : List Config} (hh : TurnHistory rt thread request (c :: h)) :
    Tallied rt c h := by
  refine hh.rec_head (P := fun c h => Tallied rt c h) ?_ ?_
  · rintro _ rfl
    exact ⟨rfl, rfl, rfl, rfl⟩
  · intro c c' h _ ih hR
    exact ih.transition hR.transition

/-- **The counters count what they claim**, in every state that a run of a turn reaches,
whatever its thread has stored, unless the tools node is about to run. -/
theorem counters_accounted {rt : Runtime} {thread : AgentState} {request : ChatRequest}
    {c : Config} {h : List Config} (hh : TurnHistory rt thread request (c :: h))
    (hn : c.next ≠ some .tools) : Accounted rt c.state (c :: h) := by
  obtain ⟨hiteration, htool, hhistory, hrework⟩ := tallied_of_history hh
  rw [Config.handed, if_neg hn, List.append_nil] at htool hhistory
  exact ⟨hiteration, htool, hhistory, hrework⟩

/-- A turn in which an executor searches three times in one message, answers, and is told
to do it again. -/
def searchedRun : List Config :=
  replayTurn .plain ⟨"alice", "s1", "What is new?"⟩
    ([.silent, .silent, .saying "" (searches 3), .silent, .silent]
      ++ answerThenJudge "A summary." true)

/-- Two visits, three calls and one demand. -/
theorem searchedRun_accounted :
    ∃ c h, searchedRun = c :: h ∧ c.state.iterationCount = 2 ∧ c.state.toolCallCount = 3 ∧
      c.state.reworkCount = 1 ∧ Accounted .plain c.state (c :: h) := by
  have hcounts : (searchedRun.head?.map fun c =>
      (c.state.iterationCount, c.state.toolCallCount, c.state.reworkCount)) = some (2, 3, 1) := by
    decide
  have hnode : currentNode searchedRun = some (.executor .generalMemory) := by decide
  have hh : TurnHistory .plain .empty ⟨"alice", "s1", "What is new?"⟩ searchedRun :=
    history_replay id _ (.start rfl)
  cases hrun : searchedRun with
  | nil => exact absurd hrun hh.ne_nil
  | cons c h =>
      rw [hrun] at hcounts hnode hh
      have hn : c.next ≠ some .tools := by
        intro htools
        exact absurd (hnode.symm.trans htools) (by decide)
      obtain ⟨hiteration, htool, hrework⟩ : c.state.iterationCount = 2 ∧
          c.state.toolCallCount = 3 ∧ c.state.reworkCount = 1 := by
        simpa using hcounts
      exact ⟨c, h, rfl, hiteration, htool, hrework, counters_accounted hh hn⟩

end Graph
end CognitiveEngine
