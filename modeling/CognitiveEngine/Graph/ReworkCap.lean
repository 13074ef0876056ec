/-
# The rework cap

`node_reflection_agent` counts a rework when the verdict demands one, and
`route_from_reflection` compares the counter after that, so the verdict that
brings the counter to `maxReworkCycles` is already turned down.  A task whose
verdicts begin with `k` demands is reworked `min k (maxReworkCycles - 1)` times:
one fewer than the cap allows once `k` reaches it (`reworks_eq_min`,
`reworks_eq_cap_iff`).

The invariant, `Counted`, follows the stint of a task: as long as the run is
between the task start and `task_manager`, every verdict so far demanded rework,
every one was granted, and the counter is their number.
-/

import CognitiveEngine.Graph.Runs

namespace CognitiveEngine
namespace Graph

open Machine

/-- The verdict a superstep of the reflection gives. -/
def verdict? (p : Config × Config) : Option Bool :=
  if p.1.next = some .reflectionAgent then p.2.state.needsRework else none

/-- The verdicts the reflection has given since the last task start, in order. -/
def verdicts (h : List Config) : List Bool :=
  ((stepsSince TaskStart h).filterMap verdict?).reverse

/-- `route_from_reflection` sends the run back to an executor. -/
def Reenters (p : Config × Config) : Prop := p.1.next = some .reflectionAgent ∧ p.2.atExecutor

instance : DecidablePred Reenters := fun p => by unfold Reenters; infer_instance

/-- How often an executor has been entered from the reflection since the last task
start. -/
def reworks (h : List Config) : ℕ := (stepsSince TaskStart h).countP fun p => Reenters p

/-- How many verdicts at the start of the stint demand rework. -/
def demands (h : List Config) : ℕ := ((verdicts h).takeWhile id).length

section Steps

variable {c c' : Config} {h : List Config}

theorem verdicts_of_start (hm : TaskStart c c') : verdicts (c' :: c :: h) = [] := by
  simp [verdicts, stepsSince_cons_of_mark hm]

theorem reworks_of_start (hm : TaskStart c c') : reworks (c' :: c :: h) = 0 := by
  simp [reworks, stepsSince_cons_of_mark hm]

/-- A superstep of another node gives no verdict. -/
theorem verdicts_of_other (hm : ¬ TaskStart c c') (hn : c.next ≠ some .reflectionAgent) :
    verdicts (c' :: c :: h) = verdicts (c :: h) := by
  simp [verdicts, stepsSince_cons_of_not_mark hm, verdict?, hn]

theorem reworks_of_other (hm : ¬ TaskStart c c') (hn : c.next ≠ some .reflectionAgent) :
    reworks (c' :: c :: h) = reworks (c :: h) := by
  simp [reworks, stepsSince_cons_of_not_mark hm, Reenters, hn]

/-- A superstep of the reflection adds its verdict. -/
theorem verdicts_of_reflection (hn : c.next = some .reflectionAgent) {b : Bool}
    (hb : c'.state.needsRework = some b) : verdicts (c' :: c :: h) = verdicts (c :: h) ++ [b] := by
  have hm : ¬ TaskStart c c' := fun hm => by simp [TaskStart, Config.setsTask, hn] at hm
  simp [verdicts, stepsSince_cons_of_not_mark hm, verdict?, hn, hb]

theorem reworks_of_reflection (hn : c.next = some .reflectionAgent) :
    reworks (c' :: c :: h) = reworks (c :: h) + if c'.atExecutor then 1 else 0 := by
  have hm : ¬ TaskStart c c' := fun hm => by simp [TaskStart, Config.setsTask, hn] at hm
  by_cases he : c'.atExecutor <;>
    simp [reworks, stepsSince_cons_of_not_mark hm, Reenters, hn, he]

end Steps

/-- What the verdicts so far are when a node is about to run: up to `task_manager`
all of them demanded rework and were granted it. -/
def Counted (c : Config) (h : List Config) : Prop :=
  match c.next with
  | some (.executor _) | some .actionTracker | some .tools | some .findingExtractor
  | some .criticAgent | some .reflectionAgent =>
      verdicts h = List.replicate c.state.reworkCount true ∧
        reworks h = c.state.reworkCount ∧ c.state.reworkCount < maxReworkCycles
  | some .taskManager => reworks h = min (demands h) (maxReworkCycles - 1)
  | _ => True

theorem demands_of_accept {h : List Config} {r : ℕ}
    (hv : verdicts h = List.replicate r true ++ [false]) : demands h = r := by
  rw [demands, hv, List.takeWhile_append_of_pos (by simp)]
  simp

theorem demands_of_exhaust {h : List Config} {r : ℕ}
    (hv : verdicts h = List.replicate r true ++ [true]) : demands h = r + 1 := by
  rw [demands, hv, ← List.replicate_succ', List.takeWhile_replicate]
  simp

/-- **The invariant is kept**, by each way a node hands over. -/
theorem Counted.transition {rt : Runtime} {c c' : Config} {h : List Config}
    (hc : Counted c (c :: h)) (ht : Transition rt c c') : Counted c' (c' :: c :: h) := by
  have hno : ∀ {n : Node} {s : AgentState} {c' : Config}, (⟨some n, s⟩ : Config).setsTask = false →
      ¬ TaskStart ⟨some n, s⟩ c' := by
    intro n s c' hs hm
    exact Bool.false_ne_true (hs.symm.trans hm.1)
  cases ht with
  | plan | initDirect | advance =>
      exact ⟨verdicts_of_start ⟨rfl, rfl⟩, reworks_of_start ⟨rfl, rfl⟩,
        show (0 : ℕ) < 2 by decide⟩
  | dispatch | conclude | track | callTools | extract | criticize =>
      refine ⟨?_, ?_, hc.2.2⟩
      · rw [verdicts_of_other (hno rfl) (by simp)]
        exact hc.1
      · rw [reworks_of_other (hno rfl) (by simp)]
        exact hc.2.1
  | rework s payload hp advice hr =>
      refine ⟨?_, ?_, hr⟩
      · rw [verdicts_of_reflection rfl rfl, hc.1]
        exact (List.replicate_succ' ..).symm
      · rw [reworks_of_reflection rfl, hc.2.1]
        rfl
  | exhaust s payload hp advice hr =>
      have hv : verdicts (⟨some .taskManager, s.reflected true advice⟩ ::
          ⟨some .reflectionAgent, s⟩ :: h) = List.replicate s.reworkCount true ++ [true] := by
        rw [verdicts_of_reflection rfl rfl, hc.1]
      have hlt : s.reworkCount < maxReworkCycles := hc.2.2
      show reworks _ = min (demands _) (maxReworkCycles - 1)
      rw [demands_of_exhaust hv, reworks_of_reflection rfl, hc.2.1]
      show s.reworkCount + 0 = _
      omega
  | accept s payload hp advice =>
      have hv : verdicts (⟨some .taskManager, s.reflected false advice⟩ ::
          ⟨some .reflectionAgent, s⟩ :: h) = List.replicate s.reworkCount true ++ [false] := by
        rw [verdicts_of_reflection rfl rfl, hc.1]
      have hlt : s.reworkCount < maxReworkCycles := hc.2.2
      show reworks _ = min (demands _) (maxReworkCycles - 1)
      rw [demands_of_accept hv, reworks_of_reflection rfl, hc.2.1]
      show s.reworkCount + 0 = _
      omega
  | supervise =>
      unfold Counted
      split_ifs <;> trivial
  | dismiss | finish | synthesize => trivial

/-- The invariant holds all along a run of a thread. -/
theorem counted_of_history {rt : Runtime} {c : Config} {h : List Config}
    (hh : ThreadHistory rt (c :: h)) : Counted c (c :: h) := by
  refine hh.rec_head (P := fun c h => Counted c (c :: h)) ?_ ?_
  · rintro _ ⟨request, rfl⟩
    trivial
  · intro c c' h _ ih hR
    cases hR with
    | turn request => trivial
    | step hs => exact ih.transition hs.transition

/-- **A stint that reaches `task_manager` was reworked once less than the cap at
most.** -/
theorem reworks_eq_min {rt : Runtime} {h : List Config} (hh : ThreadHistory rt h)
    (hn : currentNode h = some .taskManager) :
    reworks h = min (demands h) (maxReworkCycles - 1) := by
  obtain ⟨c, rest, rfl⟩ := List.exists_cons_of_ne_nil hh.ne_nil
  have hcount := counted_of_history hh
  have hc : c.next = some .taskManager := hn
  rw [Counted, hc] at hcount
  exact hcount

/-- **The cap is met exactly below the cap.**  In every run of a thread that is at
`task_manager`, with `k` verdicts at the start of the task's stint demanding
rework, the executor has been entered from the reflection
`min k maxReworkCycles` times if and only if `k < maxReworkCycles`. -/
theorem reworks_eq_cap_iff {rt : Runtime} {h : List Config} (hh : ThreadHistory rt h)
    (hn : currentNode h = some .taskManager) :
    reworks h = min (demands h) maxReworkCycles ↔ demands h < maxReworkCycles := by
  rw [reworks_eq_min hh hn]
  unfold maxReworkCycles
  omega

/-- A low-complexity turn with the given verdicts, up to `task_manager` when they
lead there. -/
def judgedRun (vs : List Bool) : List Config :=
  replayTurn .plain ⟨"alice", "s1", "What is new?"⟩
    ([.silent, .silent] ++ vs.flatMap (answerThenJudge "A summary."))

/-- One rework that is granted, then an answer that passes. -/
theorem reworks_eq_cap_of_one :
    reworks (judgedRun [true, false]) = min (demands (judgedRun [true, false])) maxReworkCycles :=
  (reworks_eq_cap_iff (threadHistory_replayTurn _ _ _) (by decide)).2 (by decide)

/-- **The second rework is never granted**: two demands, one rework. -/
theorem rework_cap_missed :
    ¬ ∀ rt h, ThreadHistory rt h → currentNode h = some .taskManager →
      reworks h = min (demands h) maxReworkCycles := by
  intro hall
  have heq := hall .plain (judgedRun [true, true]) (threadHistory_replayTurn _ _ _) (by decide)
  exact absurd heq (by decide)

end Graph
end CognitiveEngine
