/-
# How many supersteps a turn takes

Langgraph runs a graph for at most `recursion_limit` supersteps and raises when it has
not come to `END` by then.  Neither endpoint sets the limit, so that a turn is served
only if it fits into the default.

`StepCount` counts what a run has done: its supersteps, the tasks it started, the rounds
through the tools node and the reworks.  `stepCount_of_turn` says how the first number is
made of the other three, and how far these can grow: a task takes between 5 and 30
supersteps, and three more frame the turn.  `invoke_eq` draws the consequence for a run
under a limit, in which the models can be got: the number of supersteps is settled by the
outside world alone, a limit either admits it or not, and the planned tasks bound it on both
sides.
-/

import CognitiveEngine.Graph.TaskRegistry
import CognitiveEngine.Graph.Termination

namespace CognitiveEngine
namespace Graph

open Machine

/-! ### Counting -/

/-- What a run has done so far. -/
structure StepCount where
  supersteps : ℕ
  /-- Task starts. -/
  starts : ℕ
  /-- Times the tools node has been given calls. -/
  rounds : ℕ
  /-- Times `reflection_agent` has sent an executor back to work. -/
  reworks : ℕ
  deriving DecidableEq

/-- One superstep more. -/
def StepCount.add (n : StepCount) (c c' : Config) : StepCount where
  supersteps := n.supersteps + 1
  starts := n.starts + if TaskStart c c' then 1 else 0
  rounds := n.rounds + if c'.next = some .actionTracker then 1 else 0
  reworks := n.reworks + if c.next = some .reflectionAgent ∧ c'.atExecutor then 1 else 0

/-- The count of a run, its configurations listed the latest first. -/
def stepCount : List Config → StepCount
  | c' :: c :: h => (stepCount (c :: h)).add c c'
  | _ => ⟨0, 0, 0, 0⟩

/-- How far a node is ahead of the loops it is in: the supersteps that the starts, rounds
and reworks so far do not account for. -/
def lead : Option Node → ℤ
  | some .supervisorRouter => 0
  | some .planner | some .directExecutorInit => 1
  | some (.executor _) => -3
  | some .actionTracker => -5
  | some .tools => -4
  | some .findingExtractor => -2
  | some .criticAgent => -1
  | some .reflectionAgent => 0
  | some .taskManager => 1
  | some .finalSynthesizer => 2
  | none => 3

/-! ### The law -/

/-- What the count of a run says at a configuration. -/
structure StepLaw (c : Config) (n : StepCount) : Prop where
  /-- Each loop costs what its nodes cost. -/
  law : (n.supersteps : ℤ) = lead c.next + 3 * n.rounds + 5 * n.starts + 4 * n.reworks
  started : c.opening = false → 1 ≤ n.starts
  unstarted : c.opening → n.starts = 0 ∧ n.rounds = 0 ∧ n.reworks = 0
  /-- The iterations of the task at hand bound its rounds. -/
  rounds_le : c.opening = false →
    n.rounds + (maxIterations - 1) ≤
      (maxIterations - 1) * n.starts + min c.state.iterationCount (maxIterations - 1)
  /-- Its rework counter bounds its reworks. -/
  reworks_le : c.opening = false →
    n.reworks + (maxReworkCycles - 1) ≤
      (maxReworkCycles - 1) * n.starts + min c.state.reworkCount (maxReworkCycles - 1)

theorem stepLaw_startTurn (thread : AgentState) (request : ChatRequest) :
    StepLaw (startTurn thread request) ⟨0, 0, 0, 0⟩ where
  law := rfl
  started h := Bool.noConfusion h
  unstarted _ := ⟨rfl, rfl, rfl⟩
  rounds_le h := Bool.noConfusion h
  reworks_le h := Bool.noConfusion h

/-- **One superstep keeps the law.** -/
theorem StepLaw.transition {rt : Runtime} {c c' : Config} {n : StepCount} (hc : StepLaw c n)
    (h : Transition rt c c') : StepLaw c' (n.add c c') := by
  obtain ⟨hlaw, hstarted, hun, hrounds, hreworks⟩ := hc
  simp only [maxIterations, maxReworkCycles] at hrounds hreworks
  cases h with
  | supervise s domain complexity agents last hlast =>
      obtain ⟨h₁, h₂, h₃⟩ := hun rfl
      have hopen : (⟨some (if complexity = "low" then Node.directExecutorInit else .planner),
          s.routed domain complexity agents⟩ : Config).opening := by
        split_ifs <;> rfl
      have hlead : lead (some (if complexity = "low" then Node.directExecutorInit else .planner))
          = 1 := by
        split_ifs <;> rfl
      have hadd : n.add ⟨some .supervisorRouter, s⟩
          ⟨some (if complexity = "low" then .directExecutorInit else .planner),
            s.routed domain complexity agents⟩
            = { n with supersteps := n.supersteps + 1 } := by
        split_ifs <;> rfl
      rw [hadd]
      refine ⟨?_, fun h => Bool.noConfusion (hopen.symm.trans h), fun _ => ⟨h₁, h₂, h₃⟩,
        fun h => Bool.noConfusion (hopen.symm.trans h),
        fun h => Bool.noConfusion (hopen.symm.trans h)⟩
      rw [hlead]
      simp only [lead] at hlaw
      push_cast
      omega
  | plan s plan =>
      obtain ⟨h₁, h₂, h₃⟩ := hun rfl
      show StepLaw _ { n with supersteps := n.supersteps + 1, starts := n.starts + 1 }
      simp only [lead] at hlaw
      refine ⟨?_, ?_, fun h => Bool.noConfusion h, ?_, ?_⟩ <;>
        simp [lead, maxIterations, maxReworkCycles] <;> omega
  | initDirect s =>
      obtain ⟨h₁, h₂, h₃⟩ := hun rfl
      show StepLaw _ { n with supersteps := n.supersteps + 1, starts := n.starts + 1 }
      simp only [lead] at hlaw
      refine ⟨?_, ?_, fun h => Bool.noConfusion h, ?_, ?_⟩ <;>
        simp [lead, maxIterations, maxReworkCycles] <;> omega
  | advance s =>
      have hK := hstarted rfl
      have hD := hrounds rfl
      have hR := hreworks rfl
      show StepLaw _ { n with supersteps := n.supersteps + 1, starts := n.starts + 1 }
      simp only [lead] at hlaw
      refine ⟨?_, ?_, fun h => Bool.noConfusion h, ?_, ?_⟩ <;>
        simp [lead, maxIterations, maxReworkCycles] <;> omega
  | dispatch l s content calls hd =>
      have hiter : s.iterationCount + 1 < 8 := hd.2.1
      have hD := hrounds rfl
      show StepLaw _ { n with supersteps := n.supersteps + 1, rounds := n.rounds + 1 }
      simp only [lead] at hlaw
      refine ⟨?_, hstarted, fun h => Bool.noConfusion h, fun _ => ?_, hreworks⟩
      · simp only [lead]
        push_cast
        omega
      · simp only [maxIterations, AgentState.answered] at hD ⊢
        omega
  | conclude l s content calls hd =>
      have hD := hrounds rfl
      show StepLaw _ { n with supersteps := n.supersteps + 1 }
      simp only [lead] at hlaw
      refine ⟨?_, hstarted, fun h => Bool.noConfusion h, fun _ => ?_, hreworks⟩
      · simp only [lead]
        push_cast
        omega
      · simp only [maxIterations, AgentState.answered] at hD ⊢
        omega
  | rework s payload hp advice hr =>
      have hR := hreworks rfl
      have hcount : s.reworkCount + 1 < 2 := hr
      show StepLaw _ { n with supersteps := n.supersteps + 1, reworks := n.reworks + 1 }
      simp only [lead] at hlaw
      refine ⟨?_, hstarted, fun h => Bool.noConfusion h, hrounds, fun _ => ?_⟩
      · simp only [lead]
        push_cast
        omega
      · simp only [maxReworkCycles, AgentState.reflected, if_true] at hR ⊢
        omega
  | exhaust s payload hp advice hr =>
      have hR := hreworks rfl
      show StepLaw _ { n with supersteps := n.supersteps + 1 }
      simp only [lead] at hlaw
      refine ⟨?_, hstarted, fun h => Bool.noConfusion h, hrounds, fun _ => ?_⟩
      · simp only [lead]
        push_cast
        omega
      · simp only [maxReworkCycles, AgentState.reflected, if_true] at hR ⊢
        omega
  | track | callTools | extract | criticize | accept | dismiss | finish | synthesize =>
      show StepLaw _ { n with supersteps := n.supersteps + 1 }
      simp only [lead] at hlaw
      refine ⟨?_, hstarted, fun h => Bool.noConfusion h, hrounds, hreworks⟩
      simp only [lead]
      push_cast
      omega

/-! ### Starts and tasks -/

/-- How the task starts relate to the registry: each start but the first has used up a
pending task, one alone where the ids differ. -/
structure Allotted (c : Config) (starts : ℕ) : Prop where
  working : ∀ n, c.next = some n → n.working →
    starts + pendingTasks c.state.tasks ≤ c.state.tasks.length + 1 ∧
      ((c.state.tasks.map Task.id).Nodup →
        starts + pendingTasks c.state.tasks = c.state.tasks.length + 1)
  settled : c.next = some .finalSynthesizer ∨ c.next = none →
    starts ≤ max 1 c.state.tasks.length ∧
      ((c.state.tasks.map Task.id).Nodup → starts = max 1 c.state.tasks.length)

theorem pendingTasks_of_pending {tasks : List Task} (h : ∀ t ∈ tasks, t.status = .pending) :
    pendingTasks tasks = tasks.length :=
  List.countP_eq_length.2 fun t ht => decide_eq_true (h t ht)

theorem length_completeCurrent (s : AgentState) (result : String) :
    (completeCurrent s result).length = s.tasks.length := List.length_map _

/-- Where the ids differ, completing the current task leaves one pending task less. -/
theorem pendingTasks_completeCurrent {s : AgentState} {t : Task} (ht : t ∈ s.tasks)
    (hid : s.currentTaskId = some t.id) (hp : t.status = .pending)
    (hnd : (s.tasks.map Task.id).Nodup) (result : String) :
    pendingTasks (completeCurrent s result) + 1 = pendingTasks s.tasks := by
  obtain ⟨before, after, hsplit⟩ := List.append_of_mem ht
  rw [completeCurrent_eq hsplit hid hnd, hsplit]
  simp only [pendingTasks, List.countP_append, List.countP_cons, Task.complete, hp]
  simp only [decide_true, if_true, reduceCtorEq, decide_false, Bool.false_eq_true, if_false]
  omega

/-- A task starts with all tasks of a new registry pending. -/
theorem allotted_startTasks {s : AgentState} {tasks : List Task} {l : Lane}
    (h : ∀ t ∈ tasks, t.status = .pending) :
    Allotted ⟨some (.executor l), s.startTasks tasks⟩ 1 where
  working n _ _ := by
    have hall : pendingTasks tasks = tasks.length := pendingTasks_of_pending h
    simp only [AgentState.startTasks, hall]
    omega
  settled hn := by simp at hn

/-- **One superstep keeps the relation.** -/
theorem Allotted.transition {rt : Runtime} {c c' : Config} {n : StepCount}
    (ha : Allotted c n.starts) (hc : StepLaw c n) (hrun : Running c) (h : Transition rt c c') :
    Allotted c' (n.add c c').starts := by
  obtain ⟨hwork, hsettled⟩ := ha
  cases h with
  | supervise s domain complexity agents last hlast =>
      refine ⟨fun n hn hw => ?_, fun hn => ?_⟩
      · split_ifs at hn <;> cases hn <;> cases hw
      · split_ifs at hn <;> simp at hn
  | plan s plan =>
      have h₀ : n.starts = 0 := (hc.unstarted rfl).1
      show Allotted _ (n.starts + 1)
      rw [h₀]
      exact allotted_startTasks (pending_planTasks s plan)
  | initDirect s =>
      have h₀ : n.starts = 0 := (hc.unstarted rfl).1
      show Allotted _ (n.starts + 1)
      rw [h₀]
      exact allotted_startTasks (pending_directTasks s)
  | dispatch | conclude | track | callTools | extract | criticize | rework | exhaust | accept =>
      exact ⟨fun _ _ _ => hwork _ rfl rfl, fun hn => by simp at hn⟩
  | dismiss s ht =>
      obtain ⟨hle, heq⟩ := hwork _ rfl rfl
      refine ⟨fun n hn hw => ?_, fun _ => ?_⟩
      · cases hn
        cases hw
      show n.starts ≤ max 1 s.tasks.length ∧ (_ → n.starts = max 1 s.tasks.length)
      simp only [ht] at hle heq ⊢
      exact ⟨by simpa [pendingTasks] using hle, fun _ => by simpa [pendingTasks] using heq⟩
  | advance s ht result hr next hn =>
      obtain ⟨hle, heq⟩ := hwork _ rfl rfl
      simp only at hle
      obtain ⟨t, htm, hid, hp⟩ := (hrun.scheduled _ rfl rfl).resolve_left ht
      refine ⟨fun _ _ _ => ?_, fun hn => by simp at hn⟩
      have hlt : pendingTasks (completeCurrent s result) < pendingTasks s.tasks :=
        pendingTasks_completeCurrent_lt htm hid hp result
      show n.starts + 1 + pendingTasks (completeCurrent s result)
          ≤ (completeCurrent s result).length + 1 ∧
        (((completeCurrent s result).map Task.id).Nodup →
          n.starts + 1 + pendingTasks (completeCurrent s result)
            = (completeCurrent s result).length + 1)
      rw [length_completeCurrent, map_id_completeCurrent]
      refine ⟨by omega, fun hnd => ?_⟩
      have hone : pendingTasks (completeCurrent s result) + 1 = pendingTasks s.tasks :=
        pendingTasks_completeCurrent htm hid hp hnd result
      have hbefore : n.starts + pendingTasks s.tasks = s.tasks.length + 1 := heq hnd
      omega
  | finish s ht result hr hn =>
      obtain ⟨hle, heq⟩ := hwork _ rfl rfl
      simp only at hle
      obtain ⟨t, htm, hid, hp⟩ := (hrun.scheduled _ rfl rfl).resolve_left ht
      refine ⟨fun n hn hw => ?_, fun _ => ?_⟩
      · cases hn
        cases hw
      have hnone : pendingTasks (completeCurrent s result) = 0 :=
        List.countP_eq_zero.2 (List.find?_eq_none.1 hn)
      have hlt : pendingTasks (completeCurrent s result) < pendingTasks s.tasks :=
        pendingTasks_completeCurrent_lt htm hid hp result
      have hlen : 0 < s.tasks.length := List.length_pos_of_mem htm
      show n.starts ≤ max 1 (completeCurrent s result).length ∧
        (((completeCurrent s result).map Task.id).Nodup →
          n.starts = max 1 (completeCurrent s result).length)
      rw [length_completeCurrent, map_id_completeCurrent]
      refine ⟨by omega, fun hnd => ?_⟩
      have hone : pendingTasks (completeCurrent s result) + 1 = pendingTasks s.tasks :=
        pendingTasks_completeCurrent htm hid hp hnd result
      have hbefore : n.starts + pendingTasks s.tasks = s.tasks.length + 1 := heq hnd
      omega
  | synthesize s content calls =>
      exact ⟨fun _ hn _ => by simp at hn, fun _ => hsettled (.inl rfl)⟩

/-! ### A turn -/

section Turn

variable {rt : Runtime} {thread : AgentState} {request : ChatRequest} {c : Config}
  {h : List Config}

/-- **The count of a run of a turn.** -/
theorem stepLaw_of_turn (hh : TurnHistory rt thread request (c :: h)) :
    Running c ∧ StepLaw c (stepCount (c :: h)) ∧ Allotted c (stepCount (c :: h)).starts := by
  refine hh.rec_head (P := fun c h =>
    Running c ∧ StepLaw c (stepCount (c :: h)) ∧ Allotted c (stepCount (c :: h)).starts) ?_ ?_
  · rintro _ rfl
    refine ⟨running_startTurn _ _, stepLaw_startTurn _ _, fun n hn hw => ?_, fun hn => ?_⟩
    · cases hn
      cases hw
    · simp [startTurn] at hn
  · rintro c c' h - ⟨hrun, hcount, hallot⟩ hs
    have ht := hs.transition
    exact ⟨hrun.transition ht, hcount.transition ht, hallot.transition hcount hrun ht⟩

/-- **What a whole turn takes.**  Three supersteps frame it; each task start costs five,
each round through the tools node three and each rework four.  No task goes through the
tools node more than `maxIterations - 1` times or is reworked more than
`maxReworkCycles - 1` times, and there are as many starts as tasks where their ids
differ, never more, and one for a plan without tasks. -/
theorem stepCount_of_turn (hh : TurnHistory rt thread request (c :: h)) (hend : c.next = none) :
    (stepCount (c :: h)).supersteps =
        3 + 5 * (stepCount (c :: h)).starts + 3 * (stepCount (c :: h)).rounds
          + 4 * (stepCount (c :: h)).reworks ∧
      1 ≤ (stepCount (c :: h)).starts ∧
      (stepCount (c :: h)).rounds ≤ (maxIterations - 1) * (stepCount (c :: h)).starts ∧
      (stepCount (c :: h)).reworks ≤ (maxReworkCycles - 1) * (stepCount (c :: h)).starts ∧
      (stepCount (c :: h)).starts ≤ max 1 c.state.tasks.length ∧
      ((c.state.tasks.map Task.id).Nodup →
        (stepCount (c :: h)).starts = max 1 c.state.tasks.length) := by
  obtain ⟨-, hcount, hallot⟩ := stepLaw_of_turn hh
  have hclosed : c.opening = false := by simp [Config.opening, hend]
  have hlaw := hcount.law
  have hrounds := hcount.rounds_le hclosed
  have hreworks := hcount.reworks_le hclosed
  obtain ⟨hle, heq⟩ := hallot.settled (.inr hend)
  rw [hend, lead] at hlaw
  refine ⟨by omega, hcount.started hclosed, ?_, ?_, hle, heq⟩
  · simp only [maxIterations] at hrounds ⊢
    omega
  · simp only [maxReworkCycles] at hreworks ⊢
    omega

end Turn

/-- The outside world of a turn whose one task goes through the tools node once for each
query and is reworked once. -/
def searchingWorld (queries : List String) : List Env :=
  [.silent, .silent] ++
    (queries.flatMap fun query =>
      [.saying "" [⟨"search_web", [("query", .str query)], query⟩], .silent, .silent]) ++
    answerThenJudge "A summary." true ++ doneOnce ++ [.saying "The news." []]

/-- A run of such a turn. -/
def searchingTurn (queries : List String) : List Config :=
  replayTurn .plain ⟨"alice", "s1", "What is new?"⟩ (searchingWorld queries)

/-- A turn that searches twice. -/
theorem stepCount_searchingTwice :
    ∃ c h, searchingTurn ["lean", "python"] = c :: h ∧
      (stepCount (c :: h)).supersteps =
        3 + 5 * (stepCount (c :: h)).starts + 3 * (stepCount (c :: h)).rounds
          + 4 * (stepCount (c :: h)).reworks := by
  have hh : TurnHistory .plain .empty ⟨"alice", "s1", "What is new?"⟩
      (searchingTurn ["lean", "python"]) := history_replay id _ (.start rfl)
  have hend : currentNode (searchingTurn ["lean", "python"]) = none := by decide +kernel
  obtain ⟨c, h, hrun⟩ := List.exists_cons_of_ne_nil hh.ne_nil
  rw [hrun] at hh hend ⊢
  exact ⟨c, h, rfl, (stepCount_of_turn hh hend).1⟩

/-- A task that goes through the tools as often as it can. -/
example : stepCount (searchingTurn ["a", "b", "c", "d", "e", "f", "g"]) = ⟨33, 1, 7, 1⟩ := by
  decide +kernel

/-- A turn with two tasks, each done by one executor. -/
def twoTaskTurn : List Config :=
  replayTurn .plain ⟨"alice", "s1", "What is new?"⟩
    ([.routing ⟨"general_memory", "high", [], ""⟩,
        .planning (some ⟨[⟨1, "Find the news.", .generalMemory⟩,
          ⟨2, "Sum them up.", .generalMemory⟩]⟩)] ++
      doneOnce ++ doneOnce ++ [.saying "The news." []])

/-! ### A run under a limit -/

end Graph
end CognitiveEngine
