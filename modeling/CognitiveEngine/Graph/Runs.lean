/-
# Runs of a turn and of a thread

What the properties of the workflow are stated with: the runs of one turn, the
transitions that start a task, and the executors a run enters.

A task starts where the planner, `direct_executor_init` or an advancing
`task_manager` hands over to an executor (`TaskStart`).  The start of a new turn
is not a task start, wherever the turn before it was cut off.

`replay` computes a run from the answers of the outside world, one `Env` for each
superstep; `history_replay` says that what it computes is a run.
-/

import CognitiveEngine.Graph.Transitions

namespace CognitiveEngine
namespace Graph

/-- The lane of an executor node. -/
def Node.lane? : Node → Option Lane
  | .executor l => some l
  | _ => none

/-- The nodes at work on a task: between the start of a task and `task_manager`. -/
def Node.working : Node → Bool
  | .executor _ | .actionTracker | .tools | .findingExtractor | .criticAgent
  | .reflectionAgent | .taskManager => true
  | _ => false

namespace Config

/-- The lane of the executor about to run, if one is. -/
def lane? (c : Config) : Option Lane := c.next.bind Node.lane?

/-- An executor is about to call its model. -/
def atExecutor (c : Config) : Bool := c.lane?.isSome

/-- The node about to run is one that can start a task. -/
def setsTask (c : Config) : Bool :=
  c.next = some .planner || c.next = some .directExecutorInit || c.next = some .taskManager

/-- The turn has not started a task yet. -/
def opening (c : Config) : Bool :=
  c.next = some .supervisorRouter || c.next = some .planner || c.next = some .directExecutorInit

theorem exists_of_atExecutor {c : Config} (he : c.atExecutor) :
    ∃ l s, c = ⟨some (.executor l), s⟩ := by
  obtain ⟨_ | n, s⟩ := c
  · exact absurd he Bool.false_ne_true
  · cases n with
    | executor l => exact ⟨l, s, rfl⟩
    | supervisorRouter | planner | directExecutorInit | actionTracker | tools | findingExtractor
    | criticAgent | reflectionAgent | taskManager | finalSynthesizer =>
        exact absurd he Bool.false_ne_true

/-- The tool calls the last message carries. -/
def lastCalls (c : Config) : List ToolCall :=
  match c.state.messages.last? with
  | some m => m.toolCalls
  | none => []

theorem lastCalls_of_last? {c : Config} {m : Message} (h : c.state.messages.last? = some m) :
    c.lastCalls = m.toolCalls := by
  simp [lastCalls, h]

end Config

/-- A task starts: the planner, `direct_executor_init` or `task_manager` hands
over to an executor. -/
def TaskStart (c c' : Config) : Prop := c.setsTask ∧ c'.atExecutor

instance : DecidableRel TaskStart := fun c c' => by unfold TaskStart; infer_instance

/-- A new turn starts no task. -/
theorem not_taskStart_startTurn (c : Config) (thread : AgentState) (request : ChatRequest) :
    ¬ TaskStart c (startTurn thread request) :=
  fun h => Bool.false_ne_true h.2

/-- A node other than the entry point was reached by a superstep. -/
theorem ThreadHistory.exists_step {rt : Runtime} {c : Config} {h : List Config}
    (hh : ThreadHistory rt (c :: h)) (hn : c.next ≠ some .supervisorRouter) :
    ∃ c₀ h₀, h = c₀ :: h₀ ∧ ThreadHistory rt (c₀ :: h₀) ∧ Transition rt c₀ c := by
  cases hh with
  | start hs =>
      obtain ⟨request, rfl⟩ := hs
      exact absurd rfl hn
  | next hh hR =>
      cases hR with
      | turn request => exact absurd rfl hn
      | step hs => exact ⟨_, _, rfl, hh, hs.transition⟩

/-- The runs of one turn: the state the thread had, merged with the request, and
supersteps from there. -/
def TurnHistory (rt : Runtime) (thread : AgentState) (request : ChatRequest) :
    List Config → Prop :=
  Machine.History (fun c => c = startTurn thread request) (Step rt)

/-- The node a run is about to run. -/
def currentNode (h : List Config) : Option Node := h.head?.bind Config.next

/-- How many executors a run has entered since the last task start, the one the
start enters included. -/
def executorEntries (h : List Config) : ℕ :=
  Machine.sumSince TaskStart (fun c => if c.atExecutor then 1 else 0) h

/-! ### Computed runs -/

/-- The history a run goes on with, one superstep for each `Env`; it stays where
it is at `END` and where a superstep raises. -/
def replay (rt : Runtime) : List Config → List Env → List Config
  | [], _ => []
  | h, [] => h
  | c :: h, env :: envs =>
      match c.next, step rt env c with
      | some _, .ok c' => replay rt (c' :: c :: h) envs
      | _, _ => c :: h

/-- What `replay` computes is a history again. -/
theorem history_replay {rt : Runtime} {I : Config → Prop} {R : Config → Config → Prop}
    (hR : ∀ {c c'}, Step rt c c' → R c c') (envs : List Env) {h : List Config}
    (hh : Machine.History I R h) : Machine.History I R (replay rt h envs) := by
  induction envs generalizing h with
  | nil => cases h <;> exact hh
  | cons env envs ih =>
      cases h with
      | nil => exact hh
      | cons c h =>
          unfold replay
          split
          · next n c' hn hok =>
              exact ih (.next hh (hR ⟨by simp [hn], env, hok⟩))
          · exact hh

/-- A run of a first turn, computed. -/
def replayTurn (rt : Runtime) (request : ChatRequest) (envs : List Env) : List Config :=
  replay rt [startTurn .empty request] envs

theorem threadHistory_replayTurn (rt : Runtime) (request : ChatRequest) (envs : List Env) :
    ThreadHistory rt (replayTurn rt request envs) :=
  history_replay .step envs (.start ⟨request, rfl⟩)

/-- An executor's answer without tool calls, and what follows up to the verdict. -/
def answerThenJudge (summary : String) (verdict : Bool) : List Env :=
  [.saying "An answer." [], .extracting summary [], .criticizing "Fine.",
    .reflecting verdict "Say more."]

/-- A task done without a tool call, up to `task_manager` handing over. -/
def doneOnce : List Env := answerThenJudge "A summary." false ++ [.silent]

/-- The arguments of a tool call, printed for values that are strings or integers. -/
def plainItems (items : List (String × Json)) : String :=
  "[" ++ ", ".intercalate (items.map fun item => "('" ++ item.1 ++ "', " ++
    (match item.2 with
      | .str s => "'" ++ s ++ "'"
      | .int n => toString n
      | _ => "") ++ ")") ++ "]"

/-- A process in which the hash of a text is the text. -/
def Runtime.plain : Runtime where
  md5Hexdigest := id
  strItems := plainItems
  strFindings := fun _ => "[]"
  strStrings := fun _ => "[]"
  encode := fun _ text => some (text.toList.map Char.toNat)
  encodes := fun _ _ => rfl
  manifest := "You are a highly capable engineering AI assistant."
  settings := ⟨8192, "gpt-4o-mini", "gpt-4o", "o1-mini"⟩

end Graph
end CognitiveEngine
