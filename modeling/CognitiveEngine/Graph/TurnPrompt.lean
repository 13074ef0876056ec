/-
# What a turn takes for its prompt

The supervisor reads the latest message of a turn.  The planner, the executors'
retrieval and the context sandboxing of `task_manager` read the first message on
the channel instead, which they call the initial or the original prompt.  On a
thread the checkpointer has restored, that is the prompt of its first turn.

`own_prompt_iff` says so: a turn that gets as far as the planner or an executor
works on its own prompt throughout exactly when it is the first turn of its thread
or repeats the prompt of the first one.  `head?_of_thread` is the invariant behind
it, that nothing in any turn ever removes the first message of a thread.
-/

import CognitiveEngine.Graph.Runs

namespace CognitiveEngine
namespace Graph

open Machine

/-- A thread: the requests of its turns so far, and the state the checkpointer has.
A turn ends at `END` or is cut off anywhere. -/
inductive Thread (rt : Runtime) : List ChatRequest → AgentState → Prop
  | fresh : Thread rt [] .empty
  | turn {requests : List ChatRequest} {s : AgentState} {request : ChatRequest} {c : Config}
      {h : List Config} (ht : Thread rt requests s) (hh : TurnHistory rt s request (c :: h)) :
      Thread rt (requests ++ [request]) c.state

/-! ### The readers of the prompt -/

/-- The text an executor searches for, or hands to `transform_user_query`, is `p`. -/
def SearchesFor (p : String) (l : Lane) (s : AgentState) : Prop :=
  match l with
  | .generalMemory => ∀ env, generalProfile.query env s = p
  | .researchPapers => ∀ env, researchProfile.query env s = transformUserQuery env p
  | .visionDetection => ∀ env, visionProfile.query env s = p

/-- The node about to run is given `p` as the prompt, if it is the planner or an
executor. -/
def Config.WorksOn (p : String) (c : Config) : Prop :=
  match c.next with
  | some .planner => (plannerPrompt c.state).getLast? = some (.human p)
  | some (.executor l) => SearchesFor p l c.state
  | _ => True

/-- When `task_manager` hands over to the next task, the message `p` is all that is
left. -/
def KeepsPrompt (p : String) (c c' : Config) : Prop :=
  c.next = some .taskManager → c'.atExecutor → c'.state.messages.messages = [.human p]

/-- Everything a run takes for the user's prompt is `p`. -/
def OnPrompt (p : String) (h : List Config) : Prop :=
  (∀ c ∈ h, c.WorksOn p) ∧ ∀ t ∈ steps h, KeepsPrompt p t.1 t.2

/-- The node about to run takes the user's prompt from the state. -/
def Config.takesPrompt (c : Config) : Bool := c.next = some .planner || c.atExecutor

/-! ### The first message -/

/-- **No superstep removes the first message.** -/
theorem Transition.head? {rt : Runtime} {c c' : Config} (h : Transition rt c c') {m : Message}
    (hm : c.state.messages.head? = some m) : c'.state.messages.head? = some m := by
  have happend : ∀ (log log' : MessageLog) (ms : List Message),
      log'.messages = log.messages ++ ms → log.head? = some m → log'.head? = some m := by
    intro log log' ms hlog hhead
    rw [MessageLog.head?, hlog, List.head?_append, show log.messages.head? = some m from hhead]
    rfl
  cases h with
  | supervise | plan | initDirect | track | extract | criticize | rework | exhaust | accept
  | dismiss | finish => exact hm
  | dispatch l s content calls | conclude l s content calls =>
      exact happend _ _ _ (s.messages_answered _) hm
  | callTools s content calls hlast result =>
      exact happend _ _ _ (s.messages_toolsAnswered calls result) hm
  | advance s ht result hr next hn =>
      have hkept : (s.advanced result next).messages.messages = s.messages.messages.take 1 :=
        s.messages_advanced result next
      rw [MessageLog.head?, hkept, List.head?_take]
      exact hm
  | synthesize s content calls => exact happend _ _ _ (s.messages.messages_append _) hm

/-- A new request finds the first message of its thread, or is the first one. -/
theorem head?_startTurn (thread : AgentState) (request : ChatRequest) :
    (startTurn thread request).state.messages.head?
      = some ((thread.messages.head?).getD (.human request.prompt)) := by
  have happend : (startTurn thread request).state.messages.messages
      = thread.messages.messages ++ [.human request.prompt] :=
    thread.messages.messages_append _
  rw [MessageLog.head?, happend, List.head?_append, MessageLog.head?]
  cases thread.messages.messages.head? <;> rfl

theorem TurnHistory.head? {rt : Runtime} {thread : AgentState} {request : ChatRequest}
    {h : List Config} (hh : TurnHistory rt thread request h) :
    ∀ c ∈ h, c.state.messages.head?
      = some ((thread.messages.head?).getD (.human request.prompt)) := by
  refine hh.forall_mem ?_ fun _ _ hc hs => hs.transition.head? hc
  rintro _ rfl
  exact head?_startTurn thread request

/-- **The first message of a thread is the prompt of its first turn.** -/
theorem head?_of_thread {rt : Runtime} {requests : List ChatRequest} {thread : AgentState}
    (ht : Thread rt requests thread) :
    thread.messages.head? = requests.head?.map fun first => .human first.prompt := by
  induction ht with
  | fresh => rfl
  | turn _ hh ih =>
      rw [hh.head? _ List.mem_cons_self, ih, List.head?_append]
      cases List.head? _ <;> rfl

/-! ### What the readers make of it -/

theorem userInitialPrompt_of_head? {s : AgentState} {q : String}
    (hq : s.messages.head? = some (.human q)) : s.userInitialPrompt = q := by
  simp [AgentState.userInitialPrompt, hq, Message.content]

/-- `transform_user_query` tells two prompts apart for some answers of its model. -/
theorem exists_transformUserQuery_ne {p q : String} (h : q ≠ p) :
    ∃ env, transformUserQuery env q ≠ transformUserQuery env p := by
  classical
  have hne : transformPrompt p ≠ transformPrompt q := by
    intro heq
    simp only [transformPrompt, List.cons.injEq, Message.human.injEq, true_and, and_true,
      String.append_right_inj] at heq
    exact h heq.symm
  refine ⟨{ Env.silent with
    chat := fun _ ms => ⟨[if ms = transformPrompt q then "a" else "b"], []⟩ }, ?_⟩
  simp only [transformUserQuery, if_neg hne, if_true]
  decide

/-- An executor searches for the first message of its thread. -/
theorem searchesFor_iff {s : AgentState} {q : String} (hq : s.messages.head? = some (.human q))
    (p : String) (l : Lane) : SearchesFor p l s ↔ q = p := by
  have hprompt : s.userInitialPrompt = q := userInitialPrompt_of_head? hq
  cases l with
  | generalMemory | visionDetection =>
      refine ⟨fun h => ?_, fun h env => hprompt.trans h⟩
      rw [← hprompt]
      exact h .silent
  | researchPapers =>
      have hquery : ∀ env, researchProfile.query env s = transformUserQuery env q := by
        intro env
        rw [← hprompt]
        rfl
      constructor
      · intro h
        by_contra hne
        obtain ⟨env, henv⟩ := exists_transformUserQuery_ne hne
        exact henv ((hquery env).symm.trans (h env))
      · rintro rfl
        exact hquery

theorem worksOn_iff {c : Config} {q : String} (hq : c.state.messages.head? = some (.human q))
    (hr : c.takesPrompt) (p : String) : c.WorksOn p ↔ q = p := by
  obtain ⟨_ | n, s⟩ := c
  · exact absurd hr Bool.false_ne_true
  · cases n with
    | planner =>
        have hplanner : (plannerPrompt s).getLast? = some (.human q) := by
          rw [← userInitialPrompt_of_head? hq]
          rfl
        simp only [Config.WorksOn, hplanner, Option.some.injEq, Message.human.injEq]
    | executor l => exact searchesFor_iff hq p l
    | supervisorRouter | directExecutorInit | actionTracker | tools | findingExtractor
    | criticAgent | reflectionAgent | taskManager | finalSynthesizer =>
        exact absurd hr Bool.false_ne_true

theorem worksOn_of_not_takesPrompt {c : Config} (hr : ¬ c.takesPrompt) (p : String) :
    c.WorksOn p := by
  obtain ⟨_ | n, s⟩ := c
  · trivial
  · cases n with
    | planner | executor => exact absurd rfl hr
    | supervisorRouter | directExecutorInit | actionTracker | tools | findingExtractor
    | criticAgent | reflectionAgent | taskManager | finalSynthesizer => trivial

/-- Sandboxing keeps the first message of the thread. -/
theorem keepsPrompt_of_head? {rt : Runtime} {c c' : Config} (h : Transition rt c c') {p : String}
    (hp : c.state.messages.head? = some (.human p)) : KeepsPrompt p c c' := by
  intro hn he
  cases h with
  | advance s ht result hr next hnext =>
      have hkept : (s.advanced result next).messages.messages = s.messages.messages.take 1 :=
        s.messages_advanced result next
      rw [hkept]
      obtain ⟨rest, hrest⟩ := List.head?_eq_some_iff.1 hp
      rw [hrest]
      rfl
  | dismiss | finish => exact absurd he Bool.false_ne_true
  | supervise | plan | initDirect | dispatch | conclude | track | callTools | extract | criticize
  | rework | exhaust | accept | synthesize => cases hn

/-! ### Own prompts -/

/-- A run that does not get as far as the planner or an executor takes nothing for the
prompt. -/
theorem onPrompt_of_not_takesPrompt {h : List Config} (hr : ¬ ∃ c ∈ h, c.takesPrompt)
    (p : String) : OnPrompt p h := by
  have hnot : ∀ c ∈ h, ¬ c.takesPrompt := fun c hc htakes => hr ⟨c, hc, htakes⟩
  refine ⟨fun c hc => worksOn_of_not_takesPrompt (hnot c hc) p, fun t ht _ hexecutor => ?_⟩
  have htakes : t.2.takesPrompt := by
    rw [Config.takesPrompt, hexecutor, Bool.or_true]
  exact absurd htakes (hnot _ (mem_of_mem_steps ht).2)

/-- **A turn works on its own prompt exactly when it repeats the first one.**  On a
thread with any turns before it, a turn that gets as far as the planner or an
executor is given its own prompt by all of them, and keeps it when the context is
sandboxed, if and only if it is the first turn or has the prompt of the first turn. -/
theorem own_prompt_iff {rt : Runtime} {requests : List ChatRequest} {thread : AgentState}
    (ht : Thread rt requests thread) {request : ChatRequest} {h : List Config}
    (hh : TurnHistory rt thread request h) :
    OnPrompt request.prompt h ↔
      ((∃ c ∈ h, c.takesPrompt) → ∀ first ∈ requests.head?, first.prompt = request.prompt) := by
  have hthread := head?_of_thread ht
  obtain ⟨q, hhead, hq⟩ : ∃ q, (∀ c ∈ h, c.state.messages.head? = some (.human q)) ∧
      (q = request.prompt ↔ ∀ first ∈ requests.head?, first.prompt = request.prompt) := by
    have hall := hh.head?
    rw [hthread] at hall
    cases hfirst : requests.head? with
    | none => exact ⟨request.prompt, by simpa [hfirst] using hall, by simp⟩
    | some first => exact ⟨first.prompt, by simpa [hfirst] using hall, by simp⟩
  rw [← hq]
  constructor
  · rintro hon ⟨c, hc, htakes⟩
    exact (worksOn_iff (hhead c hc) htakes _).1 (hon.1 c hc)
  · intro hown
    by_cases hr : ∃ c ∈ h, c.takesPrompt
    · obtain rfl := hown hr
      refine ⟨fun c hc => ?_, fun t hmem => ?_⟩
      · by_cases htakes : c.takesPrompt
        · exact (worksOn_iff (hhead c hc) htakes _).2 rfl
        · exact worksOn_of_not_takesPrompt htakes _
      · have hs : Step rt t.1 t.2 := hh.rel_of_mem_steps hmem
        exact keepsPrompt_of_head? hs.transition (hhead _ (mem_of_mem_steps hmem).1)
    · exact onPrompt_of_not_takesPrompt hr request.prompt

/-- A low-complexity turn without a tool call, to its end. -/
def shortTurn : List Env := [.silent, .silent] ++ doneOnce ++ [.saying "The answer." []]

/-- A low-complexity turn on a thread, computed. -/
def shortTurnOn (thread : AgentState) (request : ChatRequest) : List Config :=
  replay .plain [startTurn thread request] shortTurn

theorem turnHistory_shortTurnOn (thread : AgentState) (request : ChatRequest) :
    TurnHistory .plain thread request (shortTurnOn thread request) :=
  history_replay id shortTurn (.start rfl)

/-- The state of a thread after such a turn. -/
def afterShortTurn (thread : AgentState) (request : ChatRequest) : AgentState :=
  match shortTurnOn thread request with
  | c :: _ => c.state
  | [] => thread

/-- A question asked again is worked on. -/
theorem own_prompt_repeated :
    OnPrompt "What is new?" (shortTurnOn (afterShortTurn .empty ⟨"alice", "s1", "What is new?"⟩)
      ⟨"alice", "s1", "What is new?"⟩) := by
  have ht : Thread .plain [⟨"alice", "s1", "What is new?"⟩]
      (afterShortTurn .empty ⟨"alice", "s1", "What is new?"⟩) :=
    .turn .fresh (turnHistory_shortTurnOn .empty ⟨"alice", "s1", "What is new?"⟩)
  exact (own_prompt_iff ht (turnHistory_shortTurnOn _ _)).2 fun _ => by simp

/-- **A second question is not what the second turn works on**: the first turn has come
to its end, and the executor of the second one searches the memory for the question of
the first. -/
theorem own_prompt_missed :
    ¬ ∀ rt first thread rest second h, TurnHistory rt .empty first (⟨none, thread⟩ :: rest) →
      TurnHistory rt thread second h → OnPrompt second.prompt h := by
  intro hall
  let first : ChatRequest := ⟨"alice", "s1", "What is new?"⟩
  let second : ChatRequest := ⟨"alice", "s1", "And in Hue?"⟩
  have hsecond := turnHistory_shortTurnOn (afterShortTurn .empty first) second
  have hon := hall .plain first _ _ second _ (turnHistory_shortTurnOn .empty first) hsecond
  obtain ⟨c, hc, htakes⟩ := List.any_eq_true.1
    (show (shortTurnOn (afterShortTurn .empty first) second).any Config.takesPrompt = true from rfl)
  have hsame := (worksOn_iff (hsecond.head? c hc) htakes _).1 (hon.1 c hc)
  exact absurd hsame (by decide)

end Graph
end CognitiveEngine
