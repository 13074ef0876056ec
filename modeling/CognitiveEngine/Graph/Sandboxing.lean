/-
# What a turn leaves on its thread

The messages of a thread outlive its turns: the checkpointer keeps them, and the next turn
goes on from them.  Within a turn the nodes only append to them, until `task_manager`
goes on to another task.  Then it sandboxes the context: it removes every message but the
first, whichever turn that is from.

`messages_of_turn` puts this together for a whole turn.  After a turn with one task the
thread holds what it held before, the prompt and all that was said in the turn.  After a
turn with more it holds one message of all that, the first, and what was said since the
last task was started.
-/

import CognitiveEngine.Graph.Supersteps

namespace CognitiveEngine
namespace Graph

open Machine

/-- What a superstep adds to the messages. -/
def saidIn (p : Config × Config) : List Message :=
  p.2.state.messages.messages.drop p.1.state.messages.messages.length

/-- What has been said since the last task start, in order. -/
def saidSince (h : List Config) : List Message := (stepsSince TaskStart h).reverse.flatMap saidIn

theorem saidSince_of_start {c c' : Config} (hm : TaskStart c c') (h : List Config) :
    saidSince (c' :: c :: h) = [] := by
  simp [saidSince, stepsSince_cons_of_mark hm]

theorem saidSince_of_not_start {c c' : Config} (hm : ¬ TaskStart c c') (h : List Config) :
    saidSince (c' :: c :: h) = saidSince (c :: h) ++ saidIn (c, c') := by
  simp [saidSince, stepsSince_cons_of_not_mark hm]

/-- The prompt of a user. -/
def Message.isHuman : Message → Bool
  | .human _ => true
  | _ => false

/-- **A superstep appends, or sandboxes.**  A task start after the first keeps the first
message alone; the first one, and every other superstep, keeps all messages and adds what
is said, which is never said by the user. -/
theorem Transition.says {rt : Runtime} {c c' : Config} (h : Transition rt c c') :
    (TaskStart c c' ∧ c.next = some .taskManager ∧
      c'.state.messages.messages = c.state.messages.messages.take 1) ∨
    (TaskStart c c' ∧ c.opening ∧ c'.state.messages.messages = c.state.messages.messages) ∨
    (¬ TaskStart c c' ∧
      c'.state.messages.messages = c.state.messages.messages ++ saidIn (c, c') ∧
      (∀ m ∈ saidIn (c, c'), m.isHuman = false) ∧
      (c'.opening → c.opening ∧ saidIn (c, c') = [])) := by
  -- What is appended is what is said.
  have happend (said : List Message) (hs : ¬ TaskStart c c')
      (heq : c'.state.messages.messages = c.state.messages.messages ++ said)
      (hnot : ∀ m ∈ said, m.isHuman = false) (hopen : c'.opening → c.opening ∧ said = []) :
      ¬ TaskStart c c' ∧
        c'.state.messages.messages = c.state.messages.messages ++ saidIn (c, c') ∧
        (∀ m ∈ saidIn (c, c'), m.isHuman = false) ∧
        (c'.opening → c.opening ∧ saidIn (c, c') = []) := by
    have hsaid : saidIn (c, c') = said := by
      rw [saidIn, heq, List.drop_left]
    rw [hsaid]
    exact ⟨hs, heq, hnot, hopen⟩
  cases h with
  | advance s ht result hr next hn =>
      exact .inl ⟨⟨rfl, rfl⟩, rfl, s.messages_advanced result next⟩
  | plan | initDirect => exact .inr (.inl ⟨⟨rfl, rfl⟩, rfl, rfl⟩)
  | supervise =>
      exact .inr (.inr (happend [] (fun h => Bool.false_ne_true h.1) (List.append_nil _).symm
        (List.forall_mem_nil _) fun _ => ⟨rfl, rfl⟩))
  | track | extract | criticize | rework | exhaust | accept =>
      exact .inr (.inr (happend [] (fun h => Bool.false_ne_true h.1) (List.append_nil _).symm
        (List.forall_mem_nil _) nofun))
  | dismiss | finish =>
      exact .inr (.inr (happend [] (fun h => Bool.false_ne_true h.2) (List.append_nil _).symm
        (List.forall_mem_nil _) nofun))
  | dispatch l s content calls hd =>
      exact .inr (.inr (happend [.ai content calls] (fun h => Bool.false_ne_true h.1)
        (s.messages_answered _) (by simp [Message.isHuman]) nofun))
  | conclude l s content calls hd =>
      exact .inr (.inr (happend [.ai content calls] (fun h => Bool.false_ne_true h.1)
        (s.messages_answered _) (by simp [Message.isHuman]) nofun))
  | callTools s content calls hlast result =>
      exact .inr (.inr (happend _ (fun h => Bool.false_ne_true h.1)
        (s.messages_toolsAnswered calls result) (by simp [Message.isHuman]) nofun))
  | synthesize s content calls =>
      exact .inr (.inr (happend [.ai content calls] (fun h => Bool.false_ne_true h.2)
        (s.messages.messages_append _) (by simp [Message.isHuman]) nofun))

/-! ### A turn -/

/-- What a turn starts from: the messages of the thread, and the prompt. -/
def turnMessages (thread : AgentState) (request : ChatRequest) : List Message :=
  thread.messages.messages ++ [.human request.prompt]

theorem messages_startTurn (thread : AgentState) (request : ChatRequest) :
    (startTurn thread request).state.messages.messages = turnMessages thread request :=
  thread.messages.messages_append _

/-- What a run of a turn has kept of what it started from. -/
def keptMessages (thread : AgentState) (request : ChatRequest) (starts : ℕ) : List Message :=
  if starts ≤ 1 then turnMessages thread request else (turnMessages thread request).take 1

/-- The first message is kept, however often the context is sandboxed. -/
theorem take_keptMessages (thread : AgentState) (request : ChatRequest) (starts : ℕ)
    (said : List Message) :
    (keptMessages thread request starts ++ said).take 1 = (turnMessages thread request).take 1 := by
  have hpos : 1 ≤ (turnMessages thread request).length := by
    rw [turnMessages, List.length_append, List.length_singleton]
    exact Nat.le_add_left 1 _
  unfold keptMessages
  split_ifs
  · exact List.take_append_of_le_length hpos
  · rw [List.take_append_of_le_length (by rw [List.length_take]; omega), List.take_take, min_self]

/-- **What a run of a turn leaves on its thread**, at any of its supersteps: what it
started from, whole while one task at most was started and then its first message alone,
and after that what has been said since the last task start.  Nothing of the latter is
said by the user, so a prompt is gone once the context was sandboxed, unless it opened the
thread. -/
theorem messages_of_turn {rt : Runtime} {thread : AgentState} {request : ChatRequest}
    {c : Config} {h : List Config} (hh : TurnHistory rt thread request (c :: h)) :
    c.state.messages.messages =
        keptMessages thread request (stepCount (c :: h)).starts ++ saidSince (c :: h) ∧
      ∀ m ∈ saidSince (c :: h), m.isHuman = false := by
  have hall := hh.rec_head (P := fun c h =>
    c.state.messages.messages =
        keptMessages thread request (stepCount (c :: h)).starts ++ saidSince (c :: h) ∧
      (∀ m ∈ saidSince (c :: h), m.isHuman = false) ∧
      (c.opening → saidSince (c :: h) = [])) ?_ ?_
  · exact ⟨hall.1, hall.2.1⟩
  · rintro _ rfl
    refine ⟨?_, List.forall_mem_nil _, fun _ => rfl⟩
    rw [messages_startTurn]
    exact (List.append_nil _).symm
  · rintro c c' h hh ⟨hmessages, hnot, hopen⟩ hs
    obtain ⟨-, hlaw, -⟩ := stepLaw_of_turn hh
    have hadd : (stepCount (c' :: c :: h)).starts
        = (stepCount (c :: h)).starts + if TaskStart c c' then 1 else 0 := rfl
    rcases hs.transition.says with ⟨hm, hmanager, htake⟩ | ⟨hm, hopening, hsame⟩ |
      ⟨hm, hsays, hsaid, hopening⟩
    · have hstarted := hlaw.started (by simp [Config.opening, hmanager])
      have hkept : keptMessages thread request ((stepCount (c :: h)).starts + 1)
          = (turnMessages thread request).take 1 := if_neg (by omega)
      rw [hadd, if_pos hm, saidSince_of_start hm, List.append_nil, hkept, htake, hmessages,
        take_keptMessages]
      exact ⟨rfl, List.forall_mem_nil _, fun _ => rfl⟩
    · have hnone : (stepCount (c :: h)).starts = 0 := (hlaw.unstarted hopening).1
      rw [hadd, if_pos hm, saidSince_of_start hm, hsame, hmessages, hopen hopening, hnone]
      exact ⟨rfl, List.forall_mem_nil _, fun _ => rfl⟩
    · rw [hadd, if_neg hm, add_zero, saidSince_of_not_start hm, hsays, hmessages,
        List.append_assoc]
      refine ⟨rfl, fun m hmem => ?_, fun hopen' => ?_⟩
      · rcases List.mem_append.1 hmem with hmem | hmem
        · exact hnot m hmem
        · exact hsaid m hmem
      · obtain ⟨hc, hnil⟩ := hopening hopen'
        rw [hopen hc, hnil]
        rfl

/-- After two tasks the answer to the first is gone, and the prompt is there as the first
message of its thread. -/
theorem twoTaskTurn_sandboxed :
    ∃ c h, twoTaskTurn = c :: h ∧
      c.state.messages.messages.map Message.content =
        ["What is new?", "An answer.", "The news."] ∧
      ∀ m ∈ saidSince (c :: h), m.isHuman = false := by
  have hh : TurnHistory .plain .empty ⟨"alice", "s1", "What is new?"⟩ twoTaskTurn :=
    history_replay id _ (.start rfl)
  have hstarts : (stepCount twoTaskTurn).starts = 2 := by decide +kernel
  have hsaid : (saidSince twoTaskTurn).map Message.content = ["An answer.", "The news."] := by
    decide +kernel
  obtain ⟨c, h, hrun⟩ := List.exists_cons_of_ne_nil hh.ne_nil
  rw [hrun] at hh hstarts hsaid ⊢
  obtain ⟨hmessages, hnot⟩ := messages_of_turn hh
  refine ⟨c, h, rfl, ?_, hnot⟩
  rw [hmessages, hstarts, List.map_append, hsaid]
  rfl

end Graph
end CognitiveEngine
