/-
# Tool calls and their answers

A chat model is handed the message list of the thread, and its provider wants
every AI message with tool calls to be followed by one tool message for each call
before anybody speaks again.  The tools node appends exactly these.  But
`evaluate_tool_hooks` turns a message with tool calls down when a safeguard trips,
and the message stays in the list unanswered.

`paired_iff` says when that is noticed.  In every run of a thread an executor is
called on a paired list each time, exactly when no rework is ordered on a message
that was turned down, and no turn gets as far as an executor that started on a
thread with an unanswered call.  Sandboxing, which keeps the first message alone,
repairs the list (`paired_advanced`); a turn that was cut off between the call and
its answer leaves it broken.
-/

import CognitiveEngine.Graph.Runs

namespace CognitiveEngine
namespace Graph

open Machine

/-- `m.tool_call_id` of a tool message. -/
def Message.toolCallId? : Message → Option String
  | .tool _ id => some id
  | _ => none

/-- The calls the tool messages answer before the next AI or human message. -/
def answersTo (ms : List Message) : List String :=
  (ms.takeWhile fun m => !m.speaks).filterMap Message.toolCallId?

/-- Every message with tool calls is followed, before the next AI or human
message, by one tool message for each of its calls. -/
def Paired : List Message → Prop
  | [] => True
  | m :: ms => (m.toolCalls ≠ [] → (answersTo ms).Perm (m.toolCalls.map ToolCall.id)) ∧ Paired ms

instance decidablePaired : ∀ ms, Decidable (Paired ms)
  | [] => .isTrue trivial
  | m :: ms => by
      have := decidablePaired ms
      unfold Paired
      infer_instance

/-! ### Paired lists -/

/-- What comes after the next speaker answers nothing before it. -/
theorem answersTo_append {m : Message} (hm : m.speaks = true) (ms rest : List Message) :
    answersTo (ms ++ m :: rest) = answersTo ms := by
  unfold answersTo
  congr 1
  induction ms with
  | nil => simp [hm]
  | cons a ms ih =>
      by_cases ha : a.speaks <;> simp [ha]
      exact ih

/-- A list is paired when it is up to a speaker and from the speaker on. -/
theorem paired_append {m : Message} (hm : m.speaks = true) (ms rest : List Message) :
    Paired (ms ++ m :: rest) ↔ Paired ms ∧ Paired (m :: rest) := by
  induction ms with
  | nil => exact (and_iff_right trivial).symm
  | cons a ms ih =>
      rw [List.cons_append, Paired, Paired, ih, answersTo_append hm, and_assoc]

/-- A message at the end is paired when it has no calls. -/
theorem paired_singleton (m : Message) : Paired [m] ↔ m.toolCalls = [] := by
  constructor
  · intro h
    by_contra hne
    have hperm := h.1 hne
    exact hne (List.map_eq_nil_iff.1 (List.nil_perm.1 hperm))
  · intro h
    exact ⟨fun hne => absurd h hne, trivial⟩

/-- The tool messages for the calls, in order. -/
def toolMessages (calls : List ToolCall) (result : ToolCall → String) : List Message :=
  calls.map fun tc => .tool (result tc) tc.id

theorem answersTo_toolMessages (calls : List ToolCall) (result : ToolCall → String) :
    answersTo (toolMessages calls result) = calls.map ToolCall.id := by
  induction calls with
  | nil => rfl
  | cons tc calls ih =>
      show tc.id :: answersTo (toolMessages calls result) = tc.id :: calls.map ToolCall.id
      rw [ih]

theorem paired_toolMessages (calls : List ToolCall) (result : ToolCall → String) :
    Paired (toolMessages calls result) := by
  induction calls with
  | nil => trivial
  | cons tc calls ih => exact ⟨fun h => absurd rfl h, ih⟩

/-- **The tools node answers the calls of the last message.** -/
theorem paired_answered_calls {ms : List Message} (hms : Paired ms) (content : String)
    (calls : List ToolCall) (result : ToolCall → String) :
    Paired (ms ++ [.ai content calls] ++ toolMessages calls result) := by
  rw [List.append_assoc, List.singleton_append, paired_append rfl]
  refine ⟨hms, fun _ => ?_, paired_toolMessages calls result⟩
  rw [answersTo_toolMessages]
  exact List.Perm.refl _

/-! ### The messages along a run -/

/-- The messages a configuration holds. -/
def Config.messages (c : Config) : List Message := c.state.messages.messages

/-- The messages the thread had when the current turn started. -/
def turnBase : List Config → List Message
  | c' :: c :: h => if c'.next = some .supervisorRouter then c.messages else turnBase (c :: h)
  | _ => []

/-- Until its first task starts, a turn has added its prompt and nothing else. -/
theorem messages_of_opening {rt : Runtime} {c : Config} {h : List Config}
    (hh : ThreadHistory rt (c :: h)) :
    c.opening → ∃ prompt, c.messages = turnBase (c :: h) ++ [.human prompt] := by
  refine hh.rec_head (P := fun c h =>
    c.opening → ∃ prompt, c.messages = turnBase (c :: h) ++ [.human prompt]) ?_ ?_
  · rintro _ ⟨request, rfl⟩ _
    exact ⟨request.prompt, rfl⟩
  · intro c c' h _ ih hR ho
    cases hR with
    | turn request => exact ⟨request.prompt, c.state.messages.messages_append _⟩
    | step hs =>
        cases hs.transition with
        | supervise s domain complexity agents last hlast =>
            obtain ⟨prompt, hp⟩ := ih rfl
            refine ⟨prompt, hp.trans ?_⟩
            rw [turnBase, if_neg (by split_ifs <;> simp)]
        | plan | initDirect | dispatch | conclude | track | callTools | extract | criticize
        | rework | exhaust | accept | dismiss | advance | finish | synthesize =>
            exact absurd ho Bool.false_ne_true

/-- The first message of a thread is a prompt. -/
theorem head?_messages {rt : Runtime} {h : List Config} (hh : ThreadHistory rt h) :
    ∀ c ∈ h, ∃ prompt, c.messages.head? = some (.human prompt) := by
  refine hh.forall_mem ?_ ?_
  · rintro _ ⟨request, rfl⟩
    exact ⟨request.prompt, rfl⟩
  · rintro c c' ⟨prompt, hp⟩ hR
    refine ⟨prompt, ?_⟩
    -- what is appended comes after the first message, and sandboxing keeps it
    have happ : ∀ ms, (c.messages ++ ms).head? = some (.human prompt) := by
      intro ms
      rw [List.head?_append, hp]
      rfl
    cases hR with
    | turn request => exact (congrArg List.head? (c.state.messages.messages_append _)).trans (happ _)
    | step hs =>
        cases hs.transition with
        | supervise | plan | initDirect | track | extract | criticize | rework | exhaust | accept
        | dismiss | finish => exact hp
        | dispatch l s content calls hd =>
            exact (congrArg List.head? (s.messages_answered _)).trans (happ _)
        | conclude l s content calls hd =>
            exact (congrArg List.head? (s.messages_answered _)).trans (happ _)
        | callTools s content calls hlast result =>
            exact (congrArg List.head? (s.messages_toolsAnswered _ _)).trans (happ _)
        | synthesize s content calls =>
            exact (congrArg List.head? (s.messages.messages_append _)).trans (happ _)
        | advance s ht result hr next hn =>
            refine (congrArg List.head? (s.messages_advanced result next)).trans ?_
            rw [List.head?_take, if_neg (by decide)]
            exact hp

/-- **Sandboxing leaves a paired list**: the first message alone, a prompt. -/
theorem paired_advanced {rt : Runtime} {s : AgentState} {n : Option Node} {h : List Config}
    (hh : ThreadHistory rt (⟨n, s⟩ :: h)) (result : String) (next : Task) :
    Paired (s.advanced result next).messages.messages := by
  obtain ⟨prompt, hp⟩ := head?_messages hh _ List.mem_cons_self
  obtain ⟨rest, hrest⟩ : ∃ rest, s.messages.messages = .human prompt :: rest :=
    ⟨_, (List.head?_eq_some_iff.1 hp).choose_spec⟩
  rw [s.messages_advanced, hrest]
  exact (paired_singleton _).2 rfl

/-- The nodes between an executor's answer and the next executor or
`task_manager`. -/
def Config.afterAnswer (c : Config) : Bool :=
  c.next = some .actionTracker || c.next = some .tools || c.next = some .findingExtractor ||
    c.next = some .criticAgent || c.next = some .reflectionAgent

/-- After an executor's answer the list is the one it was called on, and the
answer. -/
theorem exists_answered {rt : Runtime} {c : Config} {h : List Config}
    (hh : ThreadHistory rt (c :: h)) :
    c.afterAnswer → ∃ c₀ h₀ content calls, c₀ :: h₀ <:+ h ∧ c₀.atExecutor ∧
      c.messages = c₀.messages ++ [.ai content calls] := by
  refine hh.rec_head (P := fun c h => c.afterAnswer →
    ∃ c₀ h₀ content calls, c₀ :: h₀ <:+ h ∧ c₀.atExecutor ∧
      c.messages = c₀.messages ++ [.ai content calls]) ?_ ?_
  · rintro _ ⟨request, rfl⟩ ha
    exact absurd ha Bool.false_ne_true
  · intro c c' h _ ih hR ha
    -- a node that leaves the list alone has the executor the node before it has
    have hkeep : c.afterAnswer → c'.messages = c.messages →
        ∃ c₀ h₀ content calls, c₀ :: h₀ <:+ c :: h ∧ c₀.atExecutor ∧
          c'.messages = c₀.messages ++ [.ai content calls] := by
      intro hc hm
      obtain ⟨c₀, h₀, content, calls, hsuf, he, heq⟩ := ih hc
      exact ⟨c₀, h₀, content, calls, hsuf.trans (List.suffix_cons _ _), he, hm.trans heq⟩
    cases hR with
    | turn request => exact absurd ha Bool.false_ne_true
    | step hs =>
        cases hs.transition with
        | dispatch l s content calls hd =>
            exact ⟨_, h, content, calls, List.suffix_rfl, rfl, s.messages_answered _⟩
        | conclude l s content calls hd =>
            exact ⟨_, h, content, calls, List.suffix_rfl, rfl, s.messages_answered _⟩
        | track | extract | criticize => exact hkeep rfl rfl
        | supervise => split_ifs at ha <;> exact absurd ha Bool.false_ne_true
        | plan | initDirect | callTools | rework | exhaust | accept | dismiss | advance | finish
        | synthesize => exact absurd ha Bool.false_ne_true

theorem last?_of_messages {c : Config} {ms : List Message} {m : Message}
    (h : c.messages = ms ++ [m]) : c.state.messages.last? = some m :=
  (congrArg List.getLast? h).trans List.getLast?_concat

/-! ### Pairing along a run -/

/-- An executor about to call its model is handed a paired list. -/
def PairedAtCall : List Config → Prop
  | c :: _ => c.atExecutor → Paired c.messages
  | [] => True

/-- What the run an executor is entered from has answered: at the first executor of
a turn, every call on the thread the turn started on; at a rework, every call of
the message to be reworked, so that it has none. -/
def AnsweredBefore : List Config → Prop
  | c' :: c :: h => c'.atExecutor →
      (c.opening → Paired (turnBase (c :: h))) ∧
        (c.next = some .reflectionAgent → c.lastCalls = [])
  | _ => True

instance : DecidablePred PairedAtCall
  | c :: _ => inferInstanceAs (Decidable (c.atExecutor → Paired c.messages))
  | [] => .isTrue trivial

instance : DecidablePred AnsweredBefore
  | c' :: c :: h => inferInstanceAs (Decidable (c'.atExecutor →
      (c.opening → Paired (turnBase (c :: h))) ∧
        (c.next = some .reflectionAgent → c.lastCalls = [])))
  | [_] => .isTrue trivial
  | [] => .isTrue trivial

/-- A rework finds a paired list exactly when the message to be reworked has no
calls. -/
theorem paired_rework_iff {rt : Runtime} {c : Config} {h : List Config}
    (hh : ThreadHistory rt (c :: h)) (hn : c.next = some .reflectionAgent)
    (hP : Throughout PairedAtCall (c :: h)) : Paired c.messages ↔ c.lastCalls = [] := by
  obtain ⟨c₀, h₀, content, calls, hsuf, he, hm⟩ :=
    exists_answered hh (by simp [Config.afterAnswer, hn])
  have hp₀ : Paired c₀.messages := hP c₀ h₀ (hsuf.trans (List.suffix_cons _ _)) he
  rw [Config.lastCalls_of_last? (last?_of_messages hm), hm, paired_append rfl, paired_singleton]
  exact and_iff_right hp₀

/-- **The return from the tools finds a paired list.** -/
theorem paired_toolsAnswered {rt : Runtime} {s : AgentState} {h : List Config}
    (hh : ThreadHistory rt (⟨some .tools, s⟩ :: h))
    (hP : Throughout PairedAtCall (⟨some .tools, s⟩ :: h)) {content : String}
    {calls : List ToolCall} (hlast : s.messages.last? = some (.ai content calls))
    (result : ToolCall → String) :
    Paired (s.toolsAnswered calls result).messages.messages := by
  obtain ⟨c₀, h₀, content₀, calls₀, hsuf, he, hm⟩ := exists_answered hh rfl
  have hp₀ : Paired c₀.messages := hP c₀ h₀ (hsuf.trans (List.suffix_cons _ _)) he
  obtain ⟨rfl, rfl⟩ :=
    Message.ai.inj (Option.some.inj ((last?_of_messages hm).symm.trans hlast))
  have hs : s.messages.messages = c₀.messages ++ [.ai content₀ calls₀] := hm
  rw [AgentState.messages_toolsAnswered, hs]
  exact paired_answered_calls hp₀ content₀ calls₀ result

/-- **Tool calls are answered before every call of a model, exactly when nothing
unanswered is carried into it.**  In every run of a thread each executor is about
to call its model on a paired list, at every state reached, if and only if each
turn that gets as far as an executor started on a thread whose calls were all
answered, and each message sent to rework carries no tool calls. -/
theorem paired_iff {rt : Runtime} {h : List Config} (hh : ThreadHistory rt h) :
    Throughout PairedAtCall h ↔ Throughout AnsweredBefore h := by
  refine hh.throughout_iff ?_ ?_
  · rintro c ⟨request, rfl⟩
    exact iff_of_true (fun he => absurd he Bool.false_ne_true) trivial
  · rintro c c' h hc hR hP
    have hquiet : c'.atExecutor = false →
        (PairedAtCall (c' :: c :: h) ↔ AnsweredBefore (c' :: c :: h)) := by
      intro hex
      have hne : ¬ c'.atExecutor = true := by rw [hex]; exact Bool.false_ne_true
      exact iff_of_true (fun he => absurd he hne) fun he => absurd he hne
    -- the first executor of a turn is handed what the thread had, and the prompt
    have hfirst : c.opening → c'.messages = c.messages → c'.atExecutor →
        c.next ≠ some .reflectionAgent →
        (PairedAtCall (c' :: c :: h) ↔ AnsweredBefore (c' :: c :: h)) := by
      intro ho hm hex hn
      obtain ⟨prompt, hprompt⟩ := messages_of_opening hc ho
      have hiff : Paired c'.messages ↔ Paired (turnBase (c :: h)) := by
        rw [hm, hprompt, paired_append rfl, paired_singleton]
        exact and_iff_left rfl
      exact ⟨fun hp _ => ⟨fun _ => hiff.1 (hp hex), fun h => absurd h hn⟩,
        fun ha _ => hiff.2 ((ha hex).1 ho)⟩
    cases hR with
    | turn request => exact hquiet rfl
    | step hs =>
        cases hs.transition with
        | supervise => exact hquiet (by split_ifs <;> rfl)
        | dispatch | conclude | track | extract | criticize | exhaust | accept | dismiss | finish
        | synthesize => exact hquiet rfl
        | plan => exact hfirst rfl rfl rfl (by simp)
        | initDirect => exact hfirst rfl rfl rfl (by simp)
        | callTools s content calls hlast result =>
            exact iff_of_true (fun _ => paired_toolsAnswered hc hP hlast result)
              fun _ => ⟨fun ho => absurd ho Bool.false_ne_true, fun h => by cases h⟩
        | advance s ht result hr next hn =>
            exact iff_of_true (fun _ => paired_advanced hc result next)
              fun _ => ⟨fun ho => absurd ho Bool.false_ne_true, fun h => by cases h⟩
        | rework s payload hp advice hr =>
            have hiff := paired_rework_iff hc rfl hP
            exact ⟨fun hpc _ => ⟨fun ho => absurd ho Bool.false_ne_true,
              fun _ => hiff.1 (hpc rfl)⟩, fun ha _ => hiff.2 ((ha rfl).2 rfl)⟩

/-- A turn whose executor repeats its search and is sent to rework. -/
def repeatedSearchRun : List Config :=
  replayTurn .plain ⟨"alice", "s1", "What is new?"⟩
    [.silent, .silent, .saying "" [⟨"search_web", [("query", .str "news")], "1"⟩], .silent,
      .silent, .saying "" [⟨"search_web", [("query", .str "news")], "2"⟩],
      .extracting "A summary." [], .criticizing "No answer.", .reflecting true "Answer."]

/-- A turn whose executor answers after one search and is sent to rework. -/
def answeredSearchRun : List Config :=
  replayTurn .plain ⟨"alice", "s1", "What is new?"⟩
    ([.silent, .silent, .saying "" [⟨"search_web", [("query", .str "news")], "1"⟩], .silent,
      .silent] ++ answerThenJudge "A summary." true)

/-- The answered search is followed by its tool message at each call. -/
theorem paired_answered_search : Throughout PairedAtCall answeredSearchRun :=
  (paired_iff (threadHistory_replayTurn _ _ _)).2 (by decide)

/-- **A repeated search is turned down and left unanswered**; the rework calls the
model on it. -/
theorem unpaired_after_rework : ¬ ∀ rt h, ThreadHistory rt h → Throughout PairedAtCall h := by
  intro hall
  have hpaired := hall .plain repeatedSearchRun (threadHistory_replayTurn _ _ _)
  exact absurd hpaired (by decide)

end Graph
end CognitiveEngine
