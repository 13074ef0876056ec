/-
# The tool budget and the duplicate check

`evaluate_tool_hooks` guards every dispatch of tool calls with three tests, and
`action_tracker_node` moves what the tests read only afterwards, by the whole
message at once.  Both safeguards therefore hold between messages and not inside
one:

* the budget is compared before the calls of the message are added to it, so the
  last message may overrun it by any number of calls (`budget_overrun`); it holds
  exactly on the runs in which every dispatched message still fits
  (`callsHanded_le_iff`);
* the duplicate check looks a call up in the history of earlier messages, so two
  equal calls of one message both run (`repeated_in_one_message`), and it compares
  texts, so equal arguments that print differently pass as well; apart from these
  two cases no call is handed over twice (`no_repeat_iff`).

The invariants behind them are `Transition.toolCalls` and `Transition.history`:
the counter is the number of calls handed over since the task started, and the
history lists the hashes of the calls handed over since it was last emptied.
-/

import CognitiveEngine.Graph.Runs

namespace CognitiveEngine
namespace Graph

open Machine

namespace Config

/-- The calls handed to the tools node, when it is about to run. -/
def handed (c : Config) : List ToolCall := if c.next = some .tools then c.lastCalls else []

/-- The tracker hands over the calls of the message it has read. -/
theorem handed_tracked {rt : Runtime} {s : AgentState} {last : Message}
    (hlast : s.messages.last? = some last) :
    (⟨some .tools, s.tracked rt last.toolCalls⟩ : Config).handed = last.toolCalls :=
  lastCalls_of_last? hlast

end Config

/-! ### The budget -/

/-- The number of tool calls handed to the tools node since the last task start. -/
def callsHanded (h : List Config) : ℕ := sumSince TaskStart (fun c => c.handed.length) h

/-- One superstep and the tool counter: the start of a task resets it, and it
grows by the calls the superstep hands over. -/
theorem Transition.toolCalls {rt : Runtime} {c c' : Config} (h : Transition rt c c') :
    (TaskStart c c' ∧ c'.state.toolCallCount = 0 ∧ c'.handed = []) ∨
      (¬ TaskStart c c' ∧
        c'.state.toolCallCount = c.state.toolCallCount + c'.handed.length) := by
  cases h with
  | plan | initDirect | advance => exact .inl ⟨⟨rfl, rfl⟩, rfl, rfl⟩
  | supervise s domain complexity agents last hlast =>
      refine .inr ⟨fun h => Bool.false_ne_true h.1, ?_⟩
      split_ifs <;> rfl
  | track s last hlast =>
      refine .inr ⟨fun h => Bool.false_ne_true h.1, ?_⟩
      rw [Config.handed_tracked hlast]
      rfl
  | dispatch | conclude | callTools | extract | criticize | rework | exhaust | accept =>
      exact .inr ⟨fun h => Bool.false_ne_true h.1, rfl⟩
  | dismiss | finish | synthesize => exact .inr ⟨fun h => Bool.false_ne_true h.2, rfl⟩

/-- Only the start of a task ends the opening of a turn. -/
theorem Transition.opening {rt : Runtime} {c c' : Config} (h : Transition rt c c')
    (hm : ¬ TaskStart c c') (ho : c'.opening = false) : c.opening = false := by
  cases h with
  | supervise => split_ifs at ho <;> cases ho
  | plan | initDirect => exact absurd ⟨rfl, rfl⟩ hm
  | dispatch | conclude | track | callTools | extract | criticize | rework | exhaust | accept
  | dismiss | advance | finish | synthesize => rfl

/-- Once a task has started, the tool counter is the number of calls handed over
since. -/
theorem callsHanded_eq {rt : Runtime} {c : Config} {h : List Config}
    (hh : ThreadHistory rt (c :: h)) :
    c.opening = false → callsHanded (c :: h) = c.state.toolCallCount := by
  refine hh.rec_head (P := fun c h =>
    c.opening = false → callsHanded (c :: h) = c.state.toolCallCount) ?_ ?_
  · rintro _ ⟨request, rfl⟩ ho
    exact absurd ho.symm Bool.false_ne_true
  · intro c c' h _ ih hR ho
    cases hR with
    | turn request => exact absurd ho.symm Bool.false_ne_true
    | step hs =>
        have ht := hs.transition
        rcases ht.toolCalls with ⟨hm, hcount, hnone⟩ | ⟨hm, hcount⟩
        · rw [callsHanded, sumSince_cons_of_mark hm, hcount, hnone]
          rfl
        · rw [callsHanded, sumSince_cons_of_not_mark hm, ← callsHanded, ih (ht.opening hm ho),
            hcount]
          omega

/-- The tools node is entered from the tracker, with the calls of the message the
tracker read. -/
theorem Transition.into_tools {rt : Runtime} {c c' : Config} (h : Transition rt c c')
    (ht : c'.next = some .tools) :
    c.next = some .actionTracker ∧ c'.handed = c.lastCalls ∧
      c'.state.toolCallCount = c.state.toolCallCount + c.lastCalls.length := by
  obtain ⟨next, s⟩ := c'
  obtain rfl : next = some .tools := ht
  obtain ⟨s₀, last, hlast, rfl, rfl⟩ := h.of_tools
  have hcalls : (⟨some .actionTracker, s₀⟩ : Config).lastCalls = last.toolCalls :=
    Config.lastCalls_of_last? hlast
  rw [hcalls]
  exact ⟨rfl, Config.handed_tracked hlast, rfl⟩

/-- Entering the tools node adds the calls of the message to the counter. -/
theorem callsHanded_of_tools {rt : Runtime} {c c' : Config} {h : List Config}
    (hh : ThreadHistory rt (c' :: c :: h)) (ht : c'.next = some .tools) :
    callsHanded (c' :: c :: h) = c.state.toolCallCount + c.lastCalls.length := by
  cases hh with
  | next hc hR =>
      cases hR with
      | turn request => cases ht
      | step hs =>
          obtain ⟨_, _, hcount⟩ := hs.transition.into_tools ht
          have ho : c'.opening = false := by simp [Config.opening, ht]
          rw [callsHanded_eq (.next hc (.step hs)) ho, hcount]

/-- Nothing else hands calls over. -/
theorem callsHanded_of_not_tools {c c' : Config} {h : List Config}
    (ht : c'.next ≠ some .tools) : callsHanded (c' :: c :: h) ≤ callsHanded (c :: h) := by
  have hnone : c'.handed = [] := if_neg ht
  unfold callsHanded
  by_cases hm : TaskStart c c'
  · rw [sumSince_cons_of_mark hm, hnone]
    exact Nat.zero_le _
  · rw [sumSince_cons_of_not_mark hm, hnone]
    exact (Nat.zero_add _).le

/-- **The budget holds exactly while every dispatched message fits into it.**  In
every run of a thread, at most `maxToolCalls` calls have been handed to the tools
node since the last task start, at every state reached, if and only if each time
the tools node is entered the counter and the calls of the message together are
within the budget. -/
theorem callsHanded_le_iff {rt : Runtime} {h : List Config} (hh : ThreadHistory rt h) :
    Throughout (fun h => callsHanded h ≤ maxToolCalls) h ↔
      ∀ p ∈ steps h, p.2.next = some .tools →
        p.1.state.toolCallCount + p.1.lastCalls.length ≤ maxToolCalls := by
  refine hh.throughout_iff_steps (Q := fun c c' => c'.next = some .tools →
    c.state.toolCallCount + c.lastCalls.length ≤ maxToolCalls) ?_ ?_
  · rintro c ⟨request, rfl⟩
    exact Nat.zero_le _
  · intro c c' h hc hR hP
    by_cases ht : c'.next = some .tools
    · rw [callsHanded_of_tools (.next hc hR) ht]
      exact ⟨fun hle _ => hle, fun hle => hle ht⟩
    · exact iff_of_true ((callsHanded_of_not_tools ht).trans hP.head) fun h => absurd h ht

/-- Searches for `0`, …, `n - 1`. -/
def searches (n : ℕ) : List ToolCall :=
  (List.range n).map fun i => ⟨"search_web", [("query", .int i)], toString i⟩

/-- A low-complexity turn whose executor answers with one message of tool calls,
up to the tools node. -/
def oneMessageRun (calls : List ToolCall) : List Config :=
  replayTurn .plain ⟨"alice", "s1", "What is new?"⟩ [.silent, .silent, .saying "" calls, .silent]

/-- Ten calls in one message fit. -/
theorem callsHanded_le_ten :
    Throughout (fun h => callsHanded h ≤ maxToolCalls) (oneMessageRun (searches 10)) :=
  (callsHanded_le_iff (threadHistory_replayTurn _ _ _)).2 (by decide)

/-- **One message overruns the budget.**  The counter is `0` when the message is
tested, whatever the number of calls it carries; eleven are handed over. -/
theorem budget_overrun :
    ¬ ∀ rt h, ThreadHistory rt h → Throughout (fun h => callsHanded h ≤ maxToolCalls) h := by
  intro hall
  have hle := hall .plain (oneMessageRun (searches 11)) (threadHistory_replayTurn _ _ _)
  exact absurd (hle _ _ List.suffix_rfl) (by decide)

/-! ### Duplicates -/

/-- `action_history` is emptied: a new turn starts, or the planner or
`direct_executor_init` hands over.  `task_manager` keeps it. -/
def HistoryReset (c c' : Config) : Prop :=
  c'.next = some .supervisorRouter ∨
    (c.next = some .planner ∨ c.next = some .directExecutorInit) ∧ c'.atExecutor

instance : DecidableRel HistoryReset := fun c c' => by unfold HistoryReset; infer_instance

/-- The messages of calls handed to the tools node since `action_history` was last
emptied, in order. -/
def handedBatches (h : List Config) : List (List ToolCall) :=
  ((since HistoryReset h).map Config.handed).reverse

/-- The calls handed to the tools node since `action_history` was last emptied. -/
def handedSince (h : List Config) : List ToolCall := (handedBatches h).flatten

theorem handedBatches_of_reset {c c' : Config} (hm : HistoryReset c c') (h : List Config) :
    handedBatches (c' :: c :: h) = [c'.handed] := by
  simp [handedBatches, since_cons_of_mark HistoryReset hm]

theorem handedBatches_of_not_reset {c c' : Config} (hm : ¬ HistoryReset c c') (h : List Config) :
    handedBatches (c' :: c :: h) = handedBatches (c :: h) ++ [c'.handed] := by
  simp [handedBatches, since_cons_of_not_mark HistoryReset hm]

theorem historyReset_startTurn (c : Config) (thread : AgentState) (request : ChatRequest) :
    HistoryReset c (startTurn thread request) :=
  .inl rfl

/-- One superstep and the action history: it is emptied, or it grows by the hashes
of the calls the superstep hands over. -/
theorem Transition.history {rt : Runtime} {c c' : Config} (h : Transition rt c c') :
    (HistoryReset c c' ∧ c'.state.actionHistory = [] ∧ c'.handed = []) ∨
      (¬ HistoryReset c c' ∧
        c'.state.actionHistory = c.state.actionHistory ++ c'.handed.map (ToolCall.hash rt)) := by
  have hno : ∀ {s s' : AgentState} {n n' : Node}, n' ≠ .supervisorRouter → n ≠ .planner →
      n ≠ .directExecutorInit → ¬ HistoryReset ⟨some n, s⟩ ⟨some n', s'⟩ := by
    rintro s s' n n' h₁ h₂ h₃ (h | ⟨h | h, _⟩)
    · exact h₁ (Option.some.inj h)
    · exact h₂ (Option.some.inj h)
    · exact h₃ (Option.some.inj h)
  cases h with
  | plan => exact .inl ⟨.inr ⟨.inl rfl, rfl⟩, rfl, rfl⟩
  | initDirect => exact .inl ⟨.inr ⟨.inr rfl, rfl⟩, rfl, rfl⟩
  | supervise =>
      refine .inr ⟨hno ?_ (by simp) (by simp), ?_⟩
      · split_ifs <;> simp
      · split_ifs <;> exact (List.append_nil _).symm
  | track s last hlast =>
      refine .inr ⟨hno (by simp) (by simp) (by simp), ?_⟩
      rw [Config.handed_tracked hlast]
      rfl
  | dispatch | conclude | callTools | extract | criticize | rework | exhaust | accept | dismiss
  | advance | finish =>
      exact .inr ⟨hno (by simp) (by simp) (by simp), (List.append_nil _).symm⟩
  | synthesize =>
      refine .inr ⟨?_, (List.append_nil _).symm⟩
      rintro (h | ⟨h | h, _⟩) <;> cases h

/-- The action history lists the hashes of the calls handed over since it was last
emptied. -/
theorem map_hash_handedSince {rt : Runtime} {c : Config} {h : List Config}
    (hh : ThreadHistory rt (c :: h)) :
    (handedSince (c :: h)).map (ToolCall.hash rt) = c.state.actionHistory := by
  refine hh.rec_head (P := fun c h =>
    (handedSince (c :: h)).map (ToolCall.hash rt) = c.state.actionHistory) ?_ ?_
  · rintro _ ⟨request, rfl⟩
    rfl
  · intro c c' h _ ih hR
    cases hR with
    | turn request =>
        rw [handedSince, handedBatches_of_reset (historyReset_startTurn _ _ _)]
        rfl
    | step hs =>
        rcases hs.transition.history with ⟨hm, hhist, hnone⟩ | ⟨hm, hhist⟩
        · rw [handedSince, handedBatches_of_reset hm, hhist, hnone]
          rfl
        · rw [handedSince, handedBatches_of_not_reset hm, List.flatten_append, List.map_append,
            ← handedSince, ih, hhist, List.flatten_singleton]

/-- What is about to be tracked passed the duplicate check. -/
theorem Transition.screened {rt : Runtime} {c c' : Config} (h : Transition rt c c')
    (ht : c'.next = some .actionTracker) :
    ∀ tc ∈ c'.lastCalls, tc.hash rt ∉ c'.state.actionHistory := by
  obtain ⟨next, s⟩ := c'
  obtain rfl : next = some .actionTracker := ht
  obtain ⟨l, s₀, content, calls, hd, rfl, rfl⟩ := h.of_actionTracker
  rw [Config.lastCalls_of_last? (s₀.last?_answered _)]
  exact hd.2.2.2

theorem screened_of_history {rt : Runtime} {c : Config} {h : List Config}
    (hh : ThreadHistory rt (c :: h)) (ht : c.next = some .actionTracker) :
    ∀ tc ∈ c.lastCalls, tc.hash rt ∉ c.state.actionHistory := by
  obtain ⟨c₀, h₀, rfl, _, hs⟩ := hh.exists_step (by simp [ht])
  exact hs.screened ht

/-- **Calls of different messages have different hashes.** -/
theorem handedBatches_pairwise {rt : Runtime} {h : List Config} (hh : ThreadHistory rt h) :
    (handedBatches h).Pairwise fun earlier later =>
      ∀ a ∈ earlier, ∀ b ∈ later, a.hash rt ≠ b.hash rt := by
  induction hh with
  | start hs => exact List.pairwise_singleton _ _
  | @next c c' h hh hR ih =>
      cases hR with
      | turn request =>
          rw [handedBatches_of_reset (historyReset_startTurn _ _ _)]
          exact List.pairwise_singleton _ _
      | step hs =>
          rcases hs.transition.history with ⟨hm, _, _⟩ | ⟨hm, _⟩
          · rw [handedBatches_of_reset hm]
            exact List.pairwise_singleton _ _
          · rw [handedBatches_of_not_reset hm]
            refine List.pairwise_append.2 ⟨ih, List.pairwise_singleton _ _, ?_⟩
            intro earlier he later hl a ha b hb heq
            rw [List.mem_singleton.1 hl] at hb
            -- `b` is handed over now, so it was looked up in the history `a` is in
            have ht : c'.next = some .tools := by
              by_contra hne
              rw [Config.handed, if_neg hne] at hb
              exact absurd hb List.not_mem_nil
            obtain ⟨htr, hcalls, _⟩ := hs.transition.into_tools ht
            refine screened_of_history hh htr b (hcalls ▸ hb) ?_
            rw [← map_hash_handedSince hh, ← heq]
            exact List.mem_map_of_mem (List.mem_flatten.2 ⟨earlier, he, ha⟩)

/-- The same tool with equal arguments. -/
def SameCall (a b : ToolCall) : Prop := a.name = b.name ∧ Json.same (.obj a.args) (.obj b.args)

instance (a b : ToolCall) : Decidable (SameCall a b) := by unfold SameCall; infer_instance

/-- The text a tool call is hashed as. -/
def ToolCall.text (rt : Runtime) (tc : ToolCall) : String := toolHashText rt tc.name tc.args

/-- **No call is handed over twice, apart from two blind spots.**  In every run of
a thread, since `action_history` was last emptied no two calls handed to the tools
node are the same, if and only if no single message carries the same call twice
and calls that are the same print as the same text. -/
theorem no_repeat_iff {rt : Runtime} {h : List Config} (hh : ThreadHistory rt h) :
    (handedSince h).Pairwise (fun a b => ¬ SameCall a b) ↔
      (∀ batch ∈ handedBatches h, batch.Pairwise fun a b => ¬ SameCall a b) ∧
        (handedSince h).Pairwise fun a b => SameCall a b → a.text rt = b.text rt := by
  constructor
  · intro hnot
    refine ⟨(List.pairwise_flatten.1 hnot).1, hnot.imp ?_⟩
    intro a b hab hsame
    exact absurd hsame hab
  · rintro ⟨hinner, htext⟩
    refine List.pairwise_flatten.2 ⟨hinner, ?_⟩
    have hcross := (List.pairwise_flatten.1 htext).2
    refine (hcross.and (handedBatches_pairwise hh)).imp ?_
    rintro earlier later ⟨hsame, hhash⟩ a ha b hb hab
    refine hhash a ha b hb ?_
    show rt.md5Hexdigest (a.text rt) = rt.md5Hexdigest (b.text rt)
    rw [hsame a ha b hb hab]

/-- Different searches in one message are handed over once each. -/
theorem no_repeat_searches :
    (handedSince (oneMessageRun (searches 3))).Pairwise fun a b => ¬ SameCall a b :=
  (no_repeat_iff (threadHistory_replayTurn _ _ _)).2 (by decide)

/-- **Two equal calls of one message both run**: the history they are looked up in
is the one before the message. -/
theorem repeated_in_one_message :
    ¬ ∀ rt h, Function.Injective rt.md5Hexdigest → ThreadHistory rt h →
      (handedSince h).Pairwise fun a b => ¬ SameCall a b := by
  intro hall
  have hno := hall .plain (oneMessageRun [⟨"search_web", [("query", .str "news")], "1"⟩,
    ⟨"search_web", [("query", .str "news")], "2"⟩]) Function.injective_id
    (threadHistory_replayTurn _ _ _)
  exact absurd hno (by decide)

end Graph
end CognitiveEngine
