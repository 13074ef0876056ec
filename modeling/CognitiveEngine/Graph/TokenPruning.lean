/-
# Pruning by the token limit

`prune_messages_by_token_limit` scans a request from its end and keeps messages
while the tokens so far stay within the limit.  It keeps the longest suffix that
does (`pruneMessagesByTokenLimit_longest`): the order stays, and nothing is kept
twice.

The executors hand it the system prompt followed by the whole message channel, so
the system prompt is what it drops first.  `wellFormedCut_iff` says that the
request survives exactly when nothing has to go.
-/

import CognitiveEngine.Graph.ToolMessages
import CognitiveEngine.Machine.Budget

namespace CognitiveEngine
namespace Graph

open Machine

/-- `len(encoding.encode(msg.content))`. -/
def tokensOf (rt : Runtime) (modelName : String) (m : Message) : ℕ :=
  rt.tokenCount modelName m.content

/-- **The loop keeps what the rest of the limit affords**, in front of what it has
kept so far. -/
theorem pruneLoop_eq (count : String → ℕ) (maxTokens : ℕ) (ms : List Message) {total : ℕ}
    (ht : total ≤ maxTokens) (keep : List Message) :
    pruneLoop count maxTokens ms total keep =
      (affordable (fun m => count m.content) (maxTokens - total) ms).reverse ++ keep := by
  induction ms generalizing total keep with
  | nil => rfl
  | cons m rest ih =>
      unfold pruneLoop affordable
      by_cases h : total + count m.content > maxTokens
      · rw [if_pos h, if_neg (by omega)]
        rfl
      · have hrest : maxTokens - (total + count m.content) = maxTokens - total - count m.content := by
          omega
        rw [if_neg h, if_pos (by omega), ih (by omega), hrest, List.reverse_cons,
          List.append_assoc, List.singleton_append]

theorem pruneMessagesByTokenLimit_eq (rt : Runtime) (messages : List Message) (maxTokens : ℕ)
    (modelName : String) :
    pruneMessagesByTokenLimit rt messages maxTokens modelName =
      affordableEnd (tokensOf rt modelName) maxTokens messages := by
  rw [pruneMessagesByTokenLimit, pruneLoop_eq _ _ _ (Nat.zero_le _), List.append_nil, Nat.sub_zero]
  rfl

theorem isLongestSuffix_pruned (rt : Runtime) (messages : List Message) (maxTokens : ℕ)
    (modelName : String) :
    IsLongestSuffix (tokensOf rt modelName) maxTokens messages
      (pruneMessagesByTokenLimit rt messages maxTokens modelName) := by
  rw [pruneMessagesByTokenLimit_eq]
  exact isLongestSuffix_affordableEnd _ maxTokens messages

/-- **Pruning keeps the longest suffix within the limit.** -/
theorem pruneMessagesByTokenLimit_longest (rt : Runtime) (messages : List Message)
    (maxTokens : ℕ) (modelName : String) :
    pruneMessagesByTokenLimit rt messages maxTokens modelName <:+ messages ∧
      cost (tokensOf rt modelName)
        (pruneMessagesByTokenLimit rt messages maxTokens modelName) ≤ maxTokens ∧
      ∀ suffix, suffix <:+ messages → cost (tokensOf rt modelName) suffix ≤ maxTokens →
        suffix <:+ pruneMessagesByTokenLimit rt messages maxTokens modelName :=
  have h := isLongestSuffix_pruned rt messages maxTokens modelName
  ⟨h.suffix, h.within, h.longest⟩

/-- A message with no tokens is kept whenever the scan gets to it. -/
example : (pruneMessagesByTokenLimit .plain
    [.system "Be kind.", .human "Hi.", .tool "" "c1", .ai "Hello." []] 6 "gpt-4o").length = 2 := by
  decide

/-! ### The requests of the executors -/

namespace Message

/-- A `SystemMessage`. -/
def isSystem : Message → Bool
  | .system _ => true
  | _ => false

/-- A `ToolMessage`. -/
def isTool : Message → Bool
  | .tool _ _ => true
  | _ => false

end Message

/-- Every AI message with tool calls is directly followed by its tool messages. -/
def Answered (history : List Message) : Prop :=
  ∀ before content calls after, history = before ++ .ai content calls :: after →
    ∃ results, results <+: after ∧
      (results.map Message.toolCallId?).Perm (calls.map fun tc => some tc.id)

/-- What an executor hands to the pruning: its system prompt and a history. -/
def ExecutorRequest (request : List Message) : Prop :=
  ∃ prompt history, request = .system prompt :: history ∧
    (∀ m ∈ history, m.isSystem = false) ∧ Answered history

/-- The calls of the message a tool message after these messages answers: the last
one that is not itself a tool message. -/
def callsBefore (ms : List Message) : List ToolCall :=
  match (ms.filter fun m => !m.isTool).getLast? with
  | some m => m.toolCalls
  | none => []

/-- A tool message of `kept` answers an AI message of `removed`. -/
def Orphans (removed kept : List Message) : Prop :=
  ∃ results content id rest, kept = results ++ .tool content id :: rest ∧
    (∀ m ∈ results, m.isTool) ∧ id ∈ (callsBefore removed).map ToolCall.id

/-- The request after pruning still begins with its system prompt and ends with its
latest message, and no tool message of it has lost its AI message. -/
structure WellFormedCut (request kept : List Message) : Prop where
  prompt : kept.head? = request.head?
  latest : kept.getLast? = request.getLast?
  noOrphans : ∃ removed, request = removed ++ kept ∧ ¬ Orphans removed kept

/-- Nothing has been removed, so nothing has lost its AI message. -/
theorem not_orphans_nil (kept : List Message) : ¬ Orphans [] kept := by
  rintro ⟨_, _, id, _, _, _, hid⟩
  exact absurd hid List.not_mem_nil

theorem wellFormedCut_self (request : List Message) : WellFormedCut request request :=
  ⟨rfl, rfl, [], rfl, not_orphans_nil request⟩

/-- A suffix with the system prompt in front is the whole request. -/
theorem ExecutorRequest.eq_of_head? {request kept : List Message} (hr : ExecutorRequest request)
    (hs : kept <:+ request) (hhead : kept.head? = request.head?) : kept = request := by
  obtain ⟨prompt, history, rfl, hsystem, -⟩ := hr
  rcases List.suffix_cons_iff.1 hs with heq | hs
  · exact heq
  · have hmem : Message.system prompt ∈ kept := List.mem_of_mem_head? hhead
    exact absurd (hsystem _ (hs.mem hmem)) (by simp [Message.isSystem])

/-- **A pruned request is well formed exactly when nothing is pruned.**  The system
prompt comes first and goes first, so it is still there exactly when the whole
request is within the token limit. -/
theorem wellFormedCut_iff {rt : Runtime} {request : List Message} (hr : ExecutorRequest request)
    (maxTokens : ℕ) (modelName : String) :
    WellFormedCut request (pruneMessagesByTokenLimit rt request maxTokens modelName) ↔
      cost (tokensOf rt modelName) request ≤ maxTokens := by
  have hlong := isLongestSuffix_pruned rt request maxTokens modelName
  rw [← hlong.eq_iff]
  constructor
  · intro hcut
    exact hr.eq_of_head? hlong.suffix hcut.prompt
  · intro heq
    rw [heq]
    exact wellFormedCut_self request

/-- A question, a search and what it found, under a system prompt. -/
def searchRequest : List Message :=
  [.system "Be kind.", .human "What is new?", .ai "I look it up." [⟨"search_web", [], "c1"⟩],
    .tool "Nothing." "c1"]

theorem executorRequest_search : ExecutorRequest searchRequest := by
  refine ⟨_, _, rfl, by decide, ?_⟩
  rintro (_ | ⟨_, _ | ⟨_, _ | ⟨_, before⟩⟩⟩) content calls after h
  · simp at h
  · simp only [List.cons_append, List.nil_append, List.cons.injEq, Message.ai.injEq] at h
    obtain ⟨-, ⟨-, rfl⟩, rfl⟩ := h
    exact ⟨_, List.prefix_rfl, List.Perm.refl _⟩
  · simp at h
  · simp at h

/-- With room for all of it the request is well formed. -/
theorem wellFormedCut_search :
    WellFormedCut searchRequest (pruneMessagesByTokenLimit .plain searchRequest 100 "gpt-4o") :=
  (wellFormedCut_iff executorRequest_search 100 "gpt-4o").2 (by decide)

/-- **With room for the last message alone** the system prompt is gone, and the tool
message answers nothing that is left. -/
theorem not_wellFormedCut_search :
    ¬ ∀ (rt : Runtime) (request : List Message) (maxTokens : ℕ) (modelName : String),
      ExecutorRequest request →
        WellFormedCut request (pruneMessagesByTokenLimit rt request maxTokens modelName) := by
  intro hall
  have hcut := hall .plain searchRequest 10 "gpt-4o" executorRequest_search
  have hkept : pruneMessagesByTokenLimit .plain searchRequest 10 "gpt-4o" =
      [.tool "Nothing." "c1"] := by
    rfl
  rw [hkept] at hcut
  exact absurd hcut.prompt (by simp [searchRequest])

/-! ### The history of a thread -/

/-- **No system message ever gets on the channel**, so what an executor compiles has
its own system prompt alone. -/
theorem isSystem_messages {rt : Runtime} {h : List Config} (hh : ThreadHistory rt h) :
    ∀ c ∈ h, ∀ m ∈ c.state.messages.messages, m.isSystem = false := by
  have happend : ∀ {ms new : List Message}, (∀ m ∈ ms, m.isSystem = false) →
      (∀ m ∈ new, m.isSystem = false) → ∀ m ∈ ms ++ new, m.isSystem = false := by
    intro ms new hms hnew m hm
    rcases List.mem_append.1 hm with hm | hm
    · exact hms m hm
    · exact hnew m hm
  refine hh.forall_mem ?_ ?_
  · rintro _ ⟨request, rfl⟩ m hm
    obtain rfl := List.mem_singleton.1 hm
    rfl
  · intro c c' hc hR
    cases hR with
    | turn request =>
        rw [startTurn, AgentState.merge]
        have hm := c.state.messages.messages_append (.human request.prompt)
        exact hm ▸ happend hc (by simp [Message.isSystem])
    | step hs =>
        cases hs.transition with
        | supervise | plan | initDirect | track | extract | criticize | rework | exhaust | accept
        | dismiss | finish => exact hc
        | dispatch l s content calls | conclude l s content calls =>
            rw [s.messages_answered]
            exact happend hc (by simp [Message.isSystem])
        | callTools s content calls hlast result =>
            rw [s.messages_toolsAnswered]
            exact happend hc (by simp [Message.isSystem])
        | advance s ht result hr next hn =>
            rw [s.messages_advanced]
            exact fun m hm => hc m (List.mem_of_mem_take hm)
        | synthesize s content calls =>
            have hm := s.messages.messages_append (.ai content calls)
            exact hm ▸ happend hc (by simp [Message.isSystem])

/-- What an executor compiles is such a request, while the calls on the channel are
answered. -/
theorem executorRequest_compiledMessages {rt : Runtime} {h : List Config}
    (hh : ThreadHistory rt h) {c : Config} (hc : c ∈ h) (ha : Answered c.messages)
    (p : ExecutorProfile) (env : Env) : ExecutorRequest (p.compiledMessages rt env c.state) :=
  ⟨_, c.messages, rfl, isSystem_messages hh c hc, ha⟩

end Graph
end CognitiveEngine
