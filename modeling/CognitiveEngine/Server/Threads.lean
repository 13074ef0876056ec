/-
# Conversations and their threads

The conversation of a request is its `user_id` and `session_id`; its thread in the
Redis checkpointer is found under `f"{user_id}_{session_id}"`, the expression both
chat endpoints and the worker build.  The checkpointer is a map from these thread
ids to checkpoints.

A checkpoint carries, beside the state, what only the statements about it need:
which conversation's request put each message on the channel, by message id, and
whose turns have run on the thread.  No operation reads either.
-/

import CognitiveEngine.Graph.Workflow
import CognitiveEngine.Machine.JoinedKey

namespace CognitiveEngine
namespace Server

open CognitiveEngine.Graph Machine

/-- The two chat endpoints. -/
inductive Endpoint where
  /-- `AgentServiceServicer.StreamChat`. -/
  | streamChat
  /-- `chat_stream_endpoint`. -/
  | chatStream
  deriving DecidableEq

/-- The user and the session a request or a queue message names. -/
structure Conversation where
  userId : String
  sessionId : String
  deriving DecidableEq

/-- The conversation of a chat request. -/
def conversationOf (request : ChatRequest) : Conversation := ⟨request.userId, request.sessionId⟩

/-- `request.user_id.startswith("anon_")`. -/
def isAnonymous (userId : String) : Bool := "anon_".toList.isPrefixOf userId.toList

/-! ### Thread ids -/

/-- `f"{user_id}_{session_id}"`. -/
def Conversation.threadId (p : Conversation) : String := p.userId ++ "_" ++ p.sessionId

/-- Two conversations cross: the user id of one goes on with an underscore where
that of the other ends, and the rest opens the other's session id. -/
def Conversation.Crosses (p q : Conversation) : Prop :=
  ∃ x, (p.userId = q.userId ++ "_" ++ x ∧ q.sessionId = x ++ "_" ++ p.sessionId) ∨
    (q.userId = p.userId ++ "_" ++ x ∧ p.sessionId = x ++ "_" ++ q.sessionId)

/-- **When two different conversations share a thread.** -/
theorem crosses_iff {p q : Conversation} : p.Crosses q ↔ p ≠ q ∧ p.threadId = q.threadId := by
  have hcross : p.Crosses q ↔
      TextOverhangs "_" p.userId p.sessionId q.userId q.sessionId ∨
        TextOverhangs "_" q.userId q.sessionId p.userId p.sessionId := exists_or
  have hsep : "_".toList = ['_'] := rfl
  rw [hcross, Conversation.threadId, Conversation.threadId, text_joined_eq_iff hsep]
  constructor
  · intro h
    refine ⟨?_, .inr h⟩
    rintro rfl
    exact h.elim (fun h => h.ne hsep rfl) fun h => h.ne hsep rfl
  · rintro ⟨hne, ⟨hu, hs⟩ | h⟩
    · refine absurd ?_ hne
      obtain ⟨u, s⟩ := p
      obtain ⟨v, t⟩ := q
      exact congrArg₂ Conversation.mk hu hs
    · exact h

/-! ### Checkpoints -/

/-- What the checkpointer has for a thread. -/
structure Checkpoint where
  state : AgentState
  /-- Whose request put the message of an id on the channel. -/
  author : ℕ → Option Conversation
  /-- Whose turns have run on the thread. -/
  hosts : List Conversation

/-- The checkpoint of a thread no request has run on. -/
def Checkpoint.empty : Checkpoint := ⟨.empty, fun _ => none, []⟩

/-- The messages of a checkpoint, each with the conversation it was written for. -/
def Checkpoint.authored (c : Checkpoint) : List (Message × Option Conversation) :=
  c.state.messages.entries.map fun e => (e.message, c.author e.id)

/-- The authors of a thread a turn of `p` runs on: the ids still to be given out
will be given to messages of this turn. -/
def Checkpoint.authorIn (c : Checkpoint) (p : Conversation) (id : ℕ) : Option Conversation :=
  if id < c.state.messages.nextId then c.author id else some p

/-- The checkpoint of a thread on which a turn of `p` has come to the state `s`. -/
def Checkpoint.advance (c : Checkpoint) (p : Conversation) (s : AgentState) : Checkpoint :=
  ⟨s, c.authorIn p, p :: c.hosts⟩

/-- The checkpointer, a map from thread ids. -/
abbrev Checkpointer : Type := String → Checkpoint

/-- The checkpointer nothing has been written to. -/
def Checkpointer.empty : Checkpointer := fun _ => .empty

theorem mem_authored {c : Checkpoint} {a : Message × Option Conversation} :
    a ∈ c.authored ↔ ∃ e ∈ c.state.messages.entries, (e.message, c.author e.id) = a :=
  List.mem_map

end Server
end CognitiveEngine
