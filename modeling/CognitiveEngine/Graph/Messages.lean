/-
# Messages, tool calls and the message channel

The chat messages the nodes of `app/graph` exchange, and the `messages` channel
of `AgentState`, whose reducer is `add_messages`.

A message is a system, human, AI or tool message with a text; only an AI message
has tool calls, so `hasattr(m, "tool_calls")` and a non-empty `m.tool_calls` are
together `m.toolCalls ≠ []`.  The arguments of a tool call are a JSON object,
kept in the order in which the model listed its members (a Python `dict`).

`add_messages` gives every message it appends a fresh id (a `uuid4`), and takes a
message out when it is handed a `RemoveMessage` with its id.  A fresh `uuid4`
never repeats, which `MessageLog` states as two fields: ids grow along the log,
and the next id to be given out is above all of them.
-/

import Mathlib.Data.List.Sort
import Mathlib.Data.Rat.Defs

namespace CognitiveEngine
namespace Graph

/-- A JSON value; the members of an object are in insertion order. -/
inductive Json where
  | null
  | bool (b : Bool)
  | int (n : ℤ)
  | float (x : ℚ)
  | str (s : String)
  | arr (items : List Json)
  | obj (members : List (String × Json))

/-- The number a value is compared as: `True == 1 == 1.0`. -/
def Json.num? : Json → Option ℚ
  | .bool b => some (if b then 1 else 0)
  | .int n => some n
  | .float x => some x
  | _ => none

mutual

/-- `==` of two values: the order of the members of an object, at any depth, does
not matter, and numbers compare by value. -/
def Json.same : Json → Json → Bool
  | .null, .null => true
  | .str a, .str b => a == b
  | .arr a, .arr b => Json.sameItems a b
  | .obj a, .obj b => a.length == b.length && Json.sameMembers a b
  | a, b =>
      match a.num?, b.num? with
      | some x, some y => x == y
      | _, _ => false

/-- Equality of the items of two arrays, position by position. -/
def Json.sameItems : List Json → List Json → Bool
  | [], [] => true
  | a :: as, b :: bs => Json.same a b && Json.sameItems as bs
  | _, _ => false

/-- Every member of the first object is a member of the second. -/
def Json.sameMembers : List (String × Json) → List (String × Json) → Bool
  | [], _ => true
  | (k, v) :: as, bs =>
      (match bs.lookup k with
        | some w => Json.same v w
        | none => false) && Json.sameMembers as bs

end

/-- One entry of `AIMessage.tool_calls`. -/
structure ToolCall where
  name : String
  args : List (String × Json)
  id : String

/-- A chat message without its id. -/
inductive Message where
  | system (content : String)
  | human (content : String)
  | ai (content : String) (calls : List ToolCall)
  | tool (content : String) (toolCallId : String)

namespace Message

/-- `m.content`. -/
def content : Message → String
  | .system c | .human c | .ai c _ | .tool c _ => c

/-- `m.tool_calls`, and no calls for a message without the attribute. -/
def toolCalls : Message → List ToolCall
  | .ai _ calls => calls
  | _ => []

/-- An AI message or a human message: what ends the answers to a tool call. -/
def speaks : Message → Bool
  | .ai _ _ | .human _ => true
  | _ => false

end Message

/-- A message on the channel, with the id `add_messages` gave it. -/
structure LogEntry where
  id : ℕ
  message : Message

/-- The value of the `messages` channel.  `nextId` is the id the next appended
message gets, so that no id is ever given out twice. -/
structure MessageLog where
  nextId : ℕ
  entries : List LogEntry
  id_lt : ∀ e ∈ entries, e.id < nextId
  ids_increase : entries.Pairwise fun a b => a.id < b.id

/-- What a node may write to the `messages` channel: a message to append, or a
`RemoveMessage`. -/
inductive MessageUpdate where
  | append (m : Message)
  | remove (id : ℕ)

namespace MessageLog

/-- The channel before anything has been written to it. -/
def empty : MessageLog where
  nextId := 1
  entries := []
  id_lt := by simp
  ids_increase := List.Pairwise.nil

/-- The messages on the channel, oldest first. -/
def messages (log : MessageLog) : List Message := log.entries.map LogEntry.message

/-- `state["messages"][0]`, if there is one. -/
def head? (log : MessageLog) : Option Message := log.messages.head?

/-- `state["messages"][-1]`, if there is one. -/
def last? (log : MessageLog) : Option Message := log.messages.getLast?

/-- One message appended under a fresh id. -/
def append (log : MessageLog) (m : Message) : MessageLog where
  nextId := log.nextId + 1
  entries := log.entries ++ [⟨log.nextId, m⟩]
  id_lt := by
    intro e he
    rcases List.mem_append.1 he with he | he
    · exact (log.id_lt e he).trans (Nat.lt_succ_self _)
    · rw [List.mem_singleton.1 he]
      exact Nat.lt_succ_self _
  ids_increase := by
    refine List.pairwise_append.2 ⟨log.ids_increase, List.pairwise_singleton _ _, ?_⟩
    intro a ha b hb
    rw [List.mem_singleton.1 hb]
    exact log.id_lt a ha

/-- The message with the given id taken out. -/
def remove (log : MessageLog) (id : ℕ) : MessageLog where
  nextId := log.nextId
  entries := log.entries.filter fun e => e.id != id
  id_lt := fun e he => log.id_lt e (List.mem_of_mem_filter he)
  ids_increase := log.ids_increase.filter _

/-- `add_messages`, one update after the other. -/
def addMessages (log : MessageLog) : List MessageUpdate → MessageLog
  | [] => log
  | .append m :: rest => (log.append m).addMessages rest
  | .remove id :: rest => (log.remove id).addMessages rest

@[simp] theorem addMessages_nil (log : MessageLog) : log.addMessages [] = log := rfl

@[simp] theorem messages_append (log : MessageLog) (m : Message) :
    (log.append m).messages = log.messages ++ [m] := by
  simp [messages, append]

@[simp] theorem last?_append (log : MessageLog) (m : Message) :
    (log.append m).last? = some m := by
  simp [last?]

/-- Appending messages appends them in order. -/
theorem messages_addMessages_append (log : MessageLog) (ms : List Message) :
    (log.addMessages (ms.map .append)).messages = log.messages ++ ms := by
  induction ms generalizing log with
  | nil => simp
  | cons m ms ih =>
      rw [List.map_cons, addMessages, ih, messages_append, List.append_assoc,
        List.singleton_append]

/-- `log'` is what a later write has made of `log`: no id is given out again, so
what is on it was there before or has an id that was still to be given out. -/
structure Extends (log log' : MessageLog) : Prop where
  nextId_le : log.nextId ≤ log'.nextId
  old_or_new : ∀ e ∈ log'.entries, e ∈ log.entries ∨ log.nextId ≤ e.id

theorem Extends.refl (log : MessageLog) : log.Extends log := ⟨le_rfl, fun _ he => .inl he⟩

theorem Extends.trans {log log₁ log₂ : MessageLog} (h₁ : log.Extends log₁)
    (h₂ : log₁.Extends log₂) : log.Extends log₂ := by
  refine ⟨h₁.nextId_le.trans h₂.nextId_le, fun e he => ?_⟩
  rcases h₂.old_or_new e he with h | h
  · exact h₁.old_or_new e h
  · exact .inr (h₁.nextId_le.trans h)

theorem extends_append (log : MessageLog) (m : Message) : log.Extends (log.append m) := by
  refine ⟨Nat.le_succ _, fun e he => ?_⟩
  rcases List.mem_append.1 he with h | h
  · exact .inl h
  · rw [List.mem_singleton.1 h]
    exact .inr le_rfl

theorem extends_remove (log : MessageLog) (id : ℕ) : log.Extends (log.remove id) :=
  ⟨le_rfl, fun _ he => .inl (List.mem_of_mem_filter he)⟩

theorem extends_addMessages (log : MessageLog) (us : List MessageUpdate) :
    log.Extends (log.addMessages us) := by
  induction us generalizing log with
  | nil => exact .refl log
  | cons u us ih =>
      cases u with
      | append m => exact (log.extends_append m).trans (ih (log.append m))
      | remove id => exact (log.extends_remove id).trans (ih (log.remove id))

/-- Removing messages keeps the entries whose id is not among theirs. -/
theorem entries_addMessages_remove (log : MessageLog) (ids : List ℕ) :
    (log.addMessages (ids.map .remove)).entries = log.entries.filter fun e => e.id ∉ ids := by
  induction ids generalizing log with
  | nil => simp
  | cons id ids ih =>
      rw [List.map_cons, addMessages, ih]
      simp only [remove, List.filter_filter]
      refine List.filter_congr fun e _ => ?_
      by_cases h : e.id = id <;> simp [h]

/-- **Removing every message but the first leaves the first.**  Ids do not
repeat along the log, so no `RemoveMessage` of a later one hits it. -/
theorem entries_addMessages_remove_tail (log : MessageLog) :
    (log.addMessages (log.entries.tail.map fun e => .remove e.id)).entries
      = log.entries.take 1 := by
  have hmap : (log.entries.tail.map fun e => MessageUpdate.remove e.id)
      = (log.entries.tail.map LogEntry.id).map .remove := by
    rw [List.map_map]; rfl
  rw [hmap, entries_addMessages_remove]
  have hinc := log.ids_increase
  cases hlog : log.entries with
  | nil => rfl
  | cons e rest =>
      rw [hlog, List.pairwise_cons] at hinc
      have he : e.id ∉ rest.map LogEntry.id := by
        intro hmem
        obtain ⟨e', he', hid⟩ := List.mem_map.1 hmem
        exact absurd hid (hinc.1 e' he').ne'
      have hrest : rest.filter (fun e' => decide (e'.id ∉ rest.map LogEntry.id)) = [] := by
        refine List.filter_eq_nil_iff.2 fun e' he' => ?_
        simpa using ⟨e', he', rfl⟩
      rw [List.tail_cons, List.filter_cons_of_pos (by simpa using he), hrest]
      rfl

theorem messages_addMessages_remove_tail (log : MessageLog) :
    (log.addMessages (log.entries.tail.map fun e => .remove e.id)).messages
      = log.messages.take 1 := by
  rw [messages, entries_addMessages_remove_tail, messages, List.map_take]

/-- Messages that are appended come after the entries there are. -/
theorem entries_addMessages_append (log : MessageLog) (ms : List Message) :
    ∃ es : List LogEntry, (log.addMessages (ms.map .append)).entries = log.entries ++ es ∧
      es.map LogEntry.message = ms := by
  induction ms generalizing log with
  | nil => exact ⟨[], (List.append_nil _).symm, rfl⟩
  | cons m ms ih =>
      obtain ⟨es, hentries, hes⟩ := ih (log.append m)
      refine ⟨⟨log.nextId, m⟩ :: es, ?_, congrArg (m :: ·) hes⟩
      rw [List.map_cons, addMessages, hentries, append, List.append_assoc]
      rfl

end MessageLog

end Graph
end CognitiveEngine
