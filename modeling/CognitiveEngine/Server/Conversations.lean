/-
# Who wrote what a request reads

The checkpointer under any interleaving of chat requests, of the turns they have
in flight and of the deliveries the worker gets.  A request that is not answered
from the cache reads the checkpoint of its thread and writes the request into it;
after every superstep the turn writes the state it has come to, also while other
turns run on the same thread; the worker reads the checkpoint of the conversation
a queue message names and hands the messages to the fact extractor.

`reads_own_iff` is the exact condition on a sequence of requests and deliveries
under which everything read by any of them was written for its own conversation:
no request is preceded by one whose conversation crosses its own.  Thread ids are
joined with `_`, which user ids and session ids may contain, so two different
conversations can share a thread: `foreign_thread_read`.
-/

import CognitiveEngine.Graph.Runs
import CognitiveEngine.Server.Threads
import CognitiveEngine.Machine.Slots
import CognitiveEngine.Machine.Trace
import Mathlib.Logic.Relation

namespace CognitiveEngine
namespace Server

open CognitiveEngine.Graph Machine

/-! ### The worker -/

/-- The payload of a queue message. -/
structure QueueMessage where
  userId : String
  sessionId : String
  targetRagDomain : Option String

/-- The conversation a queue message names. -/
def QueueMessage.conversation (m : QueueMessage) : Conversation := ⟨m.userId, m.sessionId⟩

/-- The arguments of `process_extraction_task`. -/
structure ExtractionTask where
  userId : String
  targetCollectionName : String
  chatHistoryMessages : List Message

/-- `process_message`: the task it hands to the memory worker, none for a thread
without messages. -/
def processMessage (store : Checkpointer) (m : QueueMessage) : Option ExtractionTask :=
  let messages := (store m.conversation.threadId).state.messages.messages
  if messages.isEmpty then none
  else some ⟨m.userId, m.targetRagDomain.getD "general_memory", messages⟩

/-- The messages of a task are those of the checkpoint read. -/
theorem messages_of_processMessage {store : Checkpointer} {m : QueueMessage} {task : ExtractionTask}
    (h : processMessage store m = some task) :
    task.userId = m.userId ∧
      task.chatHistoryMessages = (store m.conversation.threadId).authored.map Prod.fst := by
  simp only [processMessage, Option.ite_none_left_eq_some] at h
  obtain ⟨-, heq⟩ := h
  obtain rfl := Option.some.inj heq
  refine ⟨rfl, ?_⟩
  simp [Checkpoint.authored, MessageLog.messages]

/-! ### The service -/

/-- A turn a process has in flight: its conversation, the configuration it has come
to and the authors of the thread it was started on. -/
structure LiveTurn where
  conversation : Conversation
  config : Config
  thread : Checkpoint

/-- The checkpoint the turn writes. -/
def LiveTurn.checkpoint (t : LiveTurn) : Checkpoint :=
  t.thread.advance t.conversation t.config.state

/-- The checkpointer and the turns in flight, each in a slot of its own. -/
structure Service where
  store : Checkpointer
  live : ℕ → Option LiveTurn

/-- The service before the first request. -/
def Service.fresh : Service := ⟨.empty, fun _ => none⟩

/-- The checkpoint of a turn written under its thread id. -/
def Checkpointer.save (store : Checkpointer) (t : LiveTurn) : Checkpointer :=
  Function.update store t.conversation.threadId t.checkpoint

/-- The turn of a request on the thread the checkpointer has for it. -/
def Checkpointer.openTurn (store : Checkpointer) (request : ChatRequest) : LiveTurn :=
  let thread := store (conversationOf request).threadId
  ⟨conversationOf request, startTurn thread.state request, thread⟩

/-- What a turn in flight does by itself: a superstep, after which it writes its
checkpoint, or its end, by whatever cause. -/
inductive Service.Runs (rt : Runtime) (s : Service) : Service → Prop
  | superstep (n : ℕ) (t : LiveTurn) (c' : Config) (hn : s.live n = some t)
      (h : Step rt t.config c') :
      Service.Runs rt s ⟨s.store.save { t with config := c' },
        Function.update s.live n (some { t with config := c' })⟩
  | ends (n : ℕ) : Service.Runs rt s ⟨s.store, Function.update s.live n none⟩

/-- A chat request at one of the endpoints, or a delivery to the worker. -/
inductive Incoming where
  | chat (endpoint : Endpoint) (request : ChatRequest)
  | delivery (m : QueueMessage)

namespace Incoming

/-- The conversation it names. -/
def conversation : Incoming → Conversation
  | .chat _ request => conversationOf request
  | .delivery m => m.conversation

/-- It can read the checkpointer: an anonymous chat request is run without one. -/
def usesThread : Incoming → Bool
  | .chat _ request => !isAnonymous request.userId
  | .delivery _ => true

/-- It can write to the checkpointer. -/
def writesThread : Incoming → Bool
  | .chat _ request => !isAnonymous request.userId
  | .delivery _ => false

/-- A later request or delivery would read what this one writes, for another
conversation. -/
def Exposes (a b : Incoming) : Prop :=
  a.writesThread ∧ b.usesThread ∧ a.conversation.Crosses b.conversation

end Incoming

/-- What a request or a delivery makes the service do, and the messages it reads. -/
inductive Service.Receives : Service → Incoming → List (Message × Option Conversation) →
    Service → Prop
  /-- A request that enters the graph with the checkpointer. -/
  | turn (s : Service) (n : ℕ) (endpoint : Endpoint) (request : ChatRequest)
      (h : isAnonymous request.userId = false) :
      Service.Receives s (.chat endpoint request)
        (s.store (conversationOf request).threadId).authored
        ⟨s.store.save (s.store.openTurn request),
          Function.update s.live n (some (s.store.openTurn request))⟩
  /-- A request that does not touch the checkpointer: it is anonymous, it is answered
  from the cache, or it fails before the graph is entered. -/
  | aside (s : Service) (endpoint : Endpoint) (request : ChatRequest) :
      Service.Receives s (.chat endpoint request) [] s
  | delivery (s : Service) (m : QueueMessage) :
      Service.Receives s (.delivery m) (s.store m.conversation.threadId).authored s

/-- The turns in flight go on for a while, then something comes in. -/
def Service.Serves (rt : Runtime) (s : Service) (i : Incoming)
    (reads : List (Message × Option Conversation)) (s' : Service) : Prop :=
  ∃ s₁, Relation.ReflTransGen (Service.Runs rt) s s₁ ∧ s₁.Receives i reads s'

/-- A run of the service over requests and deliveries. -/
abbrev ServiceEvent : Type := Event Service Incoming (List (Message × Option Conversation))

/-- Everything read was written for the conversation that reads it. -/
def ReadsOwn (e : ServiceEvent) : Prop := ∀ a ∈ e.output, a.2 = some e.input.conversation

/-! ### What is on a thread -/

/-- A superstep writes to the channel. -/
theorem extends_of_step {rt : Runtime} {c c' : Config} (h : Step rt c c') :
    c.state.messages.Extends c'.state.messages := by
  obtain ⟨hne, env, hok⟩ := h
  obtain ⟨_ | n, s⟩ := c
  · exact absurd rfl hne
  · obtain ⟨u, -, next, -, rfl⟩ := step_eq_ok_iff.1 hok
    exact s.messages.extends_addMessages u.messages

/-- Every message of the checkpoint was written for a conversation of `P` whose
thread id is `key`. -/
def Checkpoint.Within (P : Conversation → Prop) (key : String) (c : Checkpoint) : Prop :=
  ∀ e ∈ c.state.messages.entries, ∃ q, c.author e.id = some q ∧ P q ∧ q.threadId = key

theorem Checkpoint.Within.authored {P : Conversation → Prop} {key : String} {c : Checkpoint}
    (hc : c.Within P key) {a : Message × Option Conversation} (ha : a ∈ c.authored) :
    ∃ q, a.2 = some q ∧ P q ∧ q.threadId = key := by
  obtain ⟨e, he, rfl⟩ := mem_authored.1 ha
  exact hc e he

theorem Checkpoint.Within.advance {P : Conversation → Prop} {key : String} {c : Checkpoint}
    (hc : c.Within P key) {p : Conversation} (hp : P p) (hkey : p.threadId = key)
    {s : AgentState} (hs : c.state.messages.Extends s.messages) :
    (c.advance p s).Within P key := by
  intro e he
  rcases hs.old_or_new e he with hold | hnew
  · have hlt := c.state.messages.id_lt e hold
    simpa [Checkpoint.advance, Checkpoint.authorIn, hlt] using hc e hold
  · exact ⟨p, by simp [Checkpoint.advance, Checkpoint.authorIn, Nat.not_lt.2 hnew], hp, hkey⟩

/-- The turn is one of `P`, and so is everything on the thread it was started on. -/
structure LiveTurn.Confined (P : Conversation → Prop) (t : LiveTurn) : Prop where
  host : P t.conversation
  thread : t.thread.Within P t.conversation.threadId
  grown : t.thread.state.messages.Extends t.config.state.messages

theorem LiveTurn.Confined.checkpoint {P : Conversation → Prop} {t : LiveTurn}
    (ht : t.Confined P) : t.checkpoint.Within P t.conversation.threadId :=
  ht.thread.advance ht.host rfl ht.grown

/-- The invariant of the service: what the threads hold was written for
conversations of `P`, each on its own thread id. -/
structure Service.Confined (P : Conversation → Prop) (s : Service) : Prop where
  stored : ∀ key, (s.store key).Within P key
  live : ∀ n t, s.live n = some t → t.Confined P

theorem within_save {P : Conversation → Prop} {store : Checkpointer}
    (hs : ∀ key, (store key).Within P key) {t : LiveTurn} (ht : t.Confined P) (key : String) :
    ((store.save t) key).Within P key := by
  unfold Checkpointer.save
  by_cases hk : key = t.conversation.threadId
  · rw [hk, Function.update_self]
    exact ht.checkpoint
  · rw [Function.update_of_ne hk]
    exact hs key

theorem confined_fresh (P : Conversation → Prop) : Service.fresh.Confined P := by
  constructor
  · intro key e he
    exact absurd he List.not_mem_nil
  · intro n t ht
    exact absurd ht nofun

/-- A turn put into a slot. -/
theorem Service.Confined.put {P : Conversation → Prop} {s : Service} (hs : s.Confined P) (n : ℕ)
    {t : LiveTurn} (ht : t.Confined P) :
    Service.Confined P ⟨s.store.save t, Function.update s.live n (some t)⟩ := by
  refine ⟨fun key => within_save hs.stored ht key, fun m t' hm => ?_⟩
  rcases slot_cases hm with hself | hother
  · exact Option.some.inj hself ▸ ht
  · exact hs.live m t' hother

/-- What the turns in flight do keeps the invariant. -/
theorem Service.Confined.runs {rt : Runtime} {P : Conversation → Prop} {s s' : Service}
    (hs : s.Confined P) (h : Service.Runs rt s s') : s'.Confined P := by
  cases h with
  | superstep n t c' hn h =>
      have ht := hs.live n t hn
      exact hs.put n ⟨ht.host, ht.thread, ht.grown.trans (extends_of_step h)⟩
  | ends n =>
      refine ⟨hs.stored, fun m t hm => ?_⟩
      rcases slot_cases hm with hself | hother
      · exact absurd hself nofun
      · exact hs.live m t hother

theorem Service.Confined.runs_star {rt : Runtime} {P : Conversation → Prop} {s s' : Service}
    (hs : s.Confined P) (h : Relation.ReflTransGen (Service.Runs rt) s s') : s'.Confined P := by
  induction h with
  | refl => exact hs
  | tail _ h ih => exact ih.runs h

theorem Checkpoint.Within.mono {P Q : Conversation → Prop} (hPQ : ∀ q, P q → Q q) {key : String}
    {c : Checkpoint} (hc : c.Within P key) : c.Within Q key := by
  intro e he
  obtain ⟨q, hq, hP, hk⟩ := hc e he
  exact ⟨q, hq, hPQ q hP, hk⟩

theorem Service.Confined.mono {P Q : Conversation → Prop} (hPQ : ∀ q, P q → Q q) {s : Service}
    (hs : s.Confined P) : s.Confined Q :=
  ⟨fun key => (hs.stored key).mono hPQ, fun n t hn =>
    ⟨hPQ _ (hs.live n t hn).host, (hs.live n t hn).thread.mono hPQ, (hs.live n t hn).grown⟩⟩

/-- A request that enters the graph adds its conversation to those whose messages
the threads hold. -/
theorem Service.Confined.receives {P : Conversation → Prop} {s s' : Service} {i : Incoming}
    {reads : List (Message × Option Conversation)} (hs : s.Confined P)
    (h : s.Receives i reads s') :
    s'.Confined fun q => P q ∨ (i.writesThread ∧ q = i.conversation) := by
  have hs' := hs.mono (Q := fun q => P q ∨ (i.writesThread ∧ q = i.conversation)) fun _ => .inl
  cases h with
  | aside endpoint request => exact hs'
  | delivery m => exact hs'
  | turn n endpoint request ha =>
      refine hs'.put n ⟨.inr ⟨by simp [Incoming.writesThread, ha], rfl⟩, hs'.stored _, ?_⟩
      exact MessageLog.extends_addMessages _ _

/-- What is read is the thread of the conversation, or nothing. -/
theorem Service.Receives.reads_eq {s s' : Service} {i : Incoming}
    {reads : List (Message × Option Conversation)} (h : s.Receives i reads s') :
    reads = [] ∨ (i.usesThread ∧ reads = (s.store i.conversation.threadId).authored) := by
  cases h with
  | aside endpoint request => exact .inl rfl
  | delivery m => exact .inr ⟨rfl, rfl⟩
  | turn n endpoint request ha => exact .inr ⟨by simp [Incoming.usesThread, ha], rfl⟩

/-- Without an exposing pair, and when nothing already on the threads is exposed to
what comes in, everything read is the reader's own. -/
theorem readsOwn_of_trace {rt : Runtime} {P : Conversation → Prop} {s s' : Service}
    {es : List ServiceEvent} (hs : s.Confined P) (ht : Trace (Service.Serves rt) s es s')
    (hP : ∀ i ∈ es.map Event.input, i.usesThread → ∀ q, P q → ¬ q.Crosses i.conversation)
    (hpw : (es.map Event.input).Pairwise fun a b => ¬ a.Exposes b) :
    ∀ e ∈ es, ReadsOwn e := by
  induction ht generalizing P with
  | nil s => simp
  | @cons s s₁ s' i reads es hserve ht ih =>
      obtain ⟨s₀, hruns, hreceives⟩ := hserve
      have hs₀ := hs.runs_star hruns
      rw [List.map_cons, List.pairwise_cons] at hpw
      rw [List.map_cons, List.forall_mem_cons] at hP
      refine List.forall_mem_cons.2 ⟨?_, ih (hs₀.receives hreceives) ?_ hpw.2⟩
      · intro a ha
        rcases hreceives.reads_eq with hnil | ⟨huses, hreads⟩
        · exact absurd (hnil ▸ ha) List.not_mem_nil
        · obtain ⟨q, hq, hPq, hkey⟩ := (hs₀.stored _).authored (hreads ▸ ha)
          by_cases hne : q = i.conversation
          · rw [hq, hne]
          · exact absurd (crosses_iff.2 ⟨hne, hkey⟩) (hP.1 huses q hPq)
      · rintro j hj huses q (hq | ⟨hw, rfl⟩)
        · exact hP.2 j hj huses q hq
        · exact fun hcross => hpw.1 j hj ⟨hw, huses, hcross⟩

/-! ### A run that shows what is exposed -/

/-- The thread a turn has just been started on: what was there, and the request. -/
theorem authored_openTurn (store : Checkpointer) (request : ChatRequest) :
    (store.openTurn request).checkpoint.authored
      = (store (conversationOf request).threadId).authored
        ++ [(.human request.prompt, some (conversationOf request))] := by
  set c := store (conversationOf request).threadId with hc
  have hold : c.state.messages.entries.map
      (fun e => (e.message, c.authorIn (conversationOf request) e.id)) = c.authored := by
    refine List.map_congr_left fun e he => ?_
    rw [Checkpoint.authorIn, if_pos (c.state.messages.id_lt e he)]
  have hnew : c.authorIn (conversationOf request) c.state.messages.nextId
      = some (conversationOf request) := if_neg (Nat.lt_irrefl _)
  rw [← hold, ← hnew]
  exact List.map_append

/-- A request that enters the graph is on its thread afterwards. -/
theorem mem_authored_save (store : Checkpointer) (request : ChatRequest) :
    (.human request.prompt, some (conversationOf request)) ∈
      (store.save (store.openTurn request) (conversationOf request).threadId).authored := by
  have hself : store.save (store.openTurn request) (conversationOf request).threadId
      = (store.openTurn request).checkpoint := Function.update_self _ _ _
  rw [hself, authored_openTurn]
  exact List.mem_append_right _ List.mem_cons_self

/-- A request that enters the graph takes no message off any thread. -/
theorem authored_subset_save (store : Checkpointer) (request : ChatRequest) (key : String) :
    (store key).authored ⊆ (store.save (store.openTurn request) key).authored := by
  intro a ha
  by_cases hk : key = (conversationOf request).threadId
  · subst hk
    have hself : store.save (store.openTurn request) (conversationOf request).threadId
        = (store.openTurn request).checkpoint := Function.update_self _ _ _
    rw [hself, authored_openTurn]
    exact List.mem_append_left _ ha
  · have hother : store.save (store.openTurn request) key = store key :=
      Function.update_of_ne hk _ _
    rw [hother]
    exact ha

/-- Some way to receive a request or a delivery that reads the thread when it can,
loses no message, and puts the request on its thread. -/
theorem exists_receives (s : Service) (i : Incoming) :
    ∃ reads s', s.Receives i reads s' ∧
      (i.usesThread → reads = (s.store i.conversation.threadId).authored) ∧
      (∀ key, (s.store key).authored ⊆ (s'.store key).authored) ∧
      (i.writesThread →
        ∃ m, (m, some i.conversation) ∈ (s'.store i.conversation.threadId).authored) := by
  cases i with
  | delivery m => exact ⟨_, _, .delivery s m, fun _ => rfl, fun _ => List.Subset.refl _, nofun⟩
  | chat endpoint request =>
      cases ha : isAnonymous request.userId with
      | true =>
          refine ⟨_, _, .aside s endpoint request, ?_, fun _ => List.Subset.refl _, ?_⟩ <;>
            simp [Incoming.usesThread, Incoming.writesThread, ha]
      | false =>
          exact ⟨_, _, .turn s 0 endpoint request ha, fun _ => rfl, authored_subset_save s.store request,
            fun _ => ⟨_, mem_authored_save s.store request⟩⟩

theorem exists_serves (rt : Runtime) (s : Service) (i : Incoming) :
    ∃ reads s', s.Serves rt i reads s' := by
  obtain ⟨reads, s', h, -⟩ := exists_receives s i
  exact ⟨reads, s', s, .refl, h⟩

/-- When every run over a sequence reads only what is the reader's own, nothing
already on the threads is foreign to a reader, and no pair exposes. -/
theorem pairwise_of_readsOwn {rt : Runtime} {is : List Incoming} {s : Service}
    (h : ∀ es s', Trace (Service.Serves rt) s es s' → es.map Event.input = is →
      ∀ e ∈ es, ReadsOwn e) :
    (∀ i ∈ is, i.usesThread → ∀ a ∈ (s.store i.conversation.threadId).authored,
      a.2 = some i.conversation) ∧ is.Pairwise fun a b => ¬ a.Exposes b := by
  induction is generalizing s with
  | nil => exact ⟨by simp, .nil⟩
  | cons i is ih =>
      obtain ⟨reads, s₁, hreceives, hreads, hkept, hwritten⟩ := exists_receives s i
      have hserve : s.Serves rt i reads s₁ := ⟨s, .refl, hreceives⟩
      have hrest : ∀ es s', Trace (Service.Serves rt) s₁ es s' → es.map Event.input = is →
          ∀ e ∈ es, ReadsOwn e := by
        intro es s' ht hes e he
        exact h _ s' (.cons hserve ht) (by rw [List.map_cons, hes]) e (List.mem_cons_of_mem _ he)
      obtain ⟨hown, hpw⟩ := ih hrest
      -- the event of `i` itself, at the head of some run over the whole sequence
      obtain ⟨es, s', ht, hes⟩ := exists_trace (exists_serves rt) is s₁
      have hhead : ReadsOwn ⟨s, i, reads⟩ :=
        h _ s' (.cons hserve ht) (by rw [List.map_cons, hes]) _ List.mem_cons_self
      refine ⟨List.forall_mem_cons.2 ⟨fun huses a ha => ?_, fun j hj huses a ha => ?_⟩,
        List.pairwise_cons.2 ⟨fun j hj hexp => ?_, hpw⟩⟩
      · exact hhead a (by rw [hreads huses]; exact ha)
      · exact hown j hj huses a (hkept _ ha)
      · obtain ⟨hw, huses, hcross⟩ := hexp
        obtain ⟨hne, hkey⟩ := crosses_iff.1 hcross
        obtain ⟨m, hm⟩ := hwritten hw
        have hj := hown j hj huses _ (hkey ▸ hm)
        exact hne (Option.some.inj hj)

/-! ### Conversation isolation -/

/-- **When every request reads only its own conversation.**  Over every run on a
sequence of requests and deliveries, each of them reads only messages written for
its own conversation, exactly when none of them comes after a request that exposes
its thread to it. -/
theorem reads_own_iff (rt : Runtime) (is : List Incoming) :
    (∀ es s', Trace (Service.Serves rt) .fresh es s' → es.map Event.input = is →
      ∀ e ∈ es, ReadsOwn e) ↔ is.Pairwise fun a b => ¬ a.Exposes b := by
  constructor
  · intro h
    exact (pairwise_of_readsOwn h).2
  · intro hpw es s' ht hes
    refine readsOwn_of_trace (confined_fresh fun _ => False) ht ?_ (hes ▸ hpw)
    exact fun _ _ _ _ hq => hq.elim

/-- Session `b_c` of user `a`, then session `c` of user `a_b`, whose thread is the
same. -/
def crossedRequests : List Incoming :=
  [.chat .streamChat ⟨"a", "b_c", "My PIN is 1234."⟩,
    .chat .chatStream ⟨"a_b", "c", "What is my PIN?"⟩]

/-- **A conversation reads another user's messages.**  The second request is handed
the checkpoint the first one wrote. -/
theorem foreign_thread_read :
    ∃ es s', Trace (Service.Serves .plain) .fresh es s' ∧ es.map Event.input = crossedRequests ∧
      (∀ e ∈ es, e.input.usesThread) ∧ ¬ ∀ e ∈ es, ReadsOwn e := by
  let first : ChatRequest := ⟨"a", "b_c", "My PIN is 1234."⟩
  let second : ChatRequest := ⟨"a_b", "c", "What is my PIN?"⟩
  refine ⟨_, _, .cons ⟨_, .refl, .turn .fresh 0 .streamChat first (by decide)⟩
    (.cons ⟨_, .refl, .turn _ 1 .chatStream second (by decide)⟩ (.nil _)), rfl, ?_, ?_⟩
  · simp only [List.forall_mem_cons, List.not_mem_nil, false_implies, implies_true, and_true]
    exact ⟨by decide, by decide⟩
  · intro hown
    have hsecond := hown _ (List.mem_cons_of_mem _ List.mem_cons_self)
    have hread := hsecond _ (mem_authored_save .empty first)
    exact absurd hread (by decide)

end Server
end CognitiveEngine
