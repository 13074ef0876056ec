/-
# The prompts that the extractor sees

`StreamChat` publishes a task at the end of a turn, and the worker that gets it reads the
thread as it is then.  `FactExtractor.extract` sends the model a transcript of the last
four messages of the user and the assistant.  By then the executors, the synthesizer and
later turns may have spoken, and `task_manager` may have sandboxed the context.

`prompt_sent_iff` counts what was said since: as long as the prompt of a turn is on the
thread, it is sent exactly when at most three messages came after it.  Sandboxing takes
everything off the thread but its first message, the prompt of its first turn.
-/

import CognitiveEngine.Graph.TurnPrompt
import CognitiveEngine.Machine.Positions
import CognitiveEngine.Machine.Trace
import CognitiveEngine.Memory.Worker
import CognitiveEngine.Server.Threads

namespace CognitiveEngine
namespace Memory

open CognitiveEngine.Graph CognitiveEngine.Server CognitiveEngine.Machine

/-! ### The transcript -/

/-- The text that `extract` sends to its model, if it does. -/
def transcript (messages : List Message) : Option String :=
  if pyStrip (conversationText messages) = "" then none else some (conversationText messages)

/-- `extract` asks its model about the transcript. -/
theorem Outside.extract_eq (o : Outside) (messages : List Message) :
    o.extract messages = ((transcript messages).map fun text =>
      o.structuredLlm [.system promptInstruction, .human text]).getD (some none) := by
  rw [extract, transcript]
  split <;> rfl

/-- The entries of the channel that the transcript is made of. -/
def sentEntries (log : MessageLog) : List LogEntry :=
  lastOnes 4 (log.entries.filter (·.message.speaks))

theorem conversationText_eq (log : MessageLog) :
    conversationText log.messages
      = String.join ((sentEntries log).map fun e => conversationLine e.message) := by
  have hspeak : log.messages.filter Message.speaks
      = (log.entries.filter (·.message.speaks)).map LogEntry.message := by
    rw [MessageLog.messages, List.filter_map]
    rfl
  have htext : conversationText log.messages
      = String.join ((lastOnes 4 (log.messages.filter Message.speaks)).map conversationLine) := rfl
  rw [htext, hspeak, lastOnes_map, List.map_map]
  rfl

/-- The prompt occurs in the transcript. -/
def Occurs (prompt : String) (text : Option String) : Prop :=
  ∃ t, text = some t ∧ prompt.toList <:+: t.toList

/-- **What is sent occurs in the transcript.** -/
theorem occurs_of_mem {log : MessageLog} {e : LogEntry} {prompt : String}
    (he : e ∈ sentEntries log) (hprompt : e.message = .human prompt) :
    Occurs prompt (transcript log.messages) := by
  have hline : prompt.toList <:+: (conversationLine e.message).toList := by
    rw [hprompt, conversationLine, String.toList_append, String.toList_append]
    exact ⟨_, _, rfl⟩
  have htext : (conversationLine e.message).toList <:+: (conversationText log.messages).toList := by
    rw [conversationText_eq, String.toList_join]
    have hline : conversationLine e.message
        ∈ (sentEntries log).map fun e => conversationLine e.message :=
      List.mem_map.2 ⟨e, he, rfl⟩
    exact List.infix_of_mem_flatten (List.mem_map_of_mem hline)
  have hblank : pyStrip (conversationText log.messages) ≠ "" := by
    refine stripChars_ne_empty (c := ':') (htext.subset ?_) rfl
    rw [hprompt, conversationLine]
    simp
  exact ⟨_, if_neg hblank, hline.trans htext⟩

/-! ### A thread and its tasks -/

/-- What happens on a thread: a turn, its supersteps, the publication of a task at the end
of a turn, and the delivery of a task. -/
inductive Happening where
  | turn (request : ChatRequest)
  | superstep (c : Config)
  | publish
  | delivery (task : ℕ)

/-- The thread of a user: the configuration it has come to, how many of its turns have
ended, and how many tasks are published. -/
structure UserThread where
  config : Config
  ended : ℕ
  published : ℕ

/-- A thread without turns. -/
def UserThread.fresh : UserThread := ⟨⟨none, .empty⟩, 0, 0⟩

/-- What happens on the thread, with the transcript that a delivery sends.  A delivery
reads the state as it is, also amid a turn. -/
inductive UserThread.Does (rt : Runtime) :
    UserThread → Happening → Option String → UserThread → Prop
  | turn (s : UserThread) (request : ChatRequest) (h : isAnonymous request.userId = false) :
      Does rt s (.turn request) none { s with config := startTurn s.config.state request }
  | superstep (s : UserThread) (c : Config) (h : Step rt s.config c) :
      Does rt s (.superstep c) none
        { s with config := c, ended := if c.next = none then s.ended + 1 else s.ended }
  | publish (s : UserThread) (h : s.published < s.ended) :
      Does rt s .publish none { s with published := s.published + 1 }
  | delivery (s : UserThread) (task : ℕ) (h : task < s.published) :
      Does rt s (.delivery task) (transcript s.config.state.messages.messages) s

/-- An event of a thread. -/
abbrev ThreadEvent : Type := Event UserThread Happening (Option String)

/-- A node whose superstep appends a message of the assistant. -/
def speaksAt : Option Node → Bool
  | some (.executor _) | some .finalSynthesizer => true
  | _ => false

/-- The event appends a message of the user or the assistant. -/
def appendsSpeech (e : ThreadEvent) : Bool :=
  match e.input with
  | .turn _ => true
  | .superstep _ => speaksAt e.before.config.next
  | _ => false

/-- The event sandboxes the context: `task_manager` hands over to the next task. -/
def sandboxes (e : ThreadEvent) : Bool :=
  match e.input with
  | .superstep c => e.before.config.next = some .taskManager && c.atExecutor
  | _ => false

/-- The event is a turn. -/
def isTurn (e : ThreadEvent) : Bool :=
  match e.input with
  | .turn _ => true
  | _ => false

/-- The count of the messages of the user and the assistant, after the event: it starts
anew when the context is sandboxed. -/
def countSpeech (n : ℕ) (e : ThreadEvent) : ℕ :=
  if sandboxes e then 0 else if appendsSpeech e then n + 1 else n

/-- How many messages of the user and the assistant are appended in a row of events, since
the last sandboxing if there is one. -/
def spokenSince (es : List ThreadEvent) : ℕ := es.foldl countSpeech 0

/-! ### What is on the channel since a turn -/

/-- The prompt of a turn is on the channel, under the id it got; `n` messages of the user
and the assistant are after it, and nothing is before it if its turn is the first. -/
structure OnChannel (id : ℕ) (prompt : String) (first : Bool) (n : ℕ) (log : MessageLog) :
    Prop where
  exists_entries : ∃ front back, log.entries = front ++ ⟨id, .human prompt⟩ :: back ∧
    (back.filter (·.message.speaks)).length = n ∧ (first → front = [])

/-- Messages that are appended come after the prompt. -/
theorem OnChannel.append {id n : ℕ} {prompt : String} {first : Bool} {log log' : MessageLog}
    (h : OnChannel id prompt first n log) {es : List LogEntry}
    (hlog : log'.entries = log.entries ++ es) :
    OnChannel id prompt first (n + (es.filter (·.message.speaks)).length) log' := by
  obtain ⟨front, back, heq, hn, hfirst⟩ := h
  refine ⟨front, back ++ es, ?_, ?_, hfirst⟩
  · rw [hlog, heq, List.append_assoc, List.cons_append]
  · rw [List.filter_append, List.length_append, hn]

/-- The prompt of the first turn is all that sandboxing leaves. -/
theorem OnChannel.sandbox {id n : ℕ} {prompt : String} {log log' : MessageLog}
    (h : OnChannel id prompt true n log) (hlog : log'.entries = log.entries.take 1) :
    OnChannel id prompt true 0 log' := by
  obtain ⟨front, back, heq, -, hfirst⟩ := h
  obtain rfl := hfirst rfl
  exact ⟨[], [], by rw [hlog, heq]; rfl, rfl, fun _ => rfl⟩

/-- **When the prompt is sent:** when at most three messages are after it. -/
theorem OnChannel.sent_iff {id n : ℕ} {prompt : String} {first : Bool} {log : MessageLog}
    (h : OnChannel id prompt first n log) :
    (⟨id, .human prompt⟩ ∈ sentEntries log ↔ n ≤ 3) ∧
      (n ≤ 3 → Occurs prompt (transcript log.messages)) := by
  obtain ⟨front, back, heq, hn, -⟩ := h
  have hnot : (⟨id, .human prompt⟩ : LogEntry) ∉ back.filter (·.message.speaks) := by
    intro hmem
    have hinc := log.ids_increase
    rw [heq, List.pairwise_append, List.pairwise_cons] at hinc
    exact absurd (hinc.2.1.1 _ (List.mem_filter.1 hmem).1) (Nat.lt_irrefl _)
  have hsent : (⟨id, .human prompt⟩ ∈ sentEntries log ↔ n ≤ 3) := by
    rw [sentEntries, heq, List.filter_append, List.filter_cons_of_pos (by rfl),
      mem_lastOnes_iff hnot, hn, Nat.lt_succ_iff]
  exact ⟨hsent, fun hle => occurs_of_mem (hsent.2 hle) rfl⟩

/-- **What a superstep does to the channel:** it sandboxes it, or appends messages, of which
one is spoken if an executor or the synthesizer was run. -/
theorem Transition.channel {rt : Runtime} {c c' : Config} (h : Transition rt c c') :
    (c.next = some .taskManager ∧ c'.atExecutor ∧
      c'.state.messages.entries = c.state.messages.entries.take 1) ∨
    (¬ (c.next = some .taskManager ∧ c'.atExecutor) ∧
      ∃ es, c'.state.messages.entries = c.state.messages.entries ++ es ∧
        (es.filter (·.message.speaks)).length = if speaksAt c.next then 1 else 0) := by
  have hsame : ∃ es, c.state.messages.entries = c.state.messages.entries ++ es ∧
      (es.filter (·.message.speaks)).length = 0 := ⟨[], (List.append_nil _).symm, rfl⟩
  cases h with
  | supervise | plan | initDirect | track | extract | criticize | rework | exhaust | accept =>
      exact .inr ⟨by simp, hsame⟩
  | dismiss | finish => exact .inr ⟨fun h => Bool.false_ne_true h.2, hsame⟩
  | dispatch l s content calls => exact .inr ⟨by simp, _, rfl, rfl⟩
  | conclude l s content calls => exact .inr ⟨by simp, _, rfl, rfl⟩
  | synthesize s content calls => exact .inr ⟨by simp, _, rfl, rfl⟩
  | callTools s content calls hlast result =>
      obtain ⟨es, hentries, hes⟩ := s.messages.entries_addMessages_append
        (calls.map fun tc => .tool (result tc) tc.id)
      have hquiet : es.filter (·.message.speaks) = [] := by
        refine List.filter_eq_nil_iff.2 fun e he => ?_
        have hmem : e.message ∈ calls.map fun tc => Message.tool (result tc) tc.id :=
          hes ▸ List.mem_map_of_mem he
        obtain ⟨tc, -, htool⟩ := List.mem_map.1 hmem
        rw [← htool]
        exact Bool.false_ne_true
      rw [List.map_map] at hentries
      exact .inr ⟨by simp, es, hentries, by rw [hquiet]; rfl⟩
  | advance s ht result hr next hn =>
      exact .inl ⟨rfl, rfl, s.messages.entries_addMessages_remove_tail⟩

/-! ### What is on the channel at a delivery -/

/-- **Step lemma.**  An event keeps the prompt on the channel and counts what is said; only
the prompt of the first turn outlives the sandboxing of the context. -/
theorem UserThread.Does.onChannel {rt : Runtime} {s s' : UserThread} {i : Happening}
    {o : Option String} (hs : UserThread.Does rt s i o s') {id n : ℕ} {prompt : String}
    {first : Bool} (h : OnChannel id prompt first n s.config.state.messages)
    (hkept : first ∨ ¬ sandboxes ⟨s, i, o⟩) :
    OnChannel id prompt first (countSpeech n ⟨s, i, o⟩) s'.config.state.messages := by
  cases hs with
  | turn request ha =>
      have happend : (startTurn s.config.state request).state.messages.entries
          = s.config.state.messages.entries
            ++ [⟨s.config.state.messages.nextId, .human request.prompt⟩] := rfl
      exact h.append happend
  | superstep c hstep =>
      rcases Transition.channel hstep.transition with ⟨hn, he, htake⟩ | ⟨hn, es, happend, hlen⟩
      · have hsandbox : sandboxes ⟨s, .superstep c, none⟩ = true := by
          show (decide (s.config.next = some .taskManager) && c.atExecutor) = true
          rw [hn, he]
          rfl
        obtain rfl := hkept.resolve_right (not_not_intro hsandbox)
        rw [countSpeech, if_pos hsandbox]
        exact h.sandbox htake
      · have hsandbox : ¬ sandboxes ⟨s, .superstep c, none⟩ = true := by
          rw [sandboxes, Bool.and_eq_true, decide_eq_true_eq]
          exact hn
        have hcount : countSpeech n ⟨s, .superstep c, none⟩
            = n + (es.filter (·.message.speaks)).length := by
          rw [countSpeech, if_neg hsandbox, hlen]
          show (if speaksAt s.config.next then n + 1 else n)
            = n + if speaksAt s.config.next then 1 else 0
          split <;> rfl
        rw [hcount]
        exact h.append happend
  | publish hp => exact h
  | delivery task hd => exact h

/-- **Run lemma.**  All along a row of events the prompt stays on the channel and what is
said is counted. -/
theorem OnChannel.run {rt : Runtime} {s s' : UserThread} {es : List ThreadEvent}
    (ht : Trace (UserThread.Does rt) s es s') {id n : ℕ} {prompt : String} {first : Bool}
    (h : OnChannel id prompt first n s.config.state.messages)
    (hkept : first ∨ ∀ e ∈ es, ¬ sandboxes e) :
    OnChannel id prompt first (es.foldl countSpeech n) s'.config.state.messages := by
  induction ht generalizing n with
  | nil s => exact h
  | cons hstep ht ih =>
      rw [List.forall_mem_cons] at hkept
      exact ih (hstep.onChannel h (hkept.imp_right And.left)) (hkept.imp_right And.right)

/-- A thread on which no turn has started stays as it is. -/
theorem config_eq_of_no_turn {rt : Runtime} {s s' : UserThread} {es : List ThreadEvent}
    (ht : Trace (UserThread.Does rt) s es s') (hes : ∀ e ∈ es, ¬ isTurn e)
    (hs : s.config.next = none) : s'.config = s.config := by
  induction ht with
  | nil s => rfl
  | cons hstep ht ih =>
      rw [List.forall_mem_cons] at hes
      cases hstep with
      | turn request ha => exact absurd rfl hes.1
      | superstep c h => exact absurd hs h.1
      | publish | delivery => exact ih hes.2 hs

/-- A turn puts its prompt on the channel. -/
theorem UserThread.Does.onChannel_turn {rt : Runtime} {s s' : UserThread}
    {request : ChatRequest} {o : Option String}
    (hs : UserThread.Does rt s (.turn request) o s') {first : Bool}
    (hfirst : first → s.config.state.messages.entries = []) :
    OnChannel s.config.state.messages.nextId request.prompt first 0
      s'.config.state.messages := by
  cases hs with
  | turn => exact ⟨_, [], rfl, rfl, hfirst⟩

/-- A delivery sends the transcript of the state that the thread has. -/
theorem UserThread.Does.output_delivery {rt : Runtime} {s s' : UserThread} {task : ℕ}
    {o : Option String} (hs : UserThread.Does rt s (.delivery task) o s') :
    o = transcript s.config.state.messages.messages := by
  cases hs with
  | delivery => rfl

/-- **When the prompt of a turn is sent.**  As long as the prompt is on the thread, since
the context has not been sandboxed or the turn was the first one, a delivery sends it
exactly when at most three messages of the user and the assistant came after it, and then
it occurs in the transcript. -/
theorem prompt_sent_iff {rt : Runtime} {before between after : List ThreadEvent}
    {e d : ThreadEvent} {s' : UserThread}
    (ht : Trace (UserThread.Does rt) .fresh (before ++ e :: (between ++ d :: after)) s')
    {request : ChatRequest} (he : e.input = .turn request) {task : ℕ}
    (hd : d.input = .delivery task)
    (hkept : (∀ f ∈ before, ¬ isTurn f) ∨ ∀ f ∈ between, ¬ sandboxes f) :
    (⟨e.before.config.state.messages.nextId, .human request.prompt⟩
        ∈ sentEntries d.before.config.state.messages ↔ spokenSince between ≤ 3) ∧
      (spokenSince between ≤ 3 → Occurs request.prompt d.output) := by
  obtain ⟨hbefore, s₁, hturn, hrest⟩ := ht.split
  obtain ⟨hbetween, s₂, hdelivery, -⟩ := hrest.split
  rw [he] at hturn
  rw [hd] at hdelivery
  have hon : ∃ first, OnChannel e.before.config.state.messages.nextId request.prompt first
      (spokenSince between) d.before.config.state.messages := by
    rcases hkept with hfirst | hnone
    · have hconfig := config_eq_of_no_turn hbefore hfirst rfl
      refine ⟨true, OnChannel.run hbetween (hturn.onChannel_turn fun _ => ?_) (.inl rfl)⟩
      exact congrArg (fun c => c.state.messages.entries) hconfig
    · exact ⟨false, OnChannel.run hbetween (hturn.onChannel_turn fun h => nomatch h)
        (.inr hnone)⟩
  obtain ⟨first, hon⟩ := hon
  rw [hdelivery.output_delivery]
  exact hon.sent_iff

/-! ### Turns as events -/

/-- The events of a turn that has gone through the given configurations, the latest
first. -/
def turnEvents (s : UserThread) (request : ChatRequest) (h : List Config) :
    List ThreadEvent :=
  ⟨s, .turn request, none⟩ ::
    (steps h).reverse.map fun t => ⟨{ s with config := t.1 }, .superstep t.2, none⟩

/-- A turn, as far as it has gone, is a row of events on its thread. -/
theorem trace_turnEvents {rt : Runtime} {s : UserThread} {request : ChatRequest} {c : Config}
    {h : List Config} (hh : TurnHistory rt s.config.state request (c :: h))
    (ha : isAnonymous request.userId = false) :
    Trace (UserThread.Does rt) s (turnEvents s request (c :: h))
      { s with config := c, ended := if c.next = none then s.ended + 1 else s.ended } := by
  refine hh.rec_head (P := fun c h => Trace (UserThread.Does rt) s (turnEvents s request (c :: h))
    { s with config := c, ended := if c.next = none then s.ended + 1 else s.ended }) ?_ ?_
  · rintro _ rfl
    exact .cons (.turn s request ha) (.nil _)
  · intro c c' h _ ih hstep
    rw [if_neg hstep.1] at ih
    have happend : turnEvents s request (c' :: c :: h) = turnEvents s request (c :: h)
        ++ [⟨{ s with config := c }, .superstep c', none⟩] := by
      rw [turnEvents, turnEvents, steps_cons_cons, List.reverse_cons, List.map_append]
      rfl
    rw [happend]
    exact ih.append (.cons (.superstep _ c' hstep) (.nil _))

/-- A turn sends no transcript. -/
theorem output_of_mem_turnEvents {s : UserThread} {request : ChatRequest} {h : List Config}
    {e : ThreadEvent} (he : e ∈ turnEvents s request h) : e.output = none := by
  rcases List.mem_cons.1 he with rfl | he
  · rfl
  · obtain ⟨t, -, rfl⟩ := List.mem_map.1 he
    rfl

/-! ### Two short turns -/

/-- The events of a short turn. -/
def shortTurnEvents (s : UserThread) (request : ChatRequest) : List ThreadEvent :=
  turnEvents s request (shortTurnOn s.config.state request)

/-- A thread after a short turn. -/
def afterEvents (s : UserThread) (request : ChatRequest) : UserThread :=
  ⟨⟨none, afterShortTurn s.config.state request⟩, s.ended + 1, s.published⟩

def firstRequest : ChatRequest := ⟨"alice", "s1", "What is new?"⟩

def secondRequest : ChatRequest := ⟨"alice", "s1", "And in Hue?"⟩

def afterFirst : UserThread := afterEvents .fresh firstRequest

def afterSecond : UserThread := afterEvents afterFirst secondRequest

theorem trace_first : Trace (UserThread.Does .plain) .fresh
    (shortTurnEvents .fresh firstRequest) afterFirst :=
  trace_turnEvents (turnHistory_shortTurnOn .empty firstRequest) rfl

theorem trace_second : Trace (UserThread.Does .plain) afterFirst
    (shortTurnEvents afterFirst secondRequest) afterSecond :=
  trace_turnEvents (turnHistory_shortTurnOn _ secondRequest) rfl

/-- The delivery of a task to a worker that finds the thread as given. -/
def deliveryOn (s : UserThread) (task : ℕ) : ThreadEvent :=
  ⟨s, .delivery task, transcript s.config.state.messages.messages⟩

/-- The thread with more tasks published. -/
def publishing (s : UserThread) (n : ℕ) : UserThread := { s with published := s.published + n }

/-- The prompt of a short turn is sent by a delivery right after it. -/
theorem short_turn_sent :
    Occurs firstRequest.prompt (deliveryOn (publishing afterFirst 1) 0).output := by
  let supersteps := (shortTurnEvents .fresh firstRequest).tail
  let published : ThreadEvent := ⟨afterFirst, .publish, none⟩
  have htasks : Trace (UserThread.Does .plain) afterFirst
      [published, deliveryOn (publishing afterFirst 1) 0] (publishing afterFirst 1) :=
    .cons (.publish afterFirst (by decide))
      (.cons (.delivery (publishing afterFirst 1) 0 (by decide)) (.nil _))
  have ht := trace_first.append htasks
  have hsplit : shortTurnEvents .fresh firstRequest
        ++ [published, deliveryOn (publishing afterFirst 1) 0]
      = [] ++ ⟨.fresh, .turn firstRequest, none⟩ :: ((supersteps ++ [published])
        ++ deliveryOn (publishing afterFirst 1) 0 :: []) := by
    rw [List.append_assoc]
    rfl
  rw [hsplit] at ht
  exact (prompt_sent_iff ht rfl rfl (.inl (List.forall_mem_nil _))).2 (by decide +kernel)

/-- Every turn has come to its end, and a task of each is published and delivered. -/
structure Settled (es : List ThreadEvent) (s' : UserThread) : Prop where
  ended : s'.ended = es.countP isTurn
  published : s'.published = s'.ended
  delivered : ∀ task < s'.published, ∃ d ∈ es, d.input = .delivery task

/-- **A prompt that no delivery sends.**  Both tasks are delivered after the second turn,
when the last four messages are the answer to the first prompt and the second turn. -/
theorem first_prompt_unseen :
    ¬ ∀ (rt : Runtime) (es : List ThreadEvent) (s' : UserThread),
      Trace (UserThread.Does rt) .fresh es s' → Settled es s' →
        ∀ e ∈ es, ∀ request, e.input = .turn request →
          ∃ d ∈ es, Occurs request.prompt d.output := by
  intro hall
  let turns := shortTurnEvents .fresh firstRequest ++ shortTurnEvents afterFirst secondRequest
  let found := publishing afterSecond 2
  let tasks : List ThreadEvent := [⟨afterSecond, .publish, none⟩,
    ⟨publishing afterSecond 1, .publish, none⟩, deliveryOn found 0, deliveryOn found 1]
  have htasks : Trace (UserThread.Does .plain) afterSecond tasks found :=
    .cons (.publish afterSecond (by decide)) (.cons (.publish (publishing afterSecond 1) (by decide))
      (.cons (.delivery found 0 (by decide)) (.cons (.delivery found 1 (by decide)) (.nil _))))
  have hsettled : Settled (turns ++ tasks) found := by
    refine ⟨by decide +kernel, rfl, fun task htask => ?_⟩
    have hmem : ∀ task < 2, ∃ d ∈ tasks, d.input = .delivery task := by
      intro task htask
      obtain rfl | rfl : task = 0 ∨ task = 1 := by omega
      · exact ⟨deliveryOn found 0, by simp [tasks], rfl⟩
      · exact ⟨deliveryOn found 1, by simp [tasks], rfl⟩
    obtain ⟨d, hd, hinput⟩ := hmem task htask
    exact ⟨d, List.mem_append_right _ hd, hinput⟩
  have hunseen : ∀ t ∈ (deliveryOn found 0).output,
      ¬ firstRequest.prompt.toList <:+: t.toList := by decide +kernel
  obtain ⟨d, hd, text, htext, hprompt⟩ := hall .plain (turns ++ tasks) found
    ((trace_first.append trace_second).append htasks) hsettled _ List.mem_cons_self
    firstRequest rfl
  have htask : ∀ d ∈ tasks, d.output = none ∨ d.output = (deliveryOn found 0).output :=
    List.forall_mem_cons.2 ⟨.inl rfl, List.forall_mem_cons.2 ⟨.inl rfl,
      List.forall_mem_cons.2 ⟨.inr rfl, List.forall_mem_cons.2 ⟨.inr rfl, by simp⟩⟩⟩⟩
  have houtput : d.output = none ∨ d.output = (deliveryOn found 0).output := by
    rcases List.mem_append.1 hd with hturn | hmem
    · rcases List.mem_append.1 hturn with hturn | hturn
      · exact .inl (output_of_mem_turnEvents hturn)
      · exact .inl (output_of_mem_turnEvents hturn)
    · exact htask d hmem
  rcases houtput with hnone | hsent
  · exact absurd (hnone.symm.trans htext) (by simp)
  · exact hunseen text (hsent.symm.trans htext) hprompt

end Memory
end CognitiveEngine
