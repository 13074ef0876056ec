/-
# The memory worker and the settlement of its messages

`process_message` (`app/worker_main.py`) takes a message of the extraction queue,
reads the conversation's checkpoint and hands it to `MemoryWorker`
(`app/services/memory_worker.py`), which has `FactExtractor` find facts in it and
`MemoryService` store them.

Three layers catch exceptions.  `add_fact` catches those of the store,
`process_extraction_task` every one of the extraction, and the consumer the rest,
which it answers with a rejection.  It runs inside `message.process()`, whose exit
acknowledges the message once more; a message that has been settled refuses that.

The body as `json.loads` leaves it, the checkpoint, the model, the store and the
clock are what a delivery meets outside.
-/

import CognitiveEngine.Memory.FactStore

namespace CognitiveEngine
namespace Memory

open CognitiveEngine.Graph CognitiveEngine.Server

variable {V : Type}

/-! ### The extractor -/

/-- `FactItem.category`. -/
inductive FactCategory where
  | userPreference
  | verifiedKnowledge
  | systemConstraint

/-- The text of a category. -/
def FactCategory.value : FactCategory → String
  | .userPreference => "user_preference"
  | .verifiedKnowledge => "verified_knowledge"
  | .systemConstraint => "system_constraint"

/-- One extracted fact. -/
structure FactItem where
  category : FactCategory
  text : String
  semanticAnchors : List String
  importance : ℚ

/-- `FactExtractor.prompt_instruction`. -/
def promptInstruction : String :=
  "You are an elite enterprise long-term memory extraction agent.\n" ++
    "Filter out greeting noise, trivial conversation turns, or failed code snippets.\n" ++
    "Isolate and structure permanent core insights. " ++
    "Always fulfill the semantic_anchors array parameter."

/-- One line of the conversation text. -/
def conversationLine : Message → String
  | .human content => "User: " ++ content ++ "\n"
  | m => "AI: " ++ m.content ++ "\n"

/-- `conversation_text`: the last four messages of the user and the assistant. -/
def conversationText (messages : List Message) : String :=
  let validMessages := messages.filter Message.speaks
  String.join ((validMessages.drop (validMessages.length - 4)).map conversationLine)

/-- What a delivery meets outside: `none` stands for a call that raises. -/
structure Outside where
  /-- `json.loads(message.body.decode())`. -/
  body : Option Json
  /-- The messages of the checkpoint of the thread of a user and a session id. -/
  checkpoint : Json → Json → Option (List Message)
  /-- `structured_llm.ainvoke`, and its facts when it answers with something. -/
  structuredLlm : List Message → Option (Option (List FactItem))
  /-- Whether the store takes the fact at a position of the list. -/
  storeTakes : ℕ → Bool
  /-- The readings of the clock for the fact at a position of the list. -/
  millis : ℕ → ℕ
  seconds : ℕ → ℕ

namespace Outside

variable (o : Outside)

/-- `FactExtractor.extract`. -/
def extract (messages : List Message) : Option (Option (List FactItem)) :=
  if pyStrip (conversationText messages) = "" then some none
  else o.structuredLlm [.system promptInstruction, .human (conversationText messages)]

/-- `combined_document_text`. -/
def documentText (item : FactItem) : String :=
  "[" ++ item.category.value.toUpper ++ "] Fact: " ++ item.text ++ "\nSearch Triggers: " ++
    String.intercalate ", " item.semanticAnchors

/-- The call of `add_fact` for the fact at a position. -/
def factCall (userId : Json) (collection : String) (i : ℕ) (item : FactItem) : FactCall :=
  ⟨userId, documentText item, item.category.value, item.semanticAnchors, collection,
    item.importance, o.millis i, o.seconds i⟩

variable (store : MemoryStore V)

/-- The loop of `process_extraction_task` from a position on, with the writes the
store has taken; `add_fact` logs a failed one and returns. -/
def addFacts (userId : Json) (collection : String) :
    ℕ → List FactItem → List (String × Point V) → List (String × Point V)
  | _, [], writes => writes
  | i, item :: items, writes =>
      addFacts userId collection (i + 1) items
        (if o.storeTakes i then
          writes ++ (store.addFact (o.factCall userId collection i item)).toList
        else writes)

/-- `process_extraction_task`, as the writes it leads to.  A target that has no
`upper` and an extractor that raises are logged. -/
def processExtractionTask (userId target : Json) (messages : List Message) :
    List (String × Point V) :=
  match target with
  | .str collection =>
      match o.extract messages with
      | some (some items) => o.addFacts store userId collection 0 items []
      | _ => []
  | _ => []

end Outside

/-! ### Settlement -/

/-- `message.ack()` and `message.reject(requeue=requeue)`. -/
inductive Settlement where
  | ack
  | reject (requeue : Bool)
deriving DecidableEq

/-- What has become of a message: the settlements the broker got, and the writes
made for it. -/
structure Delivery (V : Type) where
  settlements : List Settlement
  writes : List (String × Point V)

/-- A delivery and whether an exception is raised. -/
abbrev Handled (V : Type) : Type := Delivery V × Bool

/-- A settlement; a message that has been settled raises. -/
def Delivery.settle (d : Delivery V) (s : Settlement) : Handled V :=
  match d.settlements with
  | [] => ({ d with settlements := [s] }, false)
  | _ => (d, true)

namespace Outside

variable (o : Outside) (store : MemoryStore V)

/-- `payload.get(key, default)`. -/
def get (payload : List (String × Json)) (key : String) (default : Json) : Json :=
  (payload.lookup key).getD default

/-- The body of the `try`. -/
def tryBlock (d : Delivery V) : Handled V :=
  match o.body with
  | some (.obj payload) =>
      let userId := get payload "user_id" .null
      match o.checkpoint userId (get payload "session_id" .null) with
      | none => (d, true)
      | some [] => d.settle .ack
      | some messages =>
          let target := get payload "target_rag_domain" (.str "general_memory")
          { d with
            writes := d.writes ++ o.processExtractionTask store userId target messages }.settle .ack
  | _ => (d, true)

/-- The `try` with its handler. -/
def processBody (d : Delivery V) : Handled V :=
  match o.tryBlock store d with
  | (d, true) => d.settle (.reject false)
  | (d, false) => (d, false)

/-- `process_message`: the context rejects a message it is left of with an
exception, which goes on, and acknowledges it otherwise. -/
def processMessage : Handled V :=
  match o.processBody store ⟨[], []⟩ with
  | (d, true) => ((d.settle (.reject false)).1, true)
  | (d, false) => d.settle .ack

/-! ### What a delivery asks for -/

/-- The user id, the target and the messages the memory worker is called with, if
the delivery gets that far. -/
def workerInput : Option (Json × Json × List Message) :=
  match o.body with
  | some (.obj payload) =>
      let userId := get payload "user_id" .null
      match o.checkpoint userId (get payload "session_id" .null) with
      | some (m :: ms) =>
          some (userId, get payload "target_rag_domain" (.str "general_memory"), m :: ms)
      | _ => none
  | _ => none

/-- A step of the memory worker fails: the name of the collection is no text, the
extractor raises, or the store does not take a fact. -/
inductive WorkerFails (target : Json) (messages : List Message) : Prop
  | collection (h : ∀ collection, target ≠ .str collection)
  | extractor (h : o.extract messages = none)
  | store (items : List FactItem) (i : ℕ) (h : o.extract messages = some (some items))
      (hi : i < items.length) (htakes : o.storeTakes i = false)

/-- A step of the handling of the message fails. -/
inductive StepFails : Prop
  | payload (h : ∀ payload, o.body ≠ some (.obj payload))
  | checkpoint (payload : List (String × Json)) (h : o.body = some (.obj payload))
      (hnone : o.checkpoint (get payload "user_id" .null) (get payload "session_id" .null) = none)
  | worker (userId target : Json) (messages : List Message)
      (h : o.workerInput = some (userId, target, messages)) (hfails : o.WorkerFails target messages)

/-- The extractor finds the fact at a position of its list, to be stored in a
collection for a user. -/
def Extracts (userId : Json) (collection : String) (i : ℕ) (item : FactItem) : Prop :=
  ∃ messages items, o.workerInput = some (userId, .str collection, messages) ∧
    o.extract messages = some (some items) ∧ items[i]? = some item

/-- The settlement matches the outcome. -/
structure SettledRightly (d : Delivery V) : Prop where
  once : d.settlements.length = 1
  stored : .ack ∈ d.settlements → ∀ userId collection i item,
    o.Extracts userId collection i item → pyStrip item.text ≠ "" →
    store.write (o.factCall userId collection i item) ∈ d.writes
  rejected : o.StepFails → d.settlements = [.reject false]

/-! ### The worker's writes -/

/-- The text of a fact is never blank. -/
theorem addFact_factCall (userId : Json) (collection : String) (i : ℕ) (item : FactItem) :
    store.addFact (o.factCall userId collection i item)
      = some (store.write (o.factCall userId collection i item)) := by
  refine addFact_of_not_blank store (stripChars_ne_empty (c := '[') ?_ rfl)
  simp [factCall, documentText]

/-- **What the loop writes:** the facts the store takes. -/
theorem mem_addFacts {userId : Json} {collection : String} {i : ℕ} {items : List FactItem}
    {writes : List (String × Point V)} {w : String × Point V} :
    w ∈ o.addFacts store userId collection i items writes ↔ w ∈ writes ∨
      ∃ n item, items[n]? = some item ∧ o.storeTakes (i + n) ∧
        w = store.write (o.factCall userId collection (i + n) item) := by
  induction items generalizing i writes with
  | nil => simp [addFacts]
  | cons item items ih =>
      have hhead : w ∈ (if o.storeTakes i then
            writes ++ (store.addFact (o.factCall userId collection i item)).toList
          else writes) ↔
          w ∈ writes ∨
            (o.storeTakes i ∧ w = store.write (o.factCall userId collection i item)) := by
        rw [addFact_factCall]
        by_cases hi : o.storeTakes i <;> simp [hi]
      rw [addFacts, ih, hhead, or_assoc]
      refine or_congr Iff.rfl ⟨?_, ?_⟩
      · rintro (⟨hi, hw⟩ | ⟨n, item', hn, hi, hw⟩)
        · exact ⟨0, item, rfl, hi, hw⟩
        · rw [Nat.add_assoc, Nat.add_comm 1 n] at hi hw
          exact ⟨n + 1, item', hn, hi, hw⟩
      · rintro ⟨_ | n, item', hn, hi, hw⟩
        · obtain rfl := Option.some.inj hn
          exact .inl ⟨hi, hw⟩
        · refine .inr ⟨n, item', hn, ?_, ?_⟩
          · rw [Nat.add_assoc, Nat.add_comm 1 n]
            exact hi
          · rw [Nat.add_assoc, Nat.add_comm 1 n]
            exact hw

/-- A worker none of whose steps fails writes every extracted fact. -/
theorem write_mem_of_extracts {userId : Json} {collection : String} {messages : List Message}
    {items : List FactItem} {i : ℕ} {item : FactItem}
    (hworks : ¬ o.WorkerFails (.str collection) messages)
    (hitems : o.extract messages = some (some items)) (hi : items[i]? = some item) :
    store.write (o.factCall userId collection i item)
      ∈ o.processExtractionTask store userId (.str collection) messages := by
  have htakes : o.storeTakes i := by
    by_contra hnot
    have hlt : i < items.length := (List.getElem?_eq_some_iff.1 hi).1
    exact hworks (.store items i hitems hlt (by simpa using hnot))
  have hmem : store.write (o.factCall userId collection i item)
      ∈ o.addFacts store userId collection 0 items [] :=
    (o.mem_addFacts store).2 (.inr ⟨i, item, hi, by simpa using htakes, by simp⟩)
  simpa [processExtractionTask, hitems] using hmem

/-! ### The settlement of a message -/

/-- **How a message is settled.**  It is rejected when its payload or its checkpoint
cannot be read, and acknowledged when there is no conversation, or after whatever the
memory worker did.  Each time the context's own settlement raises. -/
theorem processMessage_cases :
    (o.StepFails ∧ o.workerInput = none ∧
      o.processMessage store = (⟨[.reject false], []⟩, true)) ∨
    (¬ o.StepFails ∧ o.workerInput = none ∧ o.processMessage store = (⟨[.ack], []⟩, true)) ∨
    ∃ userId target messages, o.workerInput = some (userId, target, messages) ∧
      (o.StepFails ↔ o.WorkerFails target messages) ∧
      o.processMessage store
        = (⟨[.ack], o.processExtractionTask store userId target messages⟩, true) := by
  by_cases hobj : ∃ payload, o.body = some (.obj payload)
  · obtain ⟨payload, hbody⟩ := hobj
    cases hread : o.checkpoint (get payload "user_id" .null) (get payload "session_id" .null) with
    | none =>
        refine .inl ⟨.checkpoint payload hbody hread, ?_, ?_⟩
        · simp [workerInput, hbody, hread]
        · simp [processMessage, processBody, tryBlock, hbody, hread, Delivery.settle]
    | some messages =>
        -- What is read is a conversation, so only the worker can fail.
        have honly : o.StepFails → ∃ userId target messages,
            o.workerInput = some (userId, target, messages) ∧ o.WorkerFails target messages := by
          rintro (h | ⟨payload', h, hnone⟩ | ⟨_, _, _, h, hfails⟩)
          · exact absurd hbody (h payload)
          · obtain rfl := Json.obj.inj (Option.some.inj (hbody.symm.trans h))
            exact absurd (hread.symm.trans hnone) (by simp)
          · exact ⟨_, _, _, h, hfails⟩
        cases messages with
        | nil =>
            have hinput : o.workerInput = none := by simp [workerInput, hbody, hread]
            refine .inr (.inl ⟨fun h => ?_, hinput, ?_⟩)
            · obtain ⟨_, _, _, h, -⟩ := honly h
              exact absurd (hinput.symm.trans h) (by simp)
            · simp [processMessage, processBody, tryBlock, hbody, hread, Delivery.settle]
        | cons m ms =>
            have hinput : o.workerInput = some (get payload "user_id" .null,
                get payload "target_rag_domain" (.str "general_memory"), m :: ms) := by
              simp [workerInput, hbody, hread]
            refine .inr (.inr ⟨_, _, _, hinput, ⟨fun h => ?_, .worker _ _ _ hinput⟩, ?_⟩)
            · obtain ⟨_, _, _, h, hfails⟩ := honly h
              rw [hinput, Option.some.injEq, Prod.mk.injEq, Prod.mk.injEq] at h
              obtain ⟨-, rfl, rfl⟩ := h
              exact hfails
            · simp [processMessage, processBody, tryBlock, hbody, hread, Delivery.settle]
  · have hnot : ∀ payload, o.body ≠ some (.obj payload) := fun payload h => hobj ⟨payload, h⟩
    refine .inl ⟨.payload hnot, ?_, ?_⟩
    · unfold workerInput
      split
      · exact absurd ‹_› (hnot _)
      · rfl
    · have htry : o.tryBlock store ⟨[], []⟩ = (⟨[], []⟩, true) := by
        unfold tryBlock
        split
        · exact absurd ‹_› (hnot _)
        · rfl
      simp [processMessage, processBody, htry, Delivery.settle]

/-- **When the settlement matches the outcome:** exactly when the delivery does not get
as far as the memory worker, or no step of the memory worker fails.  In every case the
body has settled the message, so that the settlement of the context raises. -/
theorem settledRightly_iff :
    (o.processMessage store).2 = true ∧
    (o.SettledRightly store (o.processMessage store).1 ↔
      ∀ userId target messages, o.workerInput = some (userId, target, messages) →
        ¬ o.WorkerFails target messages) := by
  rcases o.processMessage_cases store with ⟨hfails, hinput, heq⟩ | ⟨hworks, hinput, heq⟩ |
    ⟨userId, target, messages, hinput, hfails, heq⟩ <;> rw [heq]
  · exact ⟨rfl, iff_of_true ⟨rfl, by simp, fun _ => rfl⟩ (by simp [hinput])⟩
  · refine ⟨rfl, iff_of_true ⟨rfl, ?_, fun h => absurd h hworks⟩ (by simp [hinput])⟩
    intro _ userId collection i item hextracts _
    obtain ⟨messages, items, h, -⟩ := hextracts
    exact absurd (hinput.symm.trans h) (by simp)
  · refine ⟨rfl, fun hright => ?_, fun hnone => ?_⟩
    · intro userId' target' messages' hinput' hworker
      exact absurd (hright.rejected (.worker _ _ _ hinput' hworker)) (by simp)
    · refine ⟨rfl, ?_, fun h => absurd (hfails.1 h) (hnone _ _ _ hinput)⟩
      intro _ userId' collection i item hextracts _
      obtain ⟨messages', items, h, hitems, hi⟩ := hextracts
      rw [hinput, Option.some.injEq, Prod.mk.injEq, Prod.mk.injEq] at h
      obtain ⟨rfl, rfl, rfl⟩ := h
      dsimp only
      exact o.write_mem_of_extracts store (hnone _ _ _ hinput) hitems hi

end Outside

/-- A delivery for one conversation, in which one fact is found and the store takes
no write. -/
def refusedWrite : Outside where
  body := some (.obj [("user_id", .str "alice"), ("session_id", .str "s1"),
    ("target_rag_domain", .str "general_memory")])
  checkpoint _ _ := some [.human "I only drink tea.", .ai "Noted." []]
  structuredLlm _ := some (some [⟨.userPreference, "Drinks tea.", [], 1 / 2⟩])
  storeTakes _ := false
  millis _ := 1767225600000
  seconds _ := 1767225600

/-- The fact is not stored, and the message is acknowledged. -/
theorem refused_write_acknowledged :
    ¬ ∀ o : Outside, o.SettledRightly listedStore (o.processMessage listedStore).1 := by
  intro h
  have hack : (refusedWrite.processMessage listedStore).1.settlements = [.ack] := rfl
  have hfails : refusedWrite.StepFails :=
    .worker _ _ _ rfl (.store [⟨.userPreference, "Drinks tea.", [], 1 / 2⟩] 0 rfl (by simp) rfl)
  rw [(h refusedWrite).rejected hfails] at hack
  exact absurd hack (by decide)

end Memory
end CognitiveEngine
