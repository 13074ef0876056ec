/-
# The extraction queue

A chat call publishes an extraction task, and the memory workers take the tasks from the
queue, one each (`prefetch_count=1`).  `process_message` acknowledges its task or rejects
it, and a rejected one goes to the dead letter queue.  A worker that loses its connection
before that has its task delivered again; if it is still alive it goes on writing.

`settled_of_queue` says what has become of every task in any state of any run, with any
number of calls and workers and whatever is lost, `queue_drains` that the work comes to
its end, and `memory_of_queue` whose facts are in the collections then.
-/

import CognitiveEngine.Machine.WorkQueue
import CognitiveEngine.Memory.Redelivery
import CognitiveEngine.Server.AnonymousCalls
import CognitiveEngine.Server.Partitions

namespace CognitiveEngine
namespace Server

open CognitiveEngine.Graph Machine CognitiveEngine.Memory

variable {V W : Type} (C : Type) (store : MemoryStore V)

/-- A chat call publishes the message. -/
def Published (q : QueueMessage) : Prop :=
  ∃ (cache : SemanticCache V) (x : Call) (e : Encounter C V), .publish q ∈ (serve cache x e).1

/-- What `process_message` may do with a message, whatever it meets outside: its writes,
and how it settles the message. -/
def MayHandle (q : QueueMessage) (writes : List (String × Point V)) (s : Settlement) : Prop :=
  ∃ o : Memory.Outside, o.body = some (payloadOf q) ∧ o.processMessage store = (⟨[s], writes⟩, true)

/-- The rules of the extraction queue. -/
def extractionRules : WorkQueue.Rules QueueMessage (String × Point V) Settlement where
  admits := Published (V := V) C
  handles := MayHandle store

/-- The extraction queue with its workers. -/
abbrev ExtractionQueue (V W : Type) : Type := WorkQueue QueueMessage W (String × Point V) Settlement

variable {C store}

/-! ### One delivery -/

/-- The checkpoint that a delivery of the message reads. -/
def checkpointFor (o : Memory.Outside) (q : QueueMessage) : Option (List Message) :=
  o.checkpoint (.str q.userId) (.str q.sessionId)

/-- How a delivery settles the message. -/
def settlementFor (o : Memory.Outside) (q : QueueMessage) : Settlement :=
  if (checkpointFor o q).isNone then .reject false else .ack

/-- **A message of the queue is rejected exactly when its checkpoint cannot be read**, and
then nothing has been written for it. -/
theorem processMessage_payloadOf {o : Memory.Outside} {q : QueueMessage}
    (hbody : o.body = some (payloadOf q)) :
    o.processMessage store = (⟨[settlementFor o q], o.written store⟩, true) ∧
      (checkpointFor o q = none → o.written store = []) := by
  have hcheckpoint : o.checkpoint (.str q.userId) (.str q.sessionId) = checkpointFor o q := rfl
  have huser : ∀ rest, Memory.Outside.get
      (("codename_process", .str "FactExtractionProcess") :: ("user_id", .str q.userId) :: rest)
      "user_id" .null = .str q.userId := fun _ => rfl
  have hsession : ∀ rest, Memory.Outside.get
      (("codename_process", .str "FactExtractionProcess") :: ("user_id", .str q.userId) ::
        ("session_id", .str q.sessionId) :: rest)
      "session_id" .null = .str q.sessionId := fun _ => rfl
  rcases hread : checkpointFor o q with _ | _ | ⟨m, ms⟩ <;>
    simp [Memory.Outside.written, Memory.Outside.processMessage, Memory.Outside.processBody,
      Memory.Outside.tryBlock, hbody, payloadOf, huser, hsession, hcheckpoint, hread,
      Delivery.settle, settlementFor]

/-- **Where a write comes from:** the extractor has found its fact in the conversation. -/
theorem extracts_of_written {o : Memory.Outside} {w : String × Point V}
    (hw : w ∈ o.written store) :
    ∃ userId collection i item, o.Extracts userId collection i item ∧
      w = store.write (o.factCall userId collection i item) := by
  rcases o.processMessage_cases store with ⟨-, -, heq⟩ | ⟨-, -, heq⟩ |
    ⟨userId, target, messages, hinput, -, heq⟩
  · rw [Memory.Outside.written, heq] at hw
    exact absurd hw List.not_mem_nil
  · rw [Memory.Outside.written, heq] at hw
    exact absurd hw List.not_mem_nil
  · rw [Memory.Outside.written, heq] at hw
    dsimp only [Memory.Outside.processExtractionTask] at hw
    split at hw
    · rename_i collection
      split at hw
      · rename_i items hitems
        rcases (o.mem_addFacts store).1 hw with hnil | ⟨n, item, hitem, -, rfl⟩
        · exact absurd hnil List.not_mem_nil
        · rw [Nat.zero_add]
          exact ⟨userId, collection, n, item, ⟨messages, items, hinput, hitems, hitem⟩, rfl⟩
      · exact absurd hw List.not_mem_nil
    · exact absurd hw List.not_mem_nil

/-- The user and the domain a message of the queue is handled for. -/
theorem workerInput_payloadOf {o : Memory.Outside} {q : QueueMessage} {userId target : Json}
    {messages : List Message} (hbody : o.body = some (payloadOf q))
    (hinput : o.workerInput = some (userId, target, messages)) :
    userId = .str q.userId ∧ target = (q.targetRagDomain.map Json.str).getD .null := by
  unfold Memory.Outside.workerInput at hinput
  rw [hbody, payloadOf] at hinput
  dsimp only at hinput
  split at hinput
  · rw [Option.some.injEq, Prod.mk.injEq, Prod.mk.injEq] at hinput
    exact ⟨hinput.1.symm, hinput.2.1.symm⟩
  · cases hinput

/-- **What a delivery finds, it finds for the user and the domain of its message.** -/
theorem extracts_payloadOf {o : Memory.Outside} {q : QueueMessage} {userId : Json}
    {collection : String} {i : ℕ} {item : FactItem} (hbody : o.body = some (payloadOf q))
    (h : o.Extracts userId collection i item) :
    userId = .str q.userId ∧ q.targetRagDomain = some collection := by
  obtain ⟨messages, items, hinput, -, -⟩ := h
  obtain ⟨huser, htarget⟩ := workerInput_payloadOf hbody hinput
  refine ⟨huser, ?_⟩
  cases hdomain : q.targetRagDomain with
  | none =>
      rw [hdomain] at htarget
      cases htarget
  | some domain =>
      rw [hdomain] at htarget
      exact congrArg some (Json.str.inj htarget).symm

/-- **What a delivery writes, it writes for the user and the domain of its message.** -/
theorem write_of_written {o : Memory.Outside} {q : QueueMessage}
    (hbody : o.body = some (payloadOf q)) {w : String × Point V} (hw : w ∈ o.written store) :
    ∃ f : FactCall, w = store.write f ∧ f.userId = .str q.userId ∧
      q.targetRagDomain = some f.collectionName := by
  obtain ⟨userId, collection, i, item, hextracts, rfl⟩ := extracts_of_written hw
  obtain ⟨huser, hdomain⟩ := extracts_payloadOf hbody hextracts
  exact ⟨_, rfl, huser, hdomain⟩

/-! ### The tasks -/

/-- A way to handle each message: with no conversation to be found, nothing is done. -/
theorem exists_mayHandle (q : QueueMessage) : ∃ writes s, MayHandle store q writes s := by
  let o : Memory.Outside :=
    ⟨some (payloadOf q), fun _ _ => none, fun _ => none, fun _ => false, fun _ => 0, fun _ => 0⟩
  exact ⟨_, _, o, rfl, (processMessage_payloadOf (o := o) rfl).1⟩

/-- **What has become of a task that is settled:** the delivery that settled it has read its
checkpoint or not, has made all its writes, and each of these has reached the collections. -/
theorem settled_of_queue {q : ExtractionQueue V W}
    (h : WorkQueue.Reached (extractionRules C store) q) :
    q.published.Perm
        (q.ready ++ q.held.map (fun x => x.2.job) ++ q.settled.map Delivered.job) ∧
      (q.held.map Prod.fst).Nodup ∧
      ∀ x ∈ q.settled, ∃ o : Memory.Outside, o.body = some (payloadOf x.job) ∧
        x.verdict = settlementFor o x.job ∧ x.done = o.written store ∧
        (x.verdict = .reject false → x.done = []) ∧ ∀ w ∈ x.done, w ∈ q.effects := by
  have hs := h.sound
  refine ⟨hs.conserved, hs.one_each, fun x hx => ?_⟩
  have hmem : x ∈ q.deliveries := List.mem_append_right _ hx
  obtain ⟨o, hbody, ho⟩ := hs.tracked.planned x hmem
  obtain ⟨hprocess, hnone⟩ :
      o.processMessage store = (⟨[settlementFor o x.job], o.written store⟩, true) ∧
        (checkpointFor o x.job = none → o.written store = []) := processMessage_payloadOf hbody
  rw [hs.complete x hx, List.append_nil, hprocess, Prod.mk.injEq, Delivery.mk.injEq,
    List.cons.injEq] at ho
  obtain ⟨⟨⟨hverdict, -⟩, hdone⟩, -⟩ := ho
  refine ⟨o, hbody, hverdict.symm, hdone.symm, fun hreject => ?_, fun w hw => ?_⟩
  · rw [← hverdict, settlementFor] at hreject
    split at hreject
    · rename_i hread
      exact hdone ▸ hnone (Option.isNone_iff_eq_none.1 hread)
    · exact absurd hreject nofun
  · exact hs.tracked.accounted.mem_iff.2 (List.mem_flatMap.2 ⟨x, hmem, hw⟩)

/-- **The work comes to its end.**  With a worker, and without new tasks and losses, the
steps cannot go on forever; when none is left, every task has been settled as often as it
was published, and the writes are those of the deliveries that settled the tasks and of
those that were lost before. -/
theorem queue_drains [Nonempty W] {q : ExtractionQueue V W}
    (h : WorkQueue.Reached (extractionRules C store) q) :
    IsEmpty { run : ℕ → ExtractionQueue V W //
      run 0 = q ∧ ∀ n, WorkQueue.Work (extractionRules C store) (run n) (run (n + 1)) } ∧
    (∃ q', WorkQueue.Works (extractionRules C store) q q' ∧ q'.AtRest) ∧
    ∀ q', WorkQueue.Works (extractionRules C store) q q' →
      (∀ q'', ¬ WorkQueue.Work (extractionRules C store) q' q'') →
      q'.AtRest ∧ q.published.Perm (q'.settled.map Delivered.job) ∧
        q'.effects.Perm
          (q'.adrift.flatMap Delivered.done ++ q'.settled.flatMap Delivered.done) := by
  have hstuck {q' : ExtractionQueue V W}
      (hend : ∀ q'', ¬ WorkQueue.Work (extractionRules C store) q' q'') : q'.AtRest :=
    WorkQueue.atRest_of_stuck exists_mayHandle hend
  refine ⟨?_, ?_, fun q' hworks hend => ?_⟩
  · exact acc_iff_isEmpty_descending_chain.1
      ((WorkQueue.wellFounded_work (extractionRules C store)).apply q)
  · obtain ⟨q', hworks, hend⟩ := WorkQueue.exists_works_stuck (extractionRules C store) q
    exact ⟨q', hworks, hstuck hend⟩
  · obtain ⟨hsettled, -, heffects⟩ := (hworks.reached h).sound.atRest (hstuck hend)
    rw [hworks.published_eq] at hsettled
    exact ⟨hstuck hend, hsettled, heffects⟩

/-! ### The collections -/

/-- What is published is published for a user who is not anonymous. -/
theorem Published.not_isAnonymous {m : QueueMessage} (h : Published (V := V) C m) :
    isAnonymous m.userId = false := by
  obtain ⟨cache, x, e, hpublish⟩ := h
  obtain ⟨-, rfl⟩ := publish_mem_serve hpublish
  by_contra hanon
  exact absurd (anonymous_deeds cache x e (by simpa using hanon) _ hpublish) id

/-- **Whose facts are in the collections.**  A point that was not there before is of a user
who is not anonymous, in the collection that a call of theirs has published; and where
something has been written there is a point. -/
theorem memory_of_queue {q : ExtractionQueue V W}
    (h : WorkQueue.Reached (extractionRules C store) q) (initial : Collections V) :
    (∀ c, ∀ p ∈ (q.effects.foldl land initial c).getD [], p ∈ (initial c).getD [] ∨
      ∃ m ∈ q.published, Published (V := V) C m ∧ isAnonymous m.userId = false ∧
        p.payload.get "user_id" = some (.str m.userId) ∧ m.targetRagDomain = some c) ∧
    ∀ w ∈ q.effects, ∃ p ∈ (q.effects.foldl land initial w.1).getD [], p.id = w.2.id := by
  have hs := h.sound
  refine ⟨fun c p hp => ?_, fun w hw => ?_⟩
  · rcases mem_foldl_land.1 hp with hlast | ⟨hinitial, -⟩
    · -- The write is one of a delivery, and the delivery one of a message.
      obtain ⟨x, hx, hw⟩ := List.mem_flatMap.1 (hs.tracked.accounted.mem_iff.1 hlast.mem)
      have hm : x.job ∈ q.published := hs.tracked.delivered x hx
      obtain ⟨o, hbody, ho⟩ := hs.tracked.planned x hx
      have hwritten : (c, p) ∈ o.written store := by
        rw [Memory.Outside.written, ho]
        exact List.mem_append_left _ hw
      obtain ⟨f, hf, huser, hdomain⟩ := write_of_written hbody hwritten
      obtain ⟨rfl, rfl⟩ := Prod.mk.inj hf
      have hpublished : Published (V := V) C x.job := hs.admitted _ hm
      refine .inr ⟨x.job, hm, hpublished, hpublished.not_isAnonymous, ?_, hdomain⟩
      rw [← huser]
      rfl
    · exact .inl hinitial
  · obtain ⟨⟨c, p⟩, hlast, hplace⟩ : ∃ v, LastWrite place q.effects v ∧ place v = place w :=
      exists_lastWrite hw
    obtain ⟨rfl, hid⟩ := Prod.mk.inj hplace
    exact ⟨p, mem_foldl_land.2 (.inl hlast), hid⟩

/-! ### A task that is delivered twice -/

/-- A delivery of a task, in which one fact is found. -/
def teaDelivery (millis : ℕ) : Memory.Outside where
  body := some (payloadOf (publishedFor "research_papers"))
  checkpoint _ _ := some [.human "I only drink tea.", .ai "Noted." []]
  structuredLlm _ := some (some [⟨.userPreference, "Drinks tea.", [], 1 / 2⟩])
  storeTakes _ := true
  millis _ := millis
  seconds _ := millis / 1000

/-- The write of such a delivery. -/
def teaWrite (millis : ℕ) : String × Point Unit :=
  listedStore.write ((teaDelivery millis).factCall (.str "alice") "research_papers" 0
    ⟨.userPreference, "Drinks tea.", [], 1 / 2⟩)

/-- What comes of such a delivery. -/
theorem mayHandle_tea (millis : ℕ) :
    MayHandle listedStore (publishedFor "research_papers") [teaWrite millis] .ack := by
  have hwritten : (teaDelivery millis).written listedStore = [teaWrite millis] := by
    have hloop : (teaDelivery millis).written listedStore
        = (teaDelivery millis).addFacts listedStore (.str "alice") "research_papers" 0
          [⟨.userPreference, "Drinks tea.", [], 1 / 2⟩] [] := rfl
    rw [hloop, Memory.Outside.addFacts, Memory.Outside.addFact_factCall]
    rfl
  exact ⟨teaDelivery millis, rfl, hwritten ▸ (processMessage_payloadOf rfl).1⟩

/-- The fact is written by a worker that is lost before it has settled the task, which waits
again. -/
def deliveredOnce : ExtractionQueue Unit (Fin 1) where
  published := [publishedFor "research_papers"]
  ready := [publishedFor "research_papers"]
  held := []
  adrift := [⟨publishedFor "research_papers", [teaWrite 1767225600000], [], .ack⟩]
  settled := []
  effects := [teaWrite 1767225600000]

/-- The run that leads there. -/
theorem reached_deliveredOnce :
    WorkQueue.Reached (extractionRules Unit listedStore) deliveredOnce := by
  let Reaches (q : ExtractionQueue Unit (Fin 1)) : Prop :=
    WorkQueue.Reached (extractionRules Unit listedStore) q
  have hpublished : Published (V := Unit) Unit (publishedFor "research_papers") :=
    ⟨plainCache, tidesCall .streamChat "alice", encounterOf (endOfTurnTo "research_papers"),
      .tail _ (.head _)⟩
  let m := publishedFor "research_papers"
  let first := teaWrite 1767225600000
  have hready : Reaches ⟨[m], [m], [], [], [], []⟩ := .tail .refl (.publish hpublished)
  have htaken : Reaches ⟨[m], [], [(0, ⟨m, [], [first], .ack⟩)], [], [], []⟩ :=
    hready.tail (.work (.deliver rfl List.not_mem_nil (mayHandle_tea 1767225600000)))
  have hwritten : Reaches ⟨[m], [], [(0, ⟨m, [first], [], .ack⟩)], [], [], [first]⟩ :=
    htaken.tail (.work (.act [] [] [] rfl))
  exact hwritten.tail (.lose [] [] ⟨m, [first], [], Settlement.ack⟩ [] [] rfl rfl)

/-- The waiting task can still be settled. -/
theorem deliveredOnce_drains :
    ∃ q', WorkQueue.Works (extractionRules Unit listedStore) deliveredOnce q' ∧ q'.AtRest :=
  (queue_drains reached_deliveredOnce).2.1

/-- The fact is written again when the task has come back. -/
def deliveredTwice : ExtractionQueue Unit (Fin 1) where
  published := [publishedFor "research_papers"]
  ready := []
  held := []
  adrift := [⟨publishedFor "research_papers", [teaWrite 1767225600000], [], .ack⟩]
  settled := [⟨publishedFor "research_papers", [teaWrite 1767225660000], [], .ack⟩]
  effects := [teaWrite 1767225600000, teaWrite 1767225660000]

/-- The run goes on to that. -/
theorem reached_deliveredTwice :
    WorkQueue.Reached (extractionRules Unit listedStore) deliveredTwice := by
  let Reaches (q : ExtractionQueue Unit (Fin 1)) : Prop :=
    WorkQueue.Reached (extractionRules Unit listedStore) q
  let m := publishedFor "research_papers"
  let first := teaWrite 1767225600000
  let second := teaWrite 1767225660000
  have htaken : Reaches ⟨[m], [], [(0, ⟨m, [], [second], .ack⟩)], [⟨m, [first], [], .ack⟩], [],
      [first]⟩ :=
    reached_deliveredOnce.tail
      (.work (.deliver rfl List.not_mem_nil (mayHandle_tea 1767225660000)))
  have hwritten : Reaches ⟨[m], [], [(0, ⟨m, [second], [], .ack⟩)], [⟨m, [first], [], .ack⟩], [],
      [first, second]⟩ :=
    htaken.tail (.work (.act [] [] [] rfl))
  exact hwritten.tail (.work (.settle [] [] rfl))

/-- It has been settled once. -/
theorem deliveredTwice_settled :
    deliveredTwice.published.Perm (deliveredTwice.settled.map Delivered.job) :=
  (settled_of_queue reached_deliveredTwice).1

/-- Its fact is in the collection of the task. -/
theorem deliveredTwice_remembered :
    ∃ p ∈ (deliveredTwice.effects.foldl land (fun _ => none) "research_papers").getD [],
      p.id = (teaWrite 1767225660000).2.id :=
  (memory_of_queue reached_deliveredTwice fun _ => none).2 _ (.tail _ (.head _))

end Server
end CognitiveEngine
