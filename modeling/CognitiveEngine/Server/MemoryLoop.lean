/-
# From a conversation to a later prompt

What an agent is told of its user's memory has come a long way: a chat call publishes a
task, a worker takes it from the extraction queue, the extractor finds facts in the
conversation of the task, `add_fact` stores them, and a later call of
`HybridRetriever.retrieve` reads them.  A task may be delivered twice, its writes may be
under way while others land, and a point may be replaced by that of another task.

`recalled_of_queue` follows a context back through all of this: every fact in it was found
for a task of the same user and of the collection that is read.
-/

import CognitiveEngine.Memory.Recall
import CognitiveEngine.Server.ExtractionQueue

namespace CognitiveEngine
namespace Server

open CognitiveEngine.Graph Machine CognitiveEngine.Memory

variable {V W C : Type} {store : MemoryStore V}

/-- A delivery that is handled as `process_message` may handle its task has stored a fact:
the extractor found it for the user of the task, and its write is done. -/
def HasStored (store : MemoryStore V)
    (x : Delivered QueueMessage (String × Point V) Settlement) (collection : String)
    (item : FactItem) : Prop :=
  ∃ (o : Memory.Outside) (i : ℕ), o.body = some (payloadOf x.job) ∧
    o.processMessage store = (⟨[x.verdict], x.done ++ x.left⟩, true) ∧
    o.Extracts (.str x.job.userId) collection i item ∧
    store.write (o.factCall (.str x.job.userId) collection i item) ∈ x.done

/-- A fact that a task of a user has left in a collection. -/
def Remembered (C : Type) (store : MemoryStore V) (q : ExtractionQueue V W)
    (userId collection : String) (item : FactItem) : Prop :=
  ∃ x ∈ q.deliveries, x.job ∈ q.published ∧ Published (V := V) C x.job ∧
    x.job.userId = userId ∧ x.job.targetRagDomain = some collection ∧
    HasStored store x collection item

/-- Nothing is remembered of an anonymous user. -/
theorem Remembered.not_isAnonymous {q : ExtractionQueue V W} {userId collection : String}
    {item : FactItem} (h : Remembered C store q userId collection item) :
    isAnonymous userId = false := by
  obtain ⟨x, -, -, hpublished, rfl, -, -⟩ := h
  exact hpublished.not_isAnonymous

/-- **A point a user may read is one of theirs:** it holds the text of a fact that a task
of the user has left in the collection. -/
theorem remembered_of_mem {q : ExtractionQueue V W}
    (h : WorkQueue.Reached (extractionRules C store) q) {userId collection : String} {p : Point V}
    (hp : p ∈ (q.effects.foldl land (fun _ => none) collection).getD [])
    (huser : fieldCondition "user_id" userId p) :
    ∃ item, Remembered C store q userId collection item ∧
      p.text "document" = Memory.Outside.documentText item := by
  have hs := h.sound
  -- The point is the last write at its place, and so a write of some delivery.
  have hlast : LastWrite place q.effects (collection, p) := by
    rcases mem_foldl_land.1 hp with hlast | ⟨hnil, -⟩
    · exact hlast
    · exact absurd hnil List.not_mem_nil
  obtain ⟨x, hx, hdone⟩ := List.mem_flatMap.1 (hs.tracked.accounted.mem_iff.1 hlast.mem)
  obtain ⟨o, hbody, ho⟩ := hs.tracked.planned x hx
  have hwritten : (collection, p) ∈ o.written store := by
    rw [Memory.Outside.written, ho]
    exact List.mem_append_left _ hdone
  obtain ⟨owner, target, i, item, hextracts, hwrite⟩ := extracts_of_written hwritten
  obtain ⟨rfl, hdomain⟩ := extracts_payloadOf hbody hextracts
  -- The filter of the search lets only the user's own writes through.
  have hadd : store.addFact (o.factCall (.str x.job.userId) target i item)
      = some (collection, p) := by
    rw [o.addFact_factCall store, hwrite]
  obtain ⟨htarget, howner, htext⟩ :
      target = collection ∧ Json.str x.job.userId = .str userId ∧
        p.text "document" = Memory.Outside.documentText item := addFact_eq_some hadd huser
  subst htarget
  have hm : x.job ∈ q.published := hs.tracked.delivered x hx
  exact ⟨item, ⟨x, hx, hm, hs.admitted _ hm, Json.str.inj howner, hdomain, o, i, hbody, ho,
    hextracts, hwrite ▸ hdone⟩, htext⟩

/-- **What an agent is told comes from its user's own conversations.**  In every state of
the extraction queue, a context that is retrieved for a user from a collection lists facts
that the extractor has found for tasks of this user and this collection; an anonymous user
gets none. -/
theorem recalled_of_queue {q : ExtractionQueue V W}
    (h : WorkQueue.Reached (extractionRules C store) q) (r : HybridRetriever V)
    (userId query collection : String) (k : ℕ) :
    (∃ recalled : List FactItem,
      (∀ item ∈ recalled, Remembered C store q userId collection item) ∧
      r.retrieve (q.effects.foldl land fun _ => none) userId query collection k
        = knownContext r.upper collection (recalled.map Memory.Outside.documentText)) ∧
    (isAnonymous userId = true →
      r.retrieve (q.effects.foldl land fun _ => none) userId query collection k = "") := by
  obtain ⟨found, hfound, hretrieve⟩ :=
    exists_found r (q.effects.foldl land fun _ => none) userId query collection k
  have hitem : ∀ p ∈ found, ∃ item, Remembered C store q userId collection item ∧
      p.text "document" = Memory.Outside.documentText item :=
    fun p hp => remembered_of_mem h (hfound p hp).1 (hfound p hp).2
  constructor
  · choose item hitem using hitem
    refine ⟨found.pmap item fun _ hp => hp, ?_, ?_⟩
    · intro f hf
      obtain ⟨p, hp, rfl⟩ := List.mem_pmap.1 hf
      exact (hitem p hp).1
    · have htexts : (found.pmap item fun _ hp => hp).map Memory.Outside.documentText
          = found.map fun p => p.text "document" := by
        rw [List.map_pmap, ← List.pmap_eq_map fun _ hp => hp]
        exact List.pmap_congr_left _ fun p hp _ _ => (hitem p hp).2.symm
      rw [hretrieve, htexts]
  · intro hanon
    have hnone : found = [] := by
      refine List.eq_nil_iff_forall_not_mem.2 fun p hp => ?_
      obtain ⟨item, hremembered, -⟩ := hitem p hp
      rw [hremembered.not_isAnonymous] at hanon
      exact Bool.false_ne_true hanon
    rw [hretrieve, hnone]
    rfl

/-- What an agent is told of Alice's drinks, after her fact was written twice. -/
theorem teaDrinker_reminded :
    ∃ recalled : List FactItem,
      (∀ item ∈ recalled, Remembered Unit listedStore deliveredTwice "alice" "research_papers" item) ∧
      plainRetriever.retrieve (deliveredTwice.effects.foldl land fun _ => none) "alice"
          "What do I drink?" "research_papers" 3
        = knownContext String.toUpper "research_papers"
            (recalled.map Memory.Outside.documentText) :=
  (recalled_of_queue reached_deliveredTwice plainRetriever "alice" "What do I drink?"
    "research_papers" 3).1

end Server
end CognitiveEngine
