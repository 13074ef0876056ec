/-
# Messages that are delivered again

A worker that stops before it has acknowledged its message gets it again, and stores the
facts from the first one on.  A point replaces another one with its id, but the id of a
fact is the millisecond in which it is stored, not the fact: what an earlier delivery
stored is replaced only where the last one stores something in the same millisecond.

`harmless_iff` says for which writes the earlier ones make no difference, and
`redeliveryHarmless_iff` when that is so of the deliveries of a message.  The extractor
answers each delivery alike.
-/

import CognitiveEngine.Memory.Worker

namespace CognitiveEngine
namespace Memory

open CognitiveEngine.Graph CognitiveEngine.Server CognitiveEngine.Machine

variable {V : Type}

/-! ### Contents up to timestamps -/

/-- The entries of a payload that are made of the time. -/
def timeKeys : List String := ["timestamp", "last_accessed", "original_id"]

/-- A point without its id and the entries of its payload that are made of the time. -/
def timeless (p : Point V) : V × Payload :=
  (p.dense, p.payload.filter (·.1 ∉ timeKeys))

/-- The same collections, with the same points up to timestamps. -/
def SameContents (collections collections' : Collections V) : Prop :=
  ∀ c, (collections c).isSome = (collections' c).isSome ∧
    (((collections c).getD []).map timeless).Perm (((collections' c).getD []).map timeless)

/-- What is written first makes no difference, whatever is stored before. -/
def Harmless (earlier last : List (String × Point V)) : Prop :=
  ∀ collections : Collections V,
    SameContents ((earlier ++ last).foldl land collections) (last.foldl land collections)

/-- The points that go to a collection, of some writes and then of others. -/
theorem inCollection_append (ws vs : List (String × Point V)) (c : String) :
    ((ws ++ vs).filter (·.1 = c)).map Prod.snd
      = (ws.filter (·.1 = c)).map Prod.snd ++ (vs.filter (·.1 = c)).map Prod.snd := by
  rw [List.filter_append, List.map_append]

/-- A place is written when a point with its id goes to its collection. -/
theorem exists_place_iff {ws : List (String × Point V)} {w : String × Point V} :
    (∃ v ∈ ws, place v = place w) ↔
      ∃ p ∈ (ws.filter (·.1 = w.1)).map Prod.snd, p.id = w.2.id := by
  simp only [List.mem_map, List.mem_filter, decide_eq_true_iff, place, Prod.mk.injEq]
  constructor
  · rintro ⟨v, hv, hc, hid⟩
    exact ⟨v.2, ⟨v, ⟨hv, hc⟩, rfl⟩, hid⟩
  · rintro ⟨_, ⟨v, ⟨hv, hc⟩, rfl⟩, hid⟩
    exact ⟨v, hv, hc, hid⟩

/-- **When earlier writes make no difference:** exactly when each goes to a place that is
written again. -/
theorem harmless_iff {earlier last : List (String × Point V)} :
    Harmless earlier last ↔ ∀ w ∈ earlier, ∃ v ∈ last, place v = place w := by
  constructor
  · intro h w hw
    -- On an empty store, a point that is not replaced is one too many.
    have hlength := (h (fun _ => none) w.1).2.length_eq
    rw [List.length_map, List.length_map, getD_foldl_land, getD_foldl_land, foldl_upsert,
      foldl_upsert, inCollection_append] at hlength
    simp only [Option.getD_none, List.filter_nil, List.nil_append] at hlength
    rw [lastWrites_append, List.length_append, Nat.add_eq_right, List.length_eq_zero_iff] at hlength
    rw [exists_place_iff]
    refine filter_lastWrites_eq_nil.1 hlength w.2 ?_
    exact List.mem_map.2 ⟨w, List.mem_filter.2 ⟨hw, by simp⟩, rfl⟩
  · intro h collections c
    have hids : ∀ p ∈ (earlier.filter (·.1 = c)).map Prod.snd,
        ∃ q ∈ (last.filter (·.1 = c)).map Prod.snd, q.id = p.id := by
      intro p hp
      obtain ⟨w, hw, rfl⟩ := List.mem_map.1 hp
      rw [List.mem_filter, decide_eq_true_iff] at hw
      obtain ⟨hw, rfl⟩ := hw
      exact exists_place_iff.1 (h w hw)
    refine ⟨?_, .of_eq ?_⟩
    · rw [Bool.eq_iff_iff, isSome_foldl_land, isSome_foldl_land]
      refine or_congr Iff.rfl ⟨?_, ?_⟩
      · rintro ⟨w, hw, hc⟩
        rcases List.mem_append.1 hw with hw | hw
        · obtain ⟨v, hv, hplace⟩ := h w hw
          exact ⟨v, hv, (Prod.mk.inj hplace).1.trans hc⟩
        · exact ⟨w, hw, hc⟩
      · rintro ⟨w, hw, hc⟩
        exact ⟨w, List.mem_append_right _ hw, hc⟩
    · rw [getD_foldl_land, getD_foldl_land, foldl_upsert, foldl_upsert, inCollection_append,
        lastWrites_append, filter_lastWrites_eq_nil.2 hids, List.nil_append]
      have hkept : ∀ p : Point V,
          (∀ q ∈ (earlier.filter (·.1 = c)).map Prod.snd ++ (last.filter (·.1 = c)).map Prod.snd,
            q.id ≠ p.id) ↔ ∀ q ∈ (last.filter (·.1 = c)).map Prod.snd, q.id ≠ p.id := by
        intro p
        rw [List.forall_mem_append, and_iff_right_iff_imp]
        intro hnone q hq hid
        obtain ⟨q', hq', hid'⟩ := hids q hq
        exact hnone q' hq' (hid'.trans hid)
      simp only [hkept]

/-! ### The deliveries of a message -/

/-- A delivery of a message to a worker: what it reads of the clock, and the positions
of the facts that the store takes. -/
structure Attempt where
  millis : ℕ → ℕ
  seconds : ℕ → ℕ
  storeTakes : ℕ → Bool

/-- A delivery whose worker stops after some of its writes. -/
structure Interrupted extends Attempt where
  stored : ℕ

namespace Outside

variable (o : Outside) (store : MemoryStore V)

/-- The same message, conversation and extractor at another delivery. -/
def attempt (a : Attempt) : Outside :=
  { o with millis := a.millis, seconds := a.seconds, storeTakes := a.storeTakes }

/-- The writes of a delivery. -/
def written : List (String × Point V) :=
  (o.processMessage store).1.writes

/-- **Redelivery is harmless:** the collections are the same after the interrupted
deliveries and a last one as after the last one alone, up to timestamps. -/
def RedeliveryHarmless (earlier : List Interrupted) (last : Attempt) : Prop :=
  Harmless (earlier.flatMap fun a => ((o.attempt a.toAttempt).written store).take a.stored)
    ((o.attempt last).written store)

/-- The positions of the extracted facts that the store takes. -/
def positions : List ℕ :=
  match o.workerInput with
  | some (_, .str _, messages) =>
      match o.extract messages with
      | some (some items) => (List.range items.length).filter o.storeTakes
      | _ => []
  | _ => []

/-- The collection that the message is for. -/
def destination : String :=
  match o.workerInput with
  | some (_, .str collection, _) => collection
  | _ => ""

/-- The loop writes a fact for each position that the store takes, in order. -/
theorem addFacts_eq (userId : Json) (collection : String) (i : ℕ) (items : List FactItem)
    (writes : List (String × Point V)) (default : FactItem) :
    o.addFacts store userId collection i items writes
      = writes ++ ((List.range' i items.length).filter o.storeTakes).map fun j =>
          store.write (o.factCall userId collection j (items.getD (j - i) default)) := by
  induction items generalizing i writes with
  | nil => simp [addFacts]
  | cons item items ih =>
      rw [addFacts, ih, addFact_factCall, List.length_cons, List.range'_succ]
      have hrest : ((List.range' (i + 1) items.length).filter o.storeTakes).map (fun j =>
            store.write (o.factCall userId collection j (items.getD (j - (i + 1)) default)))
          = ((List.range' (i + 1) items.length).filter o.storeTakes).map (fun j =>
            store.write (o.factCall userId collection j ((item :: items).getD (j - i) default))) := by
        refine List.map_congr_left fun j hj => ?_
        obtain ⟨n, hn⟩ := Nat.exists_eq_add_of_le (List.mem_range'_1.1 (List.mem_filter.1 hj).1).1
        rw [show j - (i + 1) = n by omega, show j - i = n + 1 by omega, List.getD_cons_succ]
      rw [hrest]
      by_cases hi : o.storeTakes i
      · simp [hi]
      · simp [hi]

/-- **What a delivery writes:** one fact for each of the positions, for the collection
of the message, in the millisecond that the clock shows. -/
theorem exists_written :
    ∃ fact : ℕ → FactCall,
      (∀ i, (fact i).collectionName = o.destination ∧ (fact i).millis = o.millis i) ∧
      o.written store = o.positions.map fun i => store.write (fact i) := by
  have hnone : ∃ fact : ℕ → FactCall,
      (∀ i, (fact i).collectionName = o.destination ∧ (fact i).millis = o.millis i) ∧
      [] = ([] : List ℕ).map fun i => store.write (fact i) :=
    ⟨fun i => ⟨.null, "", "", [], o.destination, 0, o.millis i, 0⟩, fun i => ⟨rfl, rfl⟩, rfl⟩
  rcases o.processMessage_cases store with ⟨-, hinput, heq⟩ | ⟨-, hinput, heq⟩ |
    ⟨userId, target, messages, hinput, -, heq⟩
  · simpa [written, positions, heq, hinput] using hnone
  · simpa [written, positions, heq, hinput] using hnone
  · by_cases hstr : ∃ collection, target = .str collection
    · obtain ⟨collection, rfl⟩ := hstr
      rcases hextract : o.extract messages with _ | _ | items
      · simpa [written, positions, heq, hinput, processExtractionTask, hextract] using hnone
      · simpa [written, positions, heq, hinput, processExtractionTask, hextract] using hnone
      · refine ⟨fun i => o.factCall userId collection i
          (items.getD i ⟨.userPreference, "", [], 0⟩), fun i => ⟨?_, rfl⟩, ?_⟩
        · simp [destination, hinput, factCall]
        · simp only [written, positions, heq, hinput, processExtractionTask, hextract,
            addFacts_eq _ _ _ _ _ _ _ ⟨.userPreference, "", [], 0⟩, List.nil_append,
            List.range_eq_range', Nat.sub_zero]
    · have hwrites : o.processExtractionTask store userId target messages = [] := by
        unfold processExtractionTask
        split
        · exact absurd ⟨_, rfl⟩ hstr
        · rfl
      have hpositions : o.positions = [] := by
        unfold positions
        rw [hinput]
        split
        · rename_i h
          simp only [Option.some.injEq, Prod.mk.injEq] at h
          exact absurd ⟨_, h.2.1⟩ hstr
        · rfl
      rw [written, heq, hpositions]
      dsimp only
      rw [hwrites]
      exact hnone

/-- **When redelivery is harmless:** exactly when each fact that an interrupted delivery
stored was stored in a millisecond in which the last delivery stores a fact. -/
theorem redeliveryHarmless_iff (huuid : Function.Injective store.uuid5)
    (earlier : List Interrupted) (last : Attempt) :
    o.RedeliveryHarmless store earlier last ↔
      ∀ a ∈ earlier, ∀ i ∈ (o.attempt a.toAttempt).positions.take a.stored,
        ∃ j ∈ (o.attempt last).positions, last.millis j = a.millis i := by
  obtain ⟨fact, hfact, hlast⟩ := (o.attempt last).exists_written store
  rw [RedeliveryHarmless, harmless_iff, List.forall_mem_flatMap]
  refine forall₂_congr fun a _ => ?_
  obtain ⟨fact', hfact', hwritten⟩ := (o.attempt a.toAttempt).exists_written store
  rw [hwritten, hlast, ← List.map_take, List.forall_mem_map]
  refine forall₂_congr fun i _ => ?_
  have hplace : ∀ j, place (store.write (fact j)) = place (store.write (fact' i)) ↔
      last.millis j = a.millis i := by
    intro j
    rw [place_write store huuid, (hfact j).1, (hfact' i).1, (hfact j).2, (hfact' i).2]
    exact and_iff_right rfl
  simp only [List.mem_map, exists_exists_and_eq_and, hplace]

end Outside

/-- A message for one conversation, in which one fact is found. -/
def teaMessage : Outside where
  body := some (.obj [("user_id", .str "alice"), ("session_id", .str "s1"),
    ("target_rag_domain", .str "general_memory")])
  checkpoint _ _ := some [.human "I only drink tea.", .ai "Noted." []]
  structuredLlm _ := some (some [⟨.userPreference, "Drinks tea.", [], 1 / 2⟩])
  storeTakes _ := true
  millis _ := 1767225600000
  seconds _ := 1767225600

/-- A delivery in a millisecond, with a store that takes every fact. -/
def attemptAt (millis : ℕ) : Attempt := ⟨fun _ => millis, fun _ => millis / 1000, fun _ => true⟩

/-- The message has one fact to store. -/
theorem positions_teaMessage (millis : ℕ) :
    (teaMessage.attempt (attemptAt millis)).positions = [0] := rfl

/-- A worker stops after it has stored the fact, and another one stores it again in the same
millisecond. -/
theorem same_millisecond_harmless :
    teaMessage.RedeliveryHarmless listedStore [⟨attemptAt 1767225600000, 1⟩]
      (attemptAt 1767225600000) := by
  refine (teaMessage.redeliveryHarmless_iff listedStore listedStore_injective _ _).2 ?_
  intro a ha i hi
  obtain rfl := List.mem_singleton.1 ha
  rw [positions_teaMessage]
  exact ⟨0, List.mem_singleton_self 0, rfl⟩

/-- The worker stops after it has stored the fact, and stores it again a minute later. -/
theorem fact_stored_twice :
    ¬ ∀ (o : Outside) (earlier : List Interrupted) (last : Attempt),
      o.RedeliveryHarmless listedStore earlier last := by
  intro h
  let first := teaMessage.attempt (attemptAt 1767225600000)
  let last := teaMessage.attempt (attemptAt 1767225660000)
  obtain ⟨fact, hfact, hfirst⟩ := first.exists_written listedStore
  obtain ⟨fact', hfact', hlast⟩ := last.exists_written listedStore
  have hwritten : listedStore.write (fact 0)
      ∈ [(⟨attemptAt 1767225600000, 1⟩ : Interrupted)].flatMap fun a =>
          ((teaMessage.attempt a.toAttempt).written listedStore).take a.stored := by
    rw [List.flatMap_singleton, hfirst]
    exact List.mem_cons_self
  -- The point of the first delivery is not replaced by any of the second.
  obtain ⟨v, hv, hplace⟩ := harmless_iff.1 (h teaMessage [⟨attemptAt 1767225600000, 1⟩]
    (attemptAt 1767225660000)) _ hwritten
  rw [hlast] at hv
  obtain ⟨j, -, rfl⟩ := List.mem_map.1 hv
  have hmillis := ((place_write listedStore listedStore_injective).1 hplace).2
  rw [(hfact' j).2, (hfact 0).2] at hmillis
  have hsame : 1767225660000 = 1767225600000 := hmillis
  exact absurd hsame (by decide)

end Memory
end CognitiveEngine
