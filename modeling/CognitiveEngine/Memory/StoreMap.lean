/-
# The vector store as a map

`add`, `delete` and `get` of `QdrantVectorStore`
(`app/infrastructure/qdrant/qdrant_vector_store.py`).  The engine knows its points by
UUIDs; the id that the caller uses is hidden in the payload, deleted by, and given back.

`Operation.update` is the map that these should be: an id has the record of its last
`add` until a `delete` names it.  A delete of no ids makes a filter without conditions,
which every point passes, and `get` reads one page of at most 10000 points.
`get_isMap_iff` says that a collection reads as the map exactly when neither matters.

Store calls succeed here, but for a delete from a collection that does not exist, which
changes nothing.
-/

import Mathlib.Data.Set.Card
import CognitiveEngine.Memory.Pruning

namespace CognitiveEngine
namespace Memory

open CognitiveEngine.Graph CognitiveEngine.Server CognitiveEngine.Machine

variable {V : Type}

/-! ### The store -/

/-- What is stored under an id.  The metadata are a dictionary, without the two keys that
`add` uses itself. -/
structure Record (V : Type) where
  embedding : V
  document : String
  metadata : Payload
  nodup : (metadata.map Prod.fst).Nodup
  unreserved : ∀ entry ∈ metadata, entry.1 ≠ "document" ∧ entry.1 ≠ "original_id"

/-- A call that changes a collection. -/
inductive StoreCall (V : Type) where
  | add (collectionName : String) (records : List (String × Record V))
  | delete (collectionName : String) (ids : List String)

/-- `Filter(should=conditions)`; without conditions every point passes. -/
def filterShould (conditions : List (Point V → Bool)) (p : Point V) : Bool :=
  conditions.isEmpty || conditions.any (· p)

/-- `Filter(must=conditions)`. -/
def filterMust (conditions : List (Point V → Bool)) (p : Point V) : Bool := conditions.all (· p)

namespace MemoryStore

variable (store : MemoryStore V)

/-- The point of an id and its record. -/
def pointOf (id : String) (r : Record V) : Point V :=
  { store.point id r.document r.metadata with dense := r.embedding }

/-- `QdrantVectorStore.add`; `_ensure_collection` creates the collection. -/
def add (collectionName : String) (records : List (String × Record V))
    (collections : Collections V) : Collections V :=
  if records.isEmpty then collections
  else
    let points := records.map fun r => store.pointOf r.1 r.2
    Function.update collections collectionName
      (some (points.foldl (fun stored p => upsert p stored) ((collections collectionName).getD [])))

/-- `QdrantVectorStore.delete`. -/
def delete (collectionName : String) (ids : List String) (collections : Collections V) :
    Collections V :=
  let conditions := ids.map (fieldCondition "original_id")
  Function.update collections collectionName
    ((collections collectionName).map fun points => points.filter (¬ filterShould conditions ·))

/-- A call that changes a collection. -/
def apply (collections : Collections V) : StoreCall V → Collections V
  | .add collectionName records => store.add collectionName records collections
  | .delete collectionName ids => delete collectionName ids collections

/-- Calls one after the other. -/
def applyAll (collections : Collections V) (calls : List (StoreCall V)) : Collections V :=
  calls.foldl store.apply collections

end MemoryStore

/-- What a search or a read gives back. -/
structure Results where
  ids : List (List Json)
  documents : List (List Json)
  metadatas : List (List Payload)

/-- `_format_results`. -/
def formatResults (points : List (Point V)) : Results :=
  if points.isEmpty then ⟨[[]], [[]], [[]]⟩
  else
    ⟨[points.map fun p => (p.payload.get "original_id").getD (.str p.id)],
      [points.map fun p => (p.payload.get "document").getD (.str "")],
      [points.map fun p => p.payload.filter fun kv => kv.1 ∉ ["document", "original_id"]]⟩

/-- The entries of a result, one for each point. -/
def Results.entries (r : Results) : List (Json × Json × Payload) :=
  r.ids.flatten.zip (r.documents.flatten.zip r.metadatas.flatten)

/-- `client.scroll`: a page has different points of the collection, and as many as there
are up to the limit. -/
structure PagedScroll (V : Type) extends Scroll V where
  page_subperm : ∀ points limit, (page points limit).Subperm points
  length_page : ∀ points limit, (page points limit).length = min limit points.length

/-- `QdrantVectorStore.get`. -/
def get (scroll : PagedScroll V) (collections : Collections V) (collectionName : String)
    (filters : List (String × String)) : Results :=
  match collections collectionName with
  | none => ⟨[[]], [[]], [[]]⟩
  | some points =>
      let conditions := filters.map fun kv => fieldCondition kv.1 kv.2
      formatResults (scroll.page (points.filter (filterMust conditions)) 10000)

/-! ### The map -/

/-- A collection as a map. -/
abbrev RecordMap (V : Type) : Type := String → Option (Record V)

/-- The records of a batch are put in one after the other. -/
def RecordMap.addAll (m : RecordMap V) (records : List (String × Record V)) : RecordMap V :=
  records.foldl (fun m r => Function.update m r.1 (some r.2)) m

/-- What a call does to the map of a collection. -/
def StoreCall.update (c : String) (m : RecordMap V) : StoreCall V → RecordMap V
  | .add collectionName records =>
      if collectionName = c then m.addAll records else m
  | .delete collectionName ids =>
      if collectionName = c then fun id => if id ∈ ids then none else m id else m

/-- The map of a collection after some calls. -/
def mapOf (c : String) (calls : List (StoreCall V)) : RecordMap V :=
  calls.foldl (StoreCall.update c) fun _ => none

/-- The entries are those of the map, one for each id. -/
structure IsMap (m : RecordMap V) (entries : List (Json × Json × Payload)) : Prop where
  nodup : (entries.map Prod.fst).Nodup
  mem : ∀ e, e ∈ entries ↔ ∃ id r, m id = some r ∧ e = (.str id, .str r.document, r.metadata)

/-- A call adds the id, or deletes it by name. -/
def StoreCall.Names (c id : String) : StoreCall V → Prop
  | .add collectionName records => collectionName = c ∧ id ∈ records.map Prod.fst
  | .delete collectionName ids => collectionName = c ∧ id ∈ ids

/-- A delete of no ids finds the id in the map, and no later call names it. -/
def LosesEntry (c : String) (calls : List (StoreCall V)) (id : String) : Prop :=
  ∃ before after, calls = before ++ .delete c [] :: after ∧ mapOf c before id ≠ none ∧
    ∀ call ∈ after, ¬call.Names c id

/-- The ids that a call adds. -/
def StoreCall.added : StoreCall V → List String
  | .add _ records => records.map Prod.fst
  | .delete _ _ => []

/-- The ids that are added. -/
def idsUsed (calls : List (StoreCall V)) : Set String := {id | ∃ call ∈ calls, id ∈ call.added}

/-! ### One point -/

section Points

variable {store : MemoryStore V} {id : String} {r : Record V}

/-- The original id is given back, whatever the engine knows the point by. -/
theorem get_originalId : (store.pointOf id r).payload.get "original_id" = some (.str id) := by
  simp [MemoryStore.pointOf, MemoryStore.point, Payload.get]

theorem get_document :
    (store.pointOf id r).payload.get "document" = some (.str r.document) := by
  have hnone : r.metadata.reverse.lookup "document" = none := by
    rw [List.lookup_eq_none_iff]
    intro entry hentry
    simpa using ((r.unreserved entry (List.mem_reverse.1 hentry)).1).symm
  simp [MemoryStore.pointOf, MemoryStore.point, Payload.get, List.lookup_cons, List.lookup_append,
    hnone]

/-- **The metadata come back as they were.** -/
theorem filter_payload :
    (store.pointOf id r).payload.filter (fun kv => kv.1 ∉ ["document", "original_id"])
      = r.metadata := by
  have hkept : r.metadata.filter (fun kv => kv.1 ∉ ["document", "original_id"]) = r.metadata := by
    rw [List.filter_eq_self]
    intro entry hentry
    simpa using r.unreserved entry hentry
  simpa [MemoryStore.pointOf, MemoryStore.point] using hkept

/-- The entry of a point. -/
def entryOf (p : Point V) : Json × Json × Payload :=
  ((p.payload.get "original_id").getD (.str p.id), (p.payload.get "document").getD (.str ""),
    p.payload.filter fun kv => kv.1 ∉ ["document", "original_id"])

@[simp] theorem entryOf_pointOf :
    entryOf (store.pointOf id r) = (.str id, .str r.document, r.metadata) := by
  rw [entryOf, get_originalId, get_document, filter_payload]
  rfl

theorem entries_formatResults (points : List (Point V)) :
    (formatResults points).entries = points.map entryOf := by
  cases points with
  | nil => rfl
  | cons p ps =>
      simp [formatResults, Results.entries, entryOf, List.zip_map']

end Points

/-! ### What the points of a collection stand for -/

/-- The points are those of a map, one for each of its ids. -/
structure Represents (store : MemoryStore V) (used : Set String) (points : List (Point V))
    (m : RecordMap V) : Prop where
  nodup : points.Nodup
  mem : ∀ p, p ∈ points ↔ ∃ id r, m id = some r ∧ p = store.pointOf id r
  used : ∀ id, m id ≠ none → id ∈ used

section Represents

variable {store : MemoryStore V} {used : Set String} {points : List (Point V)} {m : RecordMap V}

theorem Represents.empty : Represents store used [] fun _ => none where
  nodup := .nil
  mem _ := by simp
  used _ h := absurd rfl h

/-- Points that are told apart by their original ids. -/
theorem pointOf_eq_iff {id id' : String} {r r' : Record V} (h : m id = some r)
    (h' : m id' = some r') : store.pointOf id r = store.pointOf id' r' ↔ id = id' := by
  constructor
  · intro heq
    have hid : (store.pointOf id r).payload.get "original_id" = some (.str id) := get_originalId
    rw [heq, get_originalId] at hid
    simpa using hid.symm
  · rintro rfl
    rw [Option.some.inj (h.symm.trans h')]

/-- **An upsert** sets one id, as the engine takes no two ids for one. -/
theorem Represents.upsert (h : Represents store used points m)
    (hinj : Set.InjOn store.pointId used) {id : String} (hid : id ∈ used) (r : Record V) :
    Represents store used (upsert (store.pointOf id r) points)
      (Function.update m id (some r)) := by
  have hother : ∀ {id' : String} {r' : Record V}, m id' = some r' →
      ((store.pointOf id' r').id ≠ (store.pointOf id r).id ↔ id' ≠ id) := by
    intro id' r' hr'
    exact (hinj.eq_iff (h.used id' (by simp [hr'])) hid).not
  constructor
  · rw [Server.upsert, List.nodup_append]
    refine ⟨h.nodup.filter _, List.nodup_singleton _, ?_⟩
    rintro p hp _ hq rfl
    obtain rfl := List.mem_singleton.1 hq
    simpa using (List.mem_filter.1 hp).2
  · intro p
    rw [mem_upsert, h.mem]
    constructor
    · rintro (⟨⟨id', r', hr', rfl⟩, hne⟩ | rfl)
      · exact ⟨id', r', by rwa [Function.update_of_ne ((hother hr').1 hne)], rfl⟩
      · exact ⟨id, r, Function.update_self .., rfl⟩
    · rintro ⟨id', r', hr', rfl⟩
      by_cases hne : id' = id
      · subst hne
        rw [Function.update_self] at hr'
        rw [Option.some.inj hr']
        exact .inr rfl
      · rw [Function.update_of_ne hne] at hr'
        exact .inl ⟨⟨id', r', hr', rfl⟩, (hother hr').2 hne⟩
  · intro id' h'
    by_cases hne : id' = id
    · exact hne ▸ hid
    · rw [Function.update_of_ne hne] at h'
      exact h.used id' h'

/-- **A batch** sets its ids one after the other. -/
theorem Represents.add (h : Represents store used points m)
    (hinj : Set.InjOn store.pointId used) {records : List (String × Record V)}
    (hused : ∀ r ∈ records, r.1 ∈ used) :
    Represents store used
      ((records.map fun r => store.pointOf r.1 r.2).foldl (fun stored p => Server.upsert p stored)
        points)
      (RecordMap.addAll m records) := by
  induction records generalizing points m with
  | nil => exact h
  | cons r records ih =>
      rw [List.forall_mem_cons] at hused
      exact ih (h.upsert hinj hused.1 r.2) hused.2

/-- **A delete with conditions** removes the ids that it names. -/
theorem Represents.delete (h : Represents store used points m) {ids : List String}
    (hids : ids ≠ []) :
    Represents store used
      (points.filter (¬ filterShould (ids.map (fieldCondition "original_id")) ·))
      (fun id => if id ∈ ids then none else m id) := by
  have hpasses : ∀ id r, filterShould (ids.map (fieldCondition "original_id"))
      (store.pointOf id r) = true ↔ id ∈ ids := by
    intro id r
    simp [filterShould, fieldCondition, get_originalId, hids]
  constructor
  · exact h.nodup.filter _
  · intro p
    rw [List.mem_filter, h.mem]
    constructor
    · rintro ⟨⟨id, r, hr, rfl⟩, hnot⟩
      rw [decide_eq_true_iff, hpasses] at hnot
      exact ⟨id, r, by rw [if_neg hnot, hr], rfl⟩
    · rintro ⟨id, r, hr, rfl⟩
      have hnot : id ∉ ids := fun hmem => by simp [hmem] at hr
      rw [if_neg hnot] at hr
      refine ⟨⟨id, r, hr, rfl⟩, ?_⟩
      rwa [decide_eq_true_iff, hpasses]
  · intro id hid
    refine h.used id fun hnone => hid ?_
    rw [hnone, ite_self]

end Represents

/-! ### What the store keeps -/

/-- A delete of no ids. -/
def StoreCall.clears (c : String) : StoreCall V → Bool
  | .add _ _ => false
  | .delete collectionName ids => collectionName = c && ids.isEmpty

theorem clears_iff {c : String} {call : StoreCall V} :
    call.clears c ↔ call = .delete c [] := by
  cases call <;> simp [StoreCall.clears]

/-- What a call really does to the map: a delete of no ids empties it. -/
def StoreCall.keep (c : String) (m : RecordMap V) (call : StoreCall V) : RecordMap V :=
  if call.clears c then fun _ => none else call.update c m

/-- What is kept of a collection after some calls. -/
def keptOf (c : String) (calls : List (StoreCall V)) : RecordMap V :=
  calls.foldl (StoreCall.keep c) fun _ => none

section Kept

variable {store : MemoryStore V} {used : Set String} {c : String}

/-- The points of a collection; one that does not exist has none. -/
def pointsIn (c : String) (collections : Collections V) : List (Point V) :=
  (collections c).getD []

/-- `add` upserts the points of its batch, and leaves other collections alone. -/
theorem pointsIn_add (collectionName : String) (records : List (String × Record V))
    (collections : Collections V) :
    pointsIn c (store.add collectionName records collections)
      = if collectionName = c then
          (records.map fun r => store.pointOf r.1 r.2).foldl
            (fun stored p => Server.upsert p stored) (pointsIn c collections)
        else pointsIn c collections := by
  rw [MemoryStore.add]
  by_cases hc : collectionName = c
  · subst hc
    rw [if_pos rfl]
    by_cases hempty : records.isEmpty
    · rw [if_pos hempty, List.isEmpty_iff.1 hempty]
      rfl
    · rw [if_neg hempty, pointsIn, Function.update_self]
      rfl
  · rw [if_neg hc]
    split
    · rfl
    · rw [pointsIn, Function.update_of_ne (Ne.symm hc), pointsIn]

/-- `delete` removes the points that pass its filter, and leaves other collections alone. -/
theorem pointsIn_delete (collectionName : String) (ids : List String)
    (collections : Collections V) :
    pointsIn c (MemoryStore.delete collectionName ids collections)
      = if collectionName = c then
          (pointsIn c collections).filter
            (¬ filterShould (ids.map (fieldCondition "original_id")) ·)
        else pointsIn c collections := by
  rw [MemoryStore.delete]
  by_cases hc : collectionName = c
  · subst hc
    rw [if_pos rfl, pointsIn, pointsIn, Function.update_self]
    cases collections collectionName <;> rfl
  · rw [if_neg hc, pointsIn, Function.update_of_ne (Ne.symm hc), pointsIn]

/-- **One call of the store** does to the points what it really does to the map. -/
theorem Represents.apply {collections : Collections V} {m : RecordMap V}
    (h : Represents store used (pointsIn c collections) m) (hinj : Set.InjOn store.pointId used)
    {call : StoreCall V} (hused : ∀ id ∈ call.added, id ∈ used) :
    Represents store used (pointsIn c (store.apply collections call)) (call.keep c m) := by
  cases call with
  | add collectionName records =>
      rw [MemoryStore.apply, pointsIn_add, StoreCall.keep, StoreCall.clears,
        if_neg Bool.false_ne_true, StoreCall.update]
      split
      · exact h.add hinj fun r hr => hused r.1 (List.mem_map_of_mem hr)
      · exact h
  | delete collectionName ids =>
      rw [MemoryStore.apply, pointsIn_delete, StoreCall.keep, StoreCall.clears, StoreCall.update]
      by_cases hc : collectionName = c
      · cases ids with
        | nil => simpa [hc, filterShould] using Represents.empty
        | cons id ids => simpa [hc] using h.delete (List.cons_ne_nil id ids)
      · simpa [hc] using h

/-- **The store refines what is kept.** -/
theorem Represents.applyAll {collections : Collections V} {m : RecordMap V}
    (h : Represents store used (pointsIn c collections) m) (hinj : Set.InjOn store.pointId used)
    {calls : List (StoreCall V)} (hused : idsUsed calls ⊆ used) :
    Represents store used (pointsIn c (store.applyAll collections calls))
      (calls.foldl (StoreCall.keep c) m) := by
  induction calls generalizing collections m with
  | nil => exact h
  | cons call calls ih =>
      have hcall : ∀ id ∈ call.added, id ∈ used := fun id hid =>
        hused ⟨call, List.mem_cons_self, hid⟩
      have hcalls : idsUsed calls ⊆ used := fun id ⟨call', hmem, hid⟩ =>
        hused ⟨call', List.mem_cons_of_mem _ hmem, hid⟩
      exact ih (h.apply hinj hcall) hcalls

theorem mapOf_concat (calls : List (StoreCall V)) (call : StoreCall V) :
    mapOf c (calls ++ [call]) = call.update c (mapOf c calls) := by
  rw [mapOf, mapOf, List.foldl_concat]

theorem keptOf_concat (calls : List (StoreCall V)) (call : StoreCall V) :
    keptOf c (calls ++ [call]) = call.keep c (keptOf c calls) := by
  rw [keptOf, keptOf, List.foldl_concat]

theorem addAll_cons (m : RecordMap V) (r : String × Record V) (records : List (String × Record V)) :
    m.addAll (r :: records) = RecordMap.addAll (Function.update m r.1 (some r.2)) records :=
  rfl

/-- What a batch leaves at an id depends on what was there only when it is not in the
batch. -/
theorem addAll_congr {m m' : RecordMap V} {id : String} (records : List (String × Record V))
    (h : id ∉ records.map Prod.fst → m id = m' id) : m.addAll records id = m'.addAll records id := by
  induction records generalizing m m' with
  | nil => exact h List.not_mem_nil
  | cons r records ih =>
      rw [addAll_cons, addAll_cons]
      refine ih fun hid => ?_
      by_cases hr : id = r.1
      · rw [hr, Function.update_self, Function.update_self]
      · rw [Function.update_of_ne hr, Function.update_of_ne hr]
        exact h (by simp [hr, hid])

theorem addAll_of_notMem {m : RecordMap V} {id : String} {records : List (String × Record V)}
    (h : id ∉ records.map Prod.fst) : m.addAll records id = m id := by
  induction records generalizing m with
  | nil => rfl
  | cons r records ih =>
      rw [List.map_cons, List.mem_cons, not_or] at h
      rw [addAll_cons, ih h.2, Function.update_of_ne h.1]

/-- A call that does not name an id leaves it as it is. -/
theorem update_of_not_names {call : StoreCall V} {id : String} (h : ¬call.Names c id)
    (m : RecordMap V) : call.update c m id = m id := by
  cases call with
  | add collectionName records =>
      rw [StoreCall.update]
      split
      · exact addAll_of_notMem fun hid => h ⟨‹_›, hid⟩
      · rfl
  | delete collectionName ids =>
      rw [StoreCall.update]
      split
      · exact if_neg fun hid => h ⟨‹_›, hid⟩
      · rfl

/-- A call that names an id sets it, or removes it, whatever it was. -/
theorem update_of_names {call : StoreCall V} {id : String} (h : call.Names c id)
    (m m' : RecordMap V) : call.update c m id = call.update c m' id := by
  cases call with
  | add collectionName records =>
      rw [StoreCall.update, StoreCall.update, if_pos h.1, if_pos h.1]
      exact addAll_congr records fun hid => absurd h.2 hid
  | delete collectionName ids =>
      rw [StoreCall.update, StoreCall.update, if_pos h.1, if_pos h.1, if_pos h.2, if_pos h.2]

/-- An entry is lost in the last call or was lost before, and is not named since. -/
theorem losesEntry_concat {calls : List (StoreCall V)} {call : StoreCall V} {id : String} :
    LosesEntry c (calls ++ [call]) id ↔ ¬call.Names c id ∧
      (LosesEntry c calls id ∨ (call = .delete c [] ∧ mapOf c calls id ≠ none)) := by
  constructor
  · rintro ⟨before, after, heq, hmap, hafter⟩
    rcases List.eq_nil_or_concat after with rfl | ⟨after, last, rfl⟩
    · obtain ⟨rfl, hcall⟩ := List.append_inj' heq rfl
      obtain rfl := List.singleton_inj.1 hcall
      exact ⟨fun h => absurd h.2 List.not_mem_nil, .inr ⟨rfl, hmap⟩⟩
    · rw [List.concat_eq_append, ← List.cons_append, ← List.append_assoc] at heq
      obtain ⟨rfl, hcall⟩ := List.append_inj' heq rfl
      obtain rfl := List.singleton_inj.1 hcall
      rw [List.concat_eq_append] at hafter
      exact ⟨hafter call (by simp), .inl ⟨before, after, rfl, hmap,
        fun x hx => hafter x (List.mem_append_left _ hx)⟩⟩
  · rintro ⟨hnot, ⟨before, after, rfl, hmap, hafter⟩ | ⟨rfl, hmap⟩⟩
    · refine ⟨before, after ++ [call], by simp, hmap, fun x hx => ?_⟩
      rcases List.mem_append.1 hx with hx | hx
      · exact hafter x hx
      · exact List.mem_singleton.1 hx ▸ hnot
    · exact ⟨calls, [], rfl, hmap, by simp⟩

/-- What is lost is still in the map. -/
theorem LosesEntry.mapOf_ne_none {calls : List (StoreCall V)} {id : String}
    (h : LosesEntry c calls id) : mapOf c calls id ≠ none := by
  induction calls using List.reverseRecOn with
  | nil =>
      obtain ⟨before, after, heq, -⟩ := h
      simp at heq
  | append_singleton calls call ih =>
      obtain ⟨hnot, h⟩ := losesEntry_concat.1 h
      rw [mapOf_concat, update_of_not_names hnot]
      rcases h with h | ⟨-, hmap⟩
      · exact ih h
      · exact hmap

/-- **What is kept** is the map without the entries that were lost. -/
theorem keptOf_spec (calls : List (StoreCall V)) (id : String) :
    (LosesEntry c calls id → keptOf c calls id = none) ∧
      (¬LosesEntry c calls id → keptOf c calls id = mapOf c calls id) := by
  induction calls using List.reverseRecOn with
  | nil => exact ⟨fun _ => rfl, fun _ => rfl⟩
  | append_singleton calls call ih =>
      rw [losesEntry_concat, keptOf_concat, mapOf_concat, StoreCall.keep]
      by_cases hnames : call.Names c id
      · have hclears : ¬call.clears c := by
          rw [clears_iff]
          rintro rfl
          exact absurd hnames.2 List.not_mem_nil
        rw [if_neg hclears]
        exact ⟨fun h => absurd hnames h.1, fun _ => update_of_names hnames _ _⟩
      · rw [update_of_not_names hnames]
        by_cases hclears : call.clears c
        · rw [if_pos hclears]
          refine ⟨fun _ => rfl, fun h => ?_⟩
          by_contra hne
          exact h ⟨hnames, .inr ⟨clears_iff.1 hclears, Ne.symm hne⟩⟩
        · rw [if_neg hclears, update_of_not_names hnames]
          rw [clears_iff] at hclears
          exact ⟨fun h => ih.1 (h.2.resolve_right fun h => hclears h.1),
            fun h => ih.2 fun hloses => h ⟨hnames, .inl hloses⟩⟩

end Kept

/-! ### What is read -/

section Read

variable {store : MemoryStore V} {used : Set String} {points : List (Point V)} {m : RecordMap V}

/-- A map has as many ids as it has points. -/
theorem Represents.encard_eq (h : Represents store used points m) :
    {id | m id ≠ none}.encard = points.length := by
  classical
  have hid : ∀ p ∈ points, ∀ q ∈ points, p.text "original_id" = q.text "original_id" → p = q := by
    intro p hp q hq heq
    obtain ⟨id, r, hr, rfl⟩ := (h.mem p).1 hp
    obtain ⟨id', r', hr', rfl⟩ := (h.mem q).1 hq
    rw [pointOf_eq_iff hr hr']
    simpa [Point.text, get_originalId] using heq
  have hset : {id | m id ≠ none} = (points.map (Point.text · "original_id")).toFinset := by
    ext id
    simp only [Set.mem_ofPred_eq, List.coe_toFinset, List.mem_map]
    constructor
    · intro hne
      obtain ⟨r, hr⟩ := Option.ne_none_iff_exists'.1 hne
      exact ⟨store.pointOf id r, (h.mem _).2 ⟨id, r, hr, rfl⟩, by simp [Point.text, get_originalId]⟩
    · rintro ⟨p, hp, rfl⟩
      obtain ⟨id, r, hr, rfl⟩ := (h.mem p).1 hp
      simp [Point.text, get_originalId, hr]
  rw [hset, Set.encard_coe_eq_coe_finsetCard, List.toFinset_card_of_nodup (h.nodup.map_on hid),
    List.length_map]

/-- **All points of a collection** read as its map. -/
theorem Represents.isMap (h : Represents store used points m) {page : List (Point V)}
    (hpage : page.Perm points) : IsMap m (page.map entryOf) := by
  constructor
  · rw [List.map_map]
    refine (hpage.nodup_iff.2 h.nodup).map_on fun p hp q hq heq => ?_
    obtain ⟨id, r, hr, rfl⟩ := (h.mem p).1 (hpage.subset hp)
    obtain ⟨id', r', hr', rfl⟩ := (h.mem q).1 (hpage.subset hq)
    rw [pointOf_eq_iff hr hr']
    simpa using heq
  · intro e
    rw [List.mem_map]
    constructor
    · rintro ⟨p, hp, rfl⟩
      obtain ⟨id, r, hr, rfl⟩ := (h.mem p).1 (hpage.subset hp)
      exact ⟨id, r, hr, entryOf_pointOf⟩
    · rintro ⟨id, r, hr, rfl⟩
      exact ⟨store.pointOf id r, hpage.symm.subset ((h.mem _).2 ⟨id, r, hr, rfl⟩), entryOf_pointOf⟩

/-- **An id that is read** is kept, with the point that was read. -/
theorem Represents.exists_of_isMap (h : Represents store used points m) {m' : RecordMap V}
    {page : List (Point V)} (hpage : page ⊆ points) (hmap : IsMap m' (page.map entryOf))
    {id : String} (hid : m' id ≠ none) : ∃ r, m id = some r ∧ store.pointOf id r ∈ page := by
  obtain ⟨r, hr⟩ := Option.ne_none_iff_exists'.1 hid
  obtain ⟨p, hp, hentry⟩ := List.mem_map.1 ((hmap.mem _).2 ⟨id, r, hr, rfl⟩)
  obtain ⟨id', r', hr', rfl⟩ := (h.mem p).1 (hpage hp)
  rw [entryOf_pointOf] at hentry
  obtain rfl : id' = id := by simpa using congrArg Prod.fst hentry
  exact ⟨r', hr', hp⟩

theorem entries_get (scroll : PagedScroll V) (collections : Collections V) (c : String) :
    (get scroll collections c []).entries
      = (scroll.page (pointsIn c collections) 10000).map entryOf := by
  rw [get, pointsIn]
  cases collections c with
  | none =>
      have hpage : scroll.page [] 10000 = [] :=
        List.eq_nil_of_subset_nil (scroll.page_subset [] 10000)
      rw [Option.getD_none, hpage]
      rfl
  | some points =>
      have hall : points.filter (filterMust []) = points := List.filter_eq_self.2 fun _ _ => rfl
      dsimp only
      rw [List.map_nil, hall, entries_formatResults, Option.getD_some]

end Read

/-- **A collection reads as its map** exactly when no delete of no ids has lost an entry,
and there are no more ids than a page holds. -/
theorem get_isMap_iff (store : MemoryStore V) (scroll : PagedScroll V)
    (calls : List (StoreCall V)) (hinj : Set.InjOn store.pointId (idsUsed calls)) (c : String) :
    IsMap (mapOf c calls) (get scroll (store.applyAll (fun _ => none) calls) c []).entries ↔
      (∀ id, ¬LosesEntry c calls id) ∧ {id | mapOf c calls id ≠ none}.encard ≤ 10000 := by
  have hkept : Represents store (idsUsed calls)
      (pointsIn c (store.applyAll (fun _ => none) calls)) (keptOf c calls) :=
    Represents.applyAll .empty hinj subset_rfl
  have hlength := scroll.length_page (pointsIn c (store.applyAll (fun _ => none) calls)) 10000
  have hequal (h : ∀ id, ¬LosesEntry c calls id) : keptOf c calls = mapOf c calls :=
    funext fun id => (keptOf_spec calls id).2 (h id)
  rw [entries_get]
  constructor
  · intro hmap
    have hread : ∀ id, mapOf c calls id ≠ none → ∃ r, keptOf c calls id = some r ∧
        store.pointOf id r ∈ scroll.page _ 10000 := fun id hid =>
      hkept.exists_of_isMap (scroll.page_subset _ _) hmap hid
    have hloses : ∀ id, ¬LosesEntry c calls id := by
      intro id h
      obtain ⟨r, hr, -⟩ := hread id h.mapOf_ne_none
      simp [(keptOf_spec calls id).1 h] at hr
    refine ⟨hloses, ?_⟩
    have hsubset : pointsIn c (store.applyAll (fun _ => none) calls)
        ⊆ scroll.page (pointsIn c (store.applyAll (fun _ => none) calls)) 10000 := by
      intro p hp
      obtain ⟨id, r, hr, rfl⟩ := (hkept.mem p).1 hp
      obtain ⟨r', hr', hmem⟩ := hread id (by simp [← hequal hloses, hr])
      rwa [Option.some.inj (hr.symm.trans hr')]
    have hle := (hkept.nodup.subperm hsubset).length_le
    rw [← hequal hloses, hkept.encard_eq]
    exact_mod_cast hle.trans (hlength ▸ min_le_left _ _)
  · rintro ⟨hloses, hcard⟩
    rw [← hequal hloses, hkept.encard_eq] at hcard
    rw [← hequal hloses]
    have hle : (pointsIn c (store.applyAll (fun _ => none) calls)).length ≤ 10000 := by
      exact_mod_cast hcard
    refine hkept.isMap ((scroll.page_subperm _ _).perm_of_length_le ?_)
    rw [hlength, min_eq_right hle]

/-! ### A note that is rewritten, and a delete of nothing -/

/-- Pages in the order of insertion. -/
def insertionPages : PagedScroll Unit where
  toScroll := insertionScroll
  page_subperm points limit := (List.take_sublist limit points).subperm
  length_page _ _ := List.length_take

/-- A note of a user. -/
def note (document : String) : Record Unit :=
  ⟨(), document, [("user_id", .str "alice")], by decide, by decide⟩

/-- Two notes are added; one is deleted and the other one rewritten. -/
def rewritten : List (StoreCall Unit) :=
  [.add "general_memory" [("n1", note "tea"), ("n2", note "coffee")],
    .delete "general_memory" ["n1"], .add "general_memory" [("n2", note "milk")]]

/-- A note is added, and nothing is deleted. -/
def nothingDeleted : List (StoreCall Unit) :=
  [.add "general_memory" [("n1", note "tea")], .delete "general_memory" []]

/-- Ids that are too short for a UUID are told apart. -/
theorem injOn_pointId {calls : List (StoreCall Unit)}
    (h : ∀ call ∈ calls, ∀ id ∈ call.added, id.length ≠ 36) :
    Set.InjOn listedStore.pointId (idsUsed calls) := by
  rintro id ⟨call, hcall, hid⟩ id' ⟨call', hcall', hid'⟩ heq
  rw [MemoryStore.pointId, MemoryStore.pointId, if_neg fun hall => h call hcall id hid hall.2.2,
    if_neg fun hall => h call' hcall' id' hid' hall.2.2] at heq
  exact listedStore_injective heq

/-- **The notes read as the map**, which has one of them. -/
theorem rewritten_isMap :
    IsMap (mapOf "general_memory" rewritten)
      (get insertionPages (listedStore.applyAll (fun _ => none) rewritten) "general_memory"
        []).entries := by
  have hsubset : {id | mapOf "general_memory" rewritten id ≠ none} ⊆ {"n2"} := by
    intro id hid
    by_contra hne
    rw [Set.mem_singleton_iff] at hne
    refine hid ?_
    by_cases hid : id = "n1"
    · subst hid
      rfl
    · simp [mapOf, rewritten, StoreCall.update, RecordMap.addAll, Function.update_of_ne, hne, hid]
  refine (get_isMap_iff listedStore insertionPages rewritten (injOn_pointId (by decide)) _).2
    ⟨?_, ?_⟩
  · rintro id ⟨before, after, heq, -⟩
    have hmem : StoreCall.delete "general_memory" [] ∈ rewritten := by
      rw [heq]
      simp
    simp [rewritten] at hmem
  · refine (Set.encard_le_encard hsubset).trans ?_
    simp

/-- **A delete of nothing** takes the note away. -/
theorem nothingDeleted_not_isMap :
    ¬∀ (store : MemoryStore Unit) (scroll : PagedScroll Unit) (calls : List (StoreCall Unit)),
      Set.InjOn store.pointId (idsUsed calls) → ∀ c,
        IsMap (mapOf c calls) (get scroll (store.applyAll (fun _ => none) calls) c []).entries := by
  intro h
  have hmap := h listedStore insertionPages nothingDeleted (injOn_pointId (by decide))
    "general_memory"
  have hread : (get insertionPages (listedStore.applyAll (fun _ => none) nothingDeleted)
      "general_memory" []).entries = [] := rfl
  have hmem := (hmap.mem (.str "n1", .str "tea", (note "tea").metadata)).2
    ⟨"n1", note "tea", rfl, rfl⟩
  rw [hread] at hmem
  exact absurd hmem List.not_mem_nil

end Memory
end CognitiveEngine
