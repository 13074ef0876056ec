/-
# What is recalled of the facts

`HybridRetriever.retrieve` reads back what `MemoryService.add_fact` wrote.  A point may
be replaced by that of another user's fact, but whatever is in the store is the point
of some call (`HoldsOnly`), and it carries the user and the text of that very call:
the metadata has no entry that could stand in for either.  So a context is made of the
texts of facts the user added to the collection.

The clock has no part in this: `Landed` is what is left by calls whose upserts land in
any order, some of them not at all.
-/

import CognitiveEngine.Memory.FactStore

namespace CognitiveEngine
namespace Memory

open CognitiveEngine.Graph CognitiveEngine.Server CognitiveEngine.Machine

variable {V : Type} {store : MemoryStore V}

/-! ### What the store holds -/

/-- What some calls may leave in an empty store: upserts of theirs landed, in some
order; one that failed, or is still under way, did not. -/
def Landed (store : MemoryStore V) (fs : List FactCall) (collections : Collections V) : Prop :=
  ∃ ws : List (String × Point V), ws.Subperm (fs.filterMap store.addFact) ∧
    collections = ws.foldl land fun _ => none

/-- Every point is the one a call for its collection makes. -/
def HoldsOnly (store : MemoryStore V) (fs : List FactCall) (collections : Collections V) : Prop :=
  ∀ c, ∀ p ∈ (collections c).getD [], ∃ f ∈ fs, store.addFact f = some (c, p)

/-- An upsert of a call keeps this. -/
theorem HoldsOnly.land {fs : List FactCall} {collections : Collections V} {w : String × Point V}
    (h : HoldsOnly store fs collections) (hw : w ∈ fs.filterMap store.addFact) :
    HoldsOnly store fs (land collections w) := by
  intro c p hp
  rcases mem_land.1 hp with rfl | ⟨hp, -⟩
  · exact List.mem_filterMap.1 hw
  · exact h c p hp

/-- **Whatever landed, the store holds the points of the calls**, and nothing else. -/
theorem Landed.holdsOnly {fs : List FactCall} {collections : Collections V}
    (h : Landed store fs collections) : HoldsOnly store fs collections := by
  obtain ⟨ws, hws, rfl⟩ := h
  have hmem : ∀ w ∈ ws, w ∈ fs.filterMap store.addFact := fun w hw => hws.subset hw
  clear hws
  induction ws using List.reverseRecOn with
  | nil => exact fun c p hp => absurd hp List.not_mem_nil
  | append_singleton ws w ih =>
      rw [List.forall_mem_append, List.forall_mem_singleton] at hmem
      rw [List.foldl_append]
      exact (ih hmem.1).land hmem.2

/-- A run from an empty store, whatever is still under way. -/
theorem Run.landed {s : ServiceState V} {fs : List FactCall}
    (h : Run store (.idle fun _ => none) fs s) : Landed store fs s.collections := by
  obtain ⟨ws, hperm, hcol⟩ := h.exists_landed
  exact ⟨ws, (List.sublist_append_left ws s.pending).subperm.trans hperm.subperm, hcol⟩

/-- The point of a call is found by the id of its user only, and its document is the
text of the call. -/
theorem addFact_eq_some {f : FactCall} {c userId : String} {p : Point V}
    (h : store.addFact f = some (c, p)) (huser : fieldCondition "user_id" userId p) :
    f.collectionName = c ∧ f.userId = .str userId ∧ p.text "document" = f.factText := by
  unfold MemoryStore.addFact at h
  split at h
  · exact absurd h.symm (Option.some_ne_none _)
  · obtain ⟨rfl, rfl⟩ := Prod.mk.inj (Option.some.inj h)
    have hfield : (store.point f.factId f.factText f.metadata).payload.get "user_id"
        = some f.userId := rfl
    unfold fieldCondition at huser
    rw [hfield] at huser
    refine ⟨rfl, ?_, rfl⟩
    cases hf : f.userId with
    | str value =>
        rw [hf] at huser
        exact congrArg Json.str (eq_of_beq huser)
    | _ =>
        rw [hf] at huser
        exact absurd huser Bool.false_ne_true

/-! ### What is recalled -/

/-- The context of some facts' texts: the empty text when there are none. -/
def knownContext (upper : String → String) (collection : String) (texts : List String) : String :=
  if texts = [] then ""
  else "Known context extracted out of dedicated partition [" ++ upper collection ++ "]:\n- " ++
    String.intercalate "\n- " texts

/-- A context lists the documents of points that pass the filter. -/
theorem exists_found (r : HybridRetriever V) (collections : Collections V)
    (userId query collection : String) (k : ℕ) :
    ∃ found : List (Point V), (∀ p ∈ found, p ∈ (collections collection).getD [] ∧
        fieldCondition "user_id" userId p) ∧
      r.retrieve collections userId query collection k
        = knownContext r.upper collection (found.map fun p => p.text "document") := by
  unfold HybridRetriever.retrieve
  cases hsearch : r.hybridSearch collections userId query collection k with
  | none => exact ⟨[], List.forall_mem_nil _, rfl⟩
  | some found =>
      refine ⟨found, ?_, ?_⟩
      · unfold HybridRetriever.hybridSearch at hsearch
        cases hc : collections collection with
        | none =>
            rw [hc] at hsearch
            obtain rfl := Option.some.inj hsearch
            exact List.forall_mem_nil _
        | some points =>
            rw [hc] at hsearch
            exact r.vectorStore.queryPoints_mem _ _ _ _ _ _ hsearch
      · cases found with
        | nil => rfl
        | cons p ps => rfl

/-- **Retrieval is private and faithful.**  Whatever calls were made and however they
landed, a context is made of the texts of facts that were added for the user to the
collection. -/
theorem retrieve_eq_knownContext {fs : List FactCall} {collections : Collections V}
    (h : Landed store fs collections) (r : HybridRetriever V) (userId query collection : String)
    (k : ℕ) :
    ∃ facts : List FactCall,
      (∀ f ∈ facts, f ∈ fs ∧ f.userId = .str userId ∧ f.collectionName = collection) ∧
      r.retrieve collections userId query collection k
        = knownContext r.upper collection (facts.map FactCall.factText) := by
  obtain ⟨found, hfound, hretrieve⟩ := exists_found r collections userId query collection k
  have hcall : ∀ p ∈ found, ∃ f, (f ∈ fs ∧ f.userId = .str userId ∧ f.collectionName = collection) ∧
      p.text "document" = f.factText := by
    intro p hp
    obtain ⟨hstored, huser⟩ := hfound p hp
    obtain ⟨f, hf, hadd⟩ := h.holdsOnly collection p hstored
    obtain ⟨hcollection, huserId, htext⟩ := addFact_eq_some hadd huser
    exact ⟨f, ⟨hf, huserId, hcollection⟩, htext⟩
  choose call hcall using hcall
  refine ⟨found.pmap call fun _ hp => hp, ?_, ?_⟩
  · intro f hf
    obtain ⟨p, hp, rfl⟩ := List.mem_pmap.1 hf
    exact (hcall p hp).1
  · have htexts : (found.pmap call fun _ hp => hp).map FactCall.factText
        = found.map fun p => p.text "document" := by
      rw [List.map_pmap, ← List.pmap_eq_map fun _ hp => hp]
      exact List.pmap_congr_left _ fun p hp _ _ => (hcall p hp).2.symm
    rw [hretrieve, htexts]

/-- A retriever whose engine ranks all points alike. -/
def plainRetriever : HybridRetriever Unit where
  vectorStore := .exhaustive fun _ _ => 1
  embed _ := ()
  upper := String.toUpper

/-- What a user is reminded of when two have told their drinks. -/
theorem alice_reminded :
    ∃ facts : List FactCall,
      (∀ f ∈ facts, f ∈ toldApart ∧ f.userId = .str "alice" ∧
        f.collectionName = "general_memory") ∧
      plainRetriever.retrieve ((toldApart.filterMap listedStore.addFact).foldl land fun _ => none)
          "alice" "What do I drink?" "general_memory" 3
        = knownContext String.toUpper "general_memory" (facts.map FactCall.factText) := by
  have h : Landed listedStore toldApart
      ((toldApart.filterMap listedStore.addFact).foldl land fun _ => none) :=
    ⟨_, List.Subperm.refl _, rfl⟩
  exact retrieve_eq_knownContext h plainRetriever "alice" "What do I drink?" "general_memory" 3

end Memory
end CognitiveEngine
