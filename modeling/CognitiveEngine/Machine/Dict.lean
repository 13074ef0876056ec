/-
# Dictionaries that keep the order of insertion

A dictionary lists its keys in the order in which they were first set, each once; the
structure carries that no key occurs twice.  `get?_set` and `keys_set` are all that a
user needs of `set`.  `FirstSeen` says that a list of keys is what such a dictionary
lists after some keys have been set one after the other, and `FirstSeen.set` is its
step.
-/

import CognitiveEngine.Machine.SortedKeys

namespace CognitiveEngine
namespace Machine

variable {κ β : Type*}

/-- A dictionary, by its items in the order of insertion. -/
structure Dict (κ β : Type*) where
  items : List (κ × β)
  nodup : (items.map Prod.fst).Nodup

namespace Dict

/-- The dictionary without items. -/
def empty : Dict κ β := ⟨[], List.nodup_nil⟩

/-- The keys, in the order of insertion. -/
def keys (d : Dict κ β) : List κ := d.items.map Prod.fst

@[simp] theorem keys_empty : (empty : Dict κ β).keys = [] := rfl

variable [DecidableEq κ]

/-- The value of a key. -/
def get? (d : Dict κ β) (k : κ) : Option β := d.items.lookup k

@[simp] theorem get?_empty (k : κ) : (empty : Dict κ β).get? k = none := rfl

/-- A value is replaced where it stands, or comes after all others. -/
def setItem (k : κ) (v : β) : List (κ × β) → List (κ × β)
  | [] => [(k, v)]
  | (k', v') :: l => if k' = k then (k, v) :: l else (k', v') :: setItem k v l

theorem map_fst_setItem (k : κ) (v : β) (l : List (κ × β)) :
    (setItem k v l).map Prod.fst
      = if k ∈ l.map Prod.fst then l.map Prod.fst else l.map Prod.fst ++ [k] := by
  induction l with
  | nil => rfl
  | cons p l ih =>
      obtain ⟨k', v'⟩ := p
      by_cases hk : k' = k
      · subst hk
        simp [setItem]
      · have hmem : k ∈ ((k', v') :: l).map Prod.fst ↔ k ∈ l.map Prod.fst := by
          simp [Ne.symm hk]
        rw [setItem, if_neg hk, List.map_cons, ih]
        by_cases h : k ∈ l.map Prod.fst
        · rw [if_pos h, if_pos (hmem.2 h), List.map_cons]
        · rw [if_neg h, if_neg fun h' => h (hmem.1 h'), List.map_cons, List.cons_append]

theorem lookup_setItem (k k' : κ) (v : β) (l : List (κ × β)) :
    (setItem k v l).lookup k' = if k' = k then some v else l.lookup k' := by
  induction l with
  | nil =>
      by_cases h : k' = k
      · simp [setItem, h]
      · simp [setItem, List.lookup_cons, h, beq_false_of_ne h]
  | cons p l ih =>
      obtain ⟨a, b⟩ := p
      by_cases hk : a = k
      · subst hk
        by_cases h : k' = a
        · simp [setItem, h]
        · simp [setItem, List.lookup_cons, h, beq_false_of_ne h]
      · rw [setItem, if_neg hk, List.lookup_cons, List.lookup_cons, ih]
        by_cases ha : k' = a
        · subst ha
          simp [hk]
        · simp [beq_false_of_ne ha]

theorem setItem_setItem (k : κ) (v w : β) (l : List (κ × β)) :
    setItem k w (setItem k v l) = setItem k w l := by
  induction l with
  | nil => simp [setItem]
  | cons p l ih => by_cases h : p.1 = k <;> simp [setItem, h, ih]

/-- `d[k] = v`. -/
def set (d : Dict κ β) (k : κ) (v : β) : Dict κ β where
  items := setItem k v d.items
  nodup := by
    rw [map_fst_setItem]
    split_ifs with h
    · exact d.nodup
    · exact List.nodup_append.2 ⟨d.nodup, List.nodup_singleton k, fun a ha b hb hab =>
        h (List.mem_singleton.1 hb ▸ hab ▸ ha)⟩

theorem keys_set (d : Dict κ β) (k : κ) (v : β) :
    (d.set k v).keys = if k ∈ d.keys then d.keys else d.keys ++ [k] :=
  map_fst_setItem k v d.items

theorem get?_set (d : Dict κ β) (k k' : κ) (v : β) :
    (d.set k v).get? k' = if k' = k then some v else d.get? k' :=
  lookup_setItem k k' v d.items

/-- Of two values set at one key the later one is left. -/
@[simp] theorem set_set (d : Dict κ β) (k : κ) (v w : β) : (d.set k v).set k w = d.set k w := by
  unfold set
  congr 1
  exact setItem_setItem k v w d.items

theorem mem_items_iff {d : Dict κ β} {k : κ} {v : β} : (k, v) ∈ d.items ↔ d.get? k = some v :=
  (lookup_eq_some_iff d.nodup).symm

theorem mem_keys_iff {d : Dict κ β} {k : κ} : k ∈ d.keys ↔ (d.get? k).isSome := by
  rw [keys, List.mem_map, Option.isSome_iff_exists]
  constructor
  · rintro ⟨⟨_, v⟩, hmem, rfl⟩
    exact ⟨v, mem_items_iff.1 hmem⟩
  · rintro ⟨v, hv⟩
    exact ⟨(k, v), mem_items_iff.2 hv, rfl⟩

end Dict

/-! ### The order in which keys are first seen -/

section FirstSeen

variable [DecidableEq κ]

/-- The keys are those that have been seen, in the order in which they were first seen. -/
structure FirstSeen (seen keys : List κ) : Prop where
  mem_iff : ∀ k, k ∈ keys ↔ k ∈ seen
  ordered : keys.Pairwise fun a b => seen.idxOf a < seen.idxOf b

theorem FirstSeen.nil : FirstSeen ([] : List κ) [] := ⟨fun _ => Iff.rfl, List.Pairwise.nil⟩

/-- **One more key is set.** -/
theorem FirstSeen.set {seen : List κ} {d : Dict κ β} (h : FirstSeen seen d.keys) (k : κ) (v : β) :
    FirstSeen (seen ++ [k]) (d.set k v).keys := by
  -- What has been seen before keeps its place.
  have hordered : d.keys.Pairwise fun a b => (seen ++ [k]).idxOf a < (seen ++ [k]).idxOf b := by
    refine h.ordered.imp_of_mem fun ha hb hab => ?_
    rwa [List.idxOf_append_of_mem ((h.mem_iff _).1 ha), List.idxOf_append_of_mem ((h.mem_iff _).1 hb)]
  rw [Dict.keys_set]
  by_cases hk : k ∈ d.keys
  · rw [if_pos hk]
    refine ⟨fun k' => ?_, hordered⟩
    rw [h.mem_iff, List.mem_append, List.mem_singleton]
    refine ⟨.inl, ?_⟩
    rintro (hseen | rfl)
    · exact hseen
    · exact (h.mem_iff _).1 hk
  · rw [if_neg hk]
    refine ⟨fun k' => by rw [List.mem_append, List.mem_append, h.mem_iff], ?_⟩
    refine List.pairwise_append.2 ⟨hordered, List.pairwise_singleton _ _, fun a ha b hb => ?_⟩
    have hseen : a ∈ seen := (h.mem_iff a).1 ha
    have hnew : k ∉ seen := fun hmem => hk ((h.mem_iff k).2 hmem)
    rw [List.mem_singleton.1 hb, List.idxOf_append_of_mem hseen, List.idxOf_append_of_notMem hnew]
    exact (List.idxOf_lt_length_of_mem hseen).trans_le (Nat.le_add_right _ _)

end FirstSeen

end Machine
end CognitiveEngine
