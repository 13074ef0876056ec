/-
# Texts put together from pieces

Two texts are put together from the same items, one taking from every item a part
of what the other takes.  `flatMap_eq_iff` and `join_map_eq_iff` say that they are
the same text only when they take the same from every item: nothing that one leaves
out can be made up for elsewhere.
-/

import Mathlib.Data.List.Basic
import Mathlib.Data.List.Flatten

namespace CognitiveEngine
namespace Machine

variable {α β : Type*}

/-- **The parts make up the whole only if they are the pieces.** -/
theorem flatMap_eq_iff {f g : α → List β} {l : List α} (h : ∀ a ∈ l, (g a).Sublist (f a)) :
    l.flatMap g = l.flatMap f ↔ ∀ a ∈ l, g a = f a := by
  constructor
  · intro heq
    induction l with
    | nil => exact fun a ha => absurd ha List.not_mem_nil
    | cons a l ih =>
        rw [List.forall_mem_cons] at h ⊢
        have hrest := (List.Sublist.flatMap_right l h.2).length_le
        have hlength := congrArg List.length heq
        rw [List.flatMap_cons, List.flatMap_cons, List.length_append, List.length_append]
          at hlength
        have hhead : g a = f a := h.1.eq_of_length (by have := h.1.length_le; omega)
        rw [List.flatMap_cons, List.flatMap_cons, hhead] at heq
        exact ⟨hhead, ih h.2 (List.append_cancel_left heq)⟩
  · exact List.flatMap_congr

/-- The same of joined texts, when every piece is taken whole or not at all. -/
theorem join_map_eq_iff {f g : α → String} {l : List α} (h : ∀ a ∈ l, g a = "" ∨ g a = f a) :
    String.join (l.map g) = String.join (l.map f) ↔ ∀ a ∈ l, g a = f a := by
  rw [← String.toList_inj, String.toList_join, String.toList_join, List.flatMap_map,
    List.flatMap_map, flatMap_eq_iff]
  · simp only [String.toList_inj]
  · intro a ha
    rcases h a ha with h | h
    · rw [h]
      exact List.nil_sublist _
    · rw [h]

/-- A joined text is empty when all its pieces are. -/
theorem join_map_eq_empty_iff {f : α → String} {l : List α} :
    String.join (l.map f) = "" ↔ ∀ a ∈ l, f a = "" := by
  rw [← String.toList_inj, String.toList_join, List.flatMap_map]
  simp

/-- Empty pieces add nothing to a joined text. -/
theorem join_filter_ne_empty (l : List String) :
    String.join (l.filter fun piece => piece ≠ "") = String.join l := by
  induction l with
  | nil => rfl
  | cons piece l ih =>
      by_cases h : piece = "" <;> simpa [List.filter_cons, h] using ih

end Machine
end CognitiveEngine
