/-
# Occurrences of one text in another

`Occurs part whole` is Python's `part in whole`: the characters of `part` stand in
`whole`, one after the other.  The rules are the ones for texts put together by
concatenation and by `join`.
-/

import Mathlib.Data.List.Infix

namespace CognitiveEngine
namespace Machine

/-- The text `part` occurs in the text `whole`. -/
def Occurs (part whole : String) : Prop := part.toList <:+: whole.toList

instance (part whole : String) : Decidable (Occurs part whole) := by
  unfold Occurs; infer_instance

namespace Occurs

variable {part whole : String}

theorem refl (s : String) : Occurs s s := List.infix_rfl

theorem trans {a b c : String} (h : Occurs a b) (h' : Occurs b c) : Occurs a c :=
  List.IsInfix.trans h h'

theorem append_right (h : Occurs part whole) (s : String) : Occurs part (whole ++ s) := by
  rw [Occurs, String.toList_append]
  exact List.IsInfix.trans h (List.prefix_append _ _).isInfix

theorem append_left (h : Occurs part whole) (s : String) : Occurs part (s ++ whole) := by
  rw [Occurs, String.toList_append]
  exact List.IsInfix.trans h (List.suffix_append _ _).isInfix

/-- **A text occurs in every text it is joined into.** -/
theorem intercalate {texts : List String} (h : part ∈ texts) (sep : String) :
    Occurs part (String.intercalate sep texts) := by
  induction texts with
  | nil => exact absurd h List.not_mem_nil
  | cons t texts ih =>
      cases texts with
      | nil =>
          rw [List.mem_singleton.1 h, String.intercalate_singleton]
          exact refl t
      | cons t' texts =>
          rw [String.intercalate_cons_cons]
          rcases List.mem_cons.1 h with rfl | h
          · exact ((refl part).append_right sep).append_right _
          · exact (ih h).append_left _

/-- A text is no longer than the text it occurs in. -/
theorem length_le (h : Occurs part whole) : part.toList.length ≤ whole.toList.length :=
  List.IsInfix.length_le h

/-- The bytes of a text are among those of the text it occurs in. -/
theorem bytes_subset (h : Occurs part whole) :
    part.toByteArray.data.toList ⊆ whole.toByteArray.data.toList := by
  obtain ⟨front, back, hwhole⟩ := h
  have heq : String.ofList front ++ part ++ String.ofList back = whole := by
    rw [← String.toList_inj, String.toList_append, String.toList_append, String.toList_ofList,
      String.toList_ofList, hwhole]
  intro b hb
  rw [← heq, String.toByteArray_append, String.toByteArray_append, ByteArray.data_append,
    ByteArray.data_append, Array.toList_append, Array.toList_append]
  exact List.mem_append_left _ (List.mem_append_right _ hb)

end Occurs

/-- Some text occurs in none of the given ones: one that is longer than all of them. -/
theorem exists_not_occurs (texts : List String) : ∃ s, ∀ t ∈ texts, ¬ Occurs s t := by
  obtain ⟨n, hn⟩ : ∃ n, ∀ t ∈ texts, t.toList.length < n := by
    induction texts with
    | nil => exact ⟨0, by simp⟩
    | cons t texts ih =>
        obtain ⟨n, hn⟩ := ih
        refine ⟨max n (t.toList.length + 1), List.forall_mem_cons.2 ⟨by omega, fun t' ht' => ?_⟩⟩
        have := hn t' ht'
        omega
  refine ⟨String.ofList (List.replicate n 'a'), fun t ht h => ?_⟩
  have hle := h.length_le
  have hlt := hn t ht
  rw [String.toList_ofList, List.length_replicate] at hle
  omega

end Machine
end CognitiveEngine
