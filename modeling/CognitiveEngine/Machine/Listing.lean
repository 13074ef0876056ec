/-
# Functions of which some values are listed

A hash is known by its values at a few texts.  A `Listing` has them in a table, and gives
any other text itself, behind a mark that no listed value begins with.  No value is listed
twice, so that such a function tells all texts apart.
-/

import Mathlib.Data.List.Nodup
import Mathlib.Logic.Function.Basic

namespace CognitiveEngine
namespace Machine

/-- Texts with their values. -/
structure Listing where
  table : List (String × String)
  nodup : (table.map Prod.snd).Nodup
  unmarked : ∀ e ∈ table, e.2.toList.head? ≠ some '#'

namespace Listing

/-- The value in the table, or the text behind a mark. -/
def value (l : Listing) (text : String) : String := (l.table.lookup text).getD ("#" ++ text)

variable {l : Listing} {text digest : String}

theorem mem_of_lookup (h : l.table.lookup text = some digest) : (text, digest) ∈ l.table := by
  obtain ⟨before, after, htable, -⟩ := List.lookup_eq_some_iff.1 h
  exact htable ▸ List.mem_append_right _ List.mem_cons_self

/-- A listed value has no mark. -/
theorem ne_marked (h : l.table.lookup text = some digest) (other : String) :
    digest ≠ "#" ++ other := by
  rintro rfl
  refine l.unmarked _ (mem_of_lookup h) ?_
  rw [String.toList_append]
  rfl

/-- **A listing tells texts apart.** -/
theorem value_injective (l : Listing) : Function.Injective l.value := by
  intro text text' h
  simp only [value] at h
  cases hfound : l.table.lookup text with
  | none =>
      cases hfound' : l.table.lookup text' with
      | none =>
          rw [hfound, hfound', Option.getD_none, Option.getD_none] at h
          exact (String.append_right_inj _).1 h
      | some digest' =>
          rw [hfound, hfound', Option.getD_none, Option.getD_some] at h
          exact absurd h.symm (ne_marked hfound' text)
  | some digest =>
      cases hfound' : l.table.lookup text' with
      | none =>
          rw [hfound, hfound', Option.getD_some, Option.getD_none] at h
          exact absurd h (ne_marked hfound text')
      | some digest' =>
          rw [hfound, hfound', Option.getD_some, Option.getD_some] at h
          exact congrArg Prod.fst (List.inj_on_of_nodup_map l.nodup (mem_of_lookup hfound)
            (mem_of_lookup hfound') h)

end Listing
end Machine
end CognitiveEngine
