/-
# Sorting that keeps ties in order

Sorting by insertion puts an element before those that it ties with, so what is tied
stays in the order it was in.  `pairwise_insertionSort_of_pairwise` says so for any
relation that the list is in order of.  `pair_sublist_of_pairwise` reads the order of two
elements off a list that is in order.
-/

import Mathlib.Data.List.Sort

namespace CognitiveEngine
namespace Machine

variable {α : Type*} {r s : α → α → Prop} [DecidableRel r]

/-- Before, and where both are before the other, in the order of `s`. -/
def TieBroken (r s : α → α → Prop) (a b : α) : Prop := r a b ∧ (r b a → s a b)

/-- An element that is in front of all others is put in front of those it ties with. -/
theorem pairwise_orderedInsert_of_forall [Std.Total r] [IsTrans α r] {a : α} {l : List α}
    (hs : ∀ b ∈ l, s a b) (hl : l.Pairwise (TieBroken r s)) :
    (l.orderedInsert r a).Pairwise (TieBroken r s) := by
  induction l with
  | nil => exact List.pairwise_singleton _ _
  | cons b l ih =>
      obtain ⟨hb, hrest⟩ := List.pairwise_cons.1 hl
      rw [List.orderedInsert_cons]
      by_cases hab : r a b
      · rw [if_pos hab, List.pairwise_cons]
        refine ⟨fun c hc => ⟨?_, fun _ => hs c hc⟩, hl⟩
        rcases List.mem_cons.1 hc with rfl | hc
        · exact hab
        · exact IsTrans.trans a b c hab (hb c hc).1
      · rw [if_neg hab, List.pairwise_cons]
        refine ⟨fun c hc => ?_, ih (fun c hc => hs c (List.mem_cons_of_mem _ hc)) hrest⟩
        rcases List.mem_cons.1 ((List.perm_orderedInsert r a l).mem_iff.1 hc) with rfl | hc
        · exact ⟨(Std.Total.total b c).resolve_right hab, fun h => absurd h hab⟩
        · exact hb c hc

/-- **What is tied stays in order.** -/
theorem pairwise_insertionSort_of_pairwise [Std.Total r] [IsTrans α r] {l : List α}
    (hs : l.Pairwise s) : (l.insertionSort r).Pairwise (TieBroken r s) := by
  induction l with
  | nil => exact List.Pairwise.nil
  | cons a l ih =>
      obtain ⟨ha, hrest⟩ := List.pairwise_cons.1 hs
      rw [List.insertionSort_cons]
      exact pairwise_orderedInsert_of_forall
        (fun b hb => ha b ((List.mem_insertionSort r).1 hb)) (ih hrest)

omit [DecidableRel r] in
/-- Of two elements that are not in order the other way round, the first stands before the
second. -/
theorem pair_sublist_of_pairwise {a b : α} {l : List α} (hl : l.Pairwise r) (ha : a ∈ l)
    (hb : b ∈ l) (hne : a ≠ b) (hnot : ¬ r b a) : [a, b].Sublist l := by
  obtain ⟨before, after, rfl⟩ := List.append_of_mem hb
  have hafter : a ∉ after := fun hmem =>
    hnot ((List.pairwise_cons.1 (List.pairwise_append.1 hl).2.1).1 a hmem)
  have hbefore : a ∈ before := by
    rcases List.mem_append.1 ha with hmem | hmem
    · exact hmem
    · rcases List.mem_cons.1 hmem with rfl | hmem
      · exact absurd rfl hne
      · exact absurd hmem hafter
  exact (List.singleton_sublist.2 hbefore).append
    (List.singleton_sublist.2 List.mem_cons_self)

end Machine
end CognitiveEngine
