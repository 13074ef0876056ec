/-
# Filtered lists read by the positions of the whole

Some members of a list are kept.  What is at a position of the kept ones is what is at
that position of the whole, exactly when none that is kept follows one that is not:
`getElem?_filter_of_pairwise` reads the kept ones then, and `exists_split_of_not_pairwise`
finds the first position at which they differ otherwise.

The first of a list in descending order is `head?_of_best`.  The last members of a list make
up a window on it; `mem_lastOnes_iff` says when a member is in it.
-/

import Mathlib.Data.List.Basic
import Mathlib.Data.List.Pairwise
import Mathlib.Order.Basic

namespace CognitiveEngine
namespace Machine

variable {α : Type*}

/-- Filtering leaves the positions alone when nothing that is kept follows what is not. -/
theorem getElem?_filter_of_pairwise {p : α → Bool} {l : List α}
    (h : l.Pairwise fun a b => p b → p a) (i : ℕ) : (l.filter p)[i]? = (l[i]?).filter p := by
  induction l generalizing i with
  | nil => rfl
  | cons a l ih =>
      rw [List.pairwise_cons] at h
      by_cases ha : p a
      · rw [List.filter_cons_of_pos ha]
        cases i with
        | zero => exact (Option.filter_some_pos ha).symm
        | succ i =>
            rw [List.getElem?_cons_succ, List.getElem?_cons_succ]
            exact ih h.2 i
      · have hnone : ∀ b ∈ l, ¬ p b := fun b hb hp => ha (h.1 b hb hp)
        rw [List.filter_cons_of_neg ha, List.filter_eq_nil_iff.2 hnone]
        cases i with
        | zero => exact (Option.filter_some_neg (Bool.eq_false_iff.2 ha)).symm
        | succ i =>
            rw [List.getElem?_cons_succ, List.getElem?_nil]
            symm
            rw [Option.filter_eq_none_iff]
            exact fun b hb => hnone b (List.mem_of_getElem? hb)

/-- Otherwise something that is kept follows the first that is not. -/
theorem exists_split_of_not_pairwise {p : α → Bool} {l : List α}
    (h : ¬ l.Pairwise fun a b => p b → p a) :
    ∃ before a after, l = before ++ a :: after ∧ (∀ b ∈ before, p b) ∧ ¬ p a ∧
      ∃ b ∈ after, p b := by
  induction l with
  | nil => exact absurd List.Pairwise.nil h
  | cons a l ih =>
      by_cases ha : p a
      · have hrest : ¬ l.Pairwise fun a b => p b → p a :=
          fun hl => h (List.pairwise_cons.2 ⟨fun _ _ _ => ha, hl⟩)
        obtain ⟨before, a', after, rfl, hbefore, ha', hafter⟩ := ih hrest
        exact ⟨a :: before, a', after, rfl, List.forall_mem_cons.2 ⟨ha, hbefore⟩, ha', hafter⟩
      · refine ⟨[], a, l, rfl, by simp, ha, ?_⟩
        by_contra hnone
        push Not at hnone
        exact h (List.pairwise_cons.2 ⟨fun b hb hp => absurd hp (hnone b hb),
          List.pairwise_of_forall_mem_list fun _ _ b hb hp => absurd hp (hnone b hb)⟩)

/-! ### The first of a ranking -/

/-- What is ranked above all others comes first. -/
theorem head?_of_best {β : Type*} [Preorder β] {score : α → β} {l : List α} {a : α}
    (hsorted : l.Pairwise fun a b => score b ≤ score a) (ha : a ∈ l)
    (hbest : ∀ b ∈ l, b = a ∨ score b < score a) : l.head? = some a := by
  cases l with
  | nil => exact absurd ha List.not_mem_nil
  | cons first rest =>
      rcases hbest first List.mem_cons_self with rfl | hlt
      · rfl
      · rcases List.mem_cons.1 ha with rfl | hrest
        · exact absurd hlt (lt_irrefl _)
        · exact absurd ((List.pairwise_cons.1 hsorted).1 _ hrest) hlt.not_ge

/-! ### The first members -/

/-- Without its first members a list is what comes after them. -/
theorem filter_notMem_take [DecidableEq α] {l : List α} (hl : l.Nodup) (n : ℕ) :
    l.filter (· ∉ l.take n) = l.drop n := by
  have hnodup : (l.take n ++ l.drop n).Nodup := by rwa [List.take_append_drop]
  have hdisjoint := (List.nodup_append.1 hnodup).2.2
  calc l.filter (· ∉ l.take n)
      = (l.take n ++ l.drop n).filter (· ∉ l.take n) := by rw [List.take_append_drop]
    _ = [] ++ l.drop n := by
        rw [List.filter_append, List.filter_eq_nil_iff.2 (by simp), List.filter_eq_self.2]
        intro a ha
        exact decide_eq_true fun htake => hdisjoint a htake a ha rfl
    _ = l.drop n := List.nil_append _

/-! ### The last members -/

/-- The last members of a list, at most `n`. -/
def lastOnes (n : ℕ) (l : List α) : List α := l.drop (l.length - n)

theorem lastOnes_map {β : Type*} (f : α → β) (n : ℕ) (l : List α) :
    lastOnes n (l.map f) = (lastOnes n l).map f := by
  rw [lastOnes, lastOnes, List.length_map, List.map_drop]

/-- **When a member is among the last ones:** when fewer come after it. -/
theorem mem_lastOnes_iff {n : ℕ} {front back : List α} {a : α} (hback : a ∉ back) :
    a ∈ lastOnes n (front ++ a :: back) ↔ back.length < n := by
  rw [lastOnes, List.length_append, List.length_cons]
  by_cases hn : back.length < n
  · refine iff_of_true ?_ hn
    have hle : front.length + (back.length + 1) - n ≤ front.length := by omega
    rw [List.drop_append_of_le_length hle]
    exact List.mem_append_right _ List.mem_cons_self
  · refine iff_of_false (fun hmem => hback ?_) hn
    obtain ⟨k, hk⟩ := Nat.exists_eq_add_of_le (Nat.not_lt.1 hn)
    have hdrop : front.length + (back.length + 1) - n = front.length + (k + 1) := by omega
    rw [hdrop, List.drop_length_add_append, List.drop_succ_cons] at hmem
    exact List.mem_of_mem_drop hmem

end Machine
end CognitiveEngine
