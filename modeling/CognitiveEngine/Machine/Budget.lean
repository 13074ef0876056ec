/-
# Keeping what a budget affords

A list of items with weights is gone through from one end, and each item is kept
while the weights so far stay within a budget; the first item that does not fit
ends the scan.  `affordable` keeps a prefix and `affordableEnd` a suffix.

Both are the longest of their kind: every prefix or suffix within the budget is
part of the one that is kept.  An item of weight zero costs nothing, and is kept
whenever the scan gets to it.
-/

import Mathlib.Algebra.BigOperators.Group.List.Basic
import Mathlib.Algebra.GroupWithZero.Nat
import Mathlib.Data.List.Infix

namespace CognitiveEngine
namespace Machine

variable {α : Type*} (w : α → ℕ)

/-- The weights of the items together. -/
def cost (l : List α) : ℕ := (l.map w).sum

@[simp] theorem cost_nil : cost w [] = 0 := rfl

@[simp] theorem cost_cons (a : α) (l : List α) : cost w (a :: l) = w a + cost w l := by
  simp [cost]

@[simp] theorem cost_reverse (l : List α) : cost w l.reverse = cost w l := by
  rw [cost, List.map_reverse, List.sum_reverse, cost]

/-- The items kept from the front. -/
def affordable : ℕ → List α → List α
  | _, [] => []
  | budget, a :: l => if w a ≤ budget then a :: affordable (budget - w a) l else []

theorem affordable_prefix (budget : ℕ) (l : List α) : affordable w budget l <+: l := by
  induction l generalizing budget with
  | nil => exact List.prefix_rfl
  | cons a l ih =>
      unfold affordable
      split_ifs with h
      · exact (List.prefix_cons_inj a).2 (ih _)
      · exact List.nil_prefix

theorem cost_affordable_le (budget : ℕ) (l : List α) : cost w (affordable w budget l) ≤ budget := by
  induction l generalizing budget with
  | nil => exact Nat.zero_le _
  | cons a l ih =>
      unfold affordable
      split_ifs with h
      · rw [cost_cons]
        have := ih (budget - w a)
        omega
      · exact Nat.zero_le _

/-- **The items kept are the longest prefix within the budget.** -/
theorem prefix_affordable {budget : ℕ} {l l' : List α} (hl : l' <+: l) (hc : cost w l' ≤ budget) :
    l' <+: affordable w budget l := by
  induction l generalizing budget l' with
  | nil => exact hl
  | cons a l ih =>
      rcases List.prefix_cons_iff.1 hl with rfl | ⟨l'', rfl, hl''⟩
      · exact List.nil_prefix
      · rw [cost_cons] at hc
        rw [affordable, if_pos (by omega)]
        exact (List.prefix_cons_inj a).2 (ih hl'' (by omega))

/-- The items kept from the end, in their order. -/
def affordableEnd (budget : ℕ) (l : List α) : List α := (affordable w budget l.reverse).reverse

/-- `l'` is the longest suffix of `l` within the budget. -/
structure IsLongestSuffix (budget : ℕ) (l l' : List α) : Prop where
  suffix : l' <:+ l
  within : cost w l' ≤ budget
  longest : ∀ r, r <:+ l → cost w r ≤ budget → r <:+ l'

theorem isLongestSuffix_affordableEnd (budget : ℕ) (l : List α) :
    IsLongestSuffix w budget l (affordableEnd w budget l) where
  suffix := by
    rw [← List.reverse_prefix, affordableEnd, List.reverse_reverse]
    exact affordable_prefix w budget l.reverse
  within := by
    rw [affordableEnd, cost_reverse]
    exact cost_affordable_le w budget l.reverse
  longest r hr hc := by
    rw [← List.reverse_prefix, affordableEnd, List.reverse_reverse]
    exact prefix_affordable w (List.reverse_prefix.2 hr) (by rwa [cost_reverse])

namespace IsLongestSuffix

variable {w} {budget : ℕ} {l l' : List α}

/-- **Everything is kept exactly when everything is within the budget.** -/
theorem eq_iff (h : IsLongestSuffix w budget l l') : l' = l ↔ cost w l ≤ budget := by
  constructor
  · rintro rfl
    exact h.within
  · intro hc
    exact h.suffix.eq_of_length_le (h.longest l List.suffix_rfl hc).length_le

end IsLongestSuffix

end Machine
end CognitiveEngine
