/-
# The first few of a list in order

A list in order of a relation is cut off after `k` members.  Who is in is told by counting,
without a look at the list itself: few members can stand before one that is in
(`countP_lt_of_mem_take`), and many do before one that is out (`le_countP_of_notMem_take`).
For a strict order the two meet in `mem_take_iff`.
-/

import Mathlib.Data.List.Basic
import Mathlib.Data.List.Pairwise

namespace CognitiveEngine
namespace Machine

variable {α : Type*} {r : α → α → Prop} {l : List α} {k : ℕ} {a : α} {P : α → Bool}

/-- **In:** what does not hold of a member, nor of any that may follow it, holds of fewer
than `k`. -/
theorem countP_lt_of_mem_take (hl : l.Pairwise r) (ha : a ∈ l.take k) (hself : P a = false)
    (hlater : ∀ b, r a b → P b = false) : l.countP P < k := by
  obtain ⟨before, after, htake⟩ := List.append_of_mem ha
  have hsplit : l = before ++ a :: (after ++ l.drop k) := by
    rw [← List.cons_append, ← List.append_assoc, ← htake, List.take_append_drop]
  have hrest : (a :: (after ++ l.drop k)).countP P = 0 := by
    rw [hsplit, List.pairwise_append, List.pairwise_cons] at hl
    refine List.countP_eq_zero.2 fun b hb => ?_
    rcases List.mem_cons.1 hb with rfl | hb
    · exact Bool.eq_false_iff.1 hself
    · exact Bool.eq_false_iff.1 (hlater b (hl.2.1.1 b hb))
  have hlength : before.length + 1 ≤ k := by
    have hle := List.length_take_le k l
    rw [htake, List.length_append, List.length_cons] at hle
    omega
  rw [hsplit, List.countP_append, hrest]
  have hbefore := List.countP_le_length (p := P) (l := before)
  omega

/-- **Out:** what holds of every member that may stand before one holds of `k` others. -/
theorem le_countP_of_notMem_take (hl : l.Pairwise r) (ha : a ∈ l) (hnot : a ∉ l.take k)
    (hearlier : ∀ b, r b a → P b = true) :
    k + (if P a then 1 else 0) ≤ l.countP P := by
  have hdrop : a ∈ l.drop k := by
    rw [← List.take_append_drop k l, List.mem_append] at ha
    exact ha.resolve_left hnot
  have hlong : k ≤ l.length := by
    by_contra hlt
    rw [List.drop_eq_nil_of_le (by omega)] at hdrop
    exact absurd hdrop List.not_mem_nil
  have htaken : (l.take k).countP P = k := by
    rw [← List.take_append_drop k l, List.pairwise_append] at hl
    rw [List.countP_eq_length.2 fun b hb => hearlier b (hl.2.2 b hb a hdrop),
      List.length_take_of_le hlong]
  have hleft : (if P a then 1 else 0) ≤ (l.drop k).countP P := by
    split_ifs with hP
    · exact List.countP_pos_iff.2 ⟨a, hdrop, hP⟩
    · exact Nat.zero_le _
  conv_rhs => rw [← List.take_append_drop k l, List.countP_append, htaken]
  omega

/-- **In or out, for a strict order:** the first `k` are those that fewer than `k` are
before. -/
theorem mem_take_iff [DecidableRel r] (hl : l.Pairwise r) (hasymm : ∀ a b, r a b → ¬ r b a) :
    a ∈ l.take k ↔ a ∈ l ∧ l.countP (fun b => r b a) < k := by
  constructor
  · intro ha
    refine ⟨List.mem_of_mem_take ha, countP_lt_of_mem_take hl ha ?_ fun b hab => ?_⟩
    · exact decide_eq_false fun haa => hasymm a a haa haa
    · exact decide_eq_false (hasymm a b hab)
  · rintro ⟨ha, hlt⟩
    by_contra hnot
    have hle := le_countP_of_notMem_take hl ha hnot (P := fun b => r b a)
      fun b hba => decide_eq_true hba
    omega

end Machine
end CognitiveEngine
