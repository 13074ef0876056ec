/-
# A stream that arrives in reads

What was written as one list is read as a list of lists, cut anywhere.  `IsBoundary`
says where the reads end.  `exists_read_of_append_cons` finds the read a given item is
in; `isBoundary_before` and `isBoundary_after` then tell the boundaries before it from
those after it, which are the boundaries of what is left of the stream.
-/

import Mathlib.Data.List.Basic
import Mathlib.Tactic.Common

namespace CognitiveEngine
namespace Machine

variable {β : Type*}

/-- Some read ends, or the first begins, after so many items. -/
def IsBoundary (reads : List (List β)) (i : ℕ) : Prop :=
  ∃ before after, reads = before ++ after ∧ before.flatten.length = i

theorem isBoundary_cons {read : List β} {reads : List (List β)} {i : ℕ} :
    IsBoundary (read :: reads) i ↔ i = 0 ∨ ∃ j, i = read.length + j ∧ IsBoundary reads j := by
  constructor
  · rintro ⟨before, after, heq, rfl⟩
    cases before with
    | nil => exact .inl rfl
    | cons read' before =>
        rw [List.cons_append, List.cons.injEq] at heq
        obtain ⟨rfl, heq⟩ := heq
        exact .inr ⟨_, by rw [List.flatten_cons, List.length_append], before, after, heq, rfl⟩
  · rintro (rfl | ⟨j, rfl, before, after, rfl, rfl⟩)
    · exact ⟨[], read :: reads, rfl, rfl⟩
    · exact ⟨read :: before, after, rfl, by rw [List.flatten_cons, List.length_append]⟩

/-- **The read an item is in.** -/
theorem exists_read_of_append_cons {reads : List (List β)} {front back : List β} {x : β}
    (h : reads.flatten = front ++ x :: back) :
    ∃ before u v after, reads = before ++ (u ++ x :: v) :: after ∧ before.flatten ++ u = front ∧
      v ++ after.flatten = back := by
  induction reads generalizing front with
  | nil => exact absurd h.symm (by simp)
  | cons read reads ih =>
      rw [List.flatten_cons] at h
      rcases List.append_eq_append_iff.1 h with ⟨rest, rfl, hrest⟩ | ⟨rest, rfl, hrest⟩
      · obtain ⟨before, u, v, after, rfl, rfl, rfl⟩ := ih hrest
        exact ⟨read :: before, u, v, after, rfl, by simp, rfl⟩
      · cases rest with
        | nil =>
            have hnil : reads.flatten = [] ++ x :: back := hrest.symm
            obtain ⟨before, u, v, after, rfl, hfront, rfl⟩ := ih hnil
            refine ⟨(front ++ []) :: before, u, v, after, rfl, ?_, rfl⟩
            rw [List.flatten_cons, List.append_assoc, hfront, List.append_nil, List.append_nil]
        | cons y rest =>
            rw [List.cons_append, List.cons.injEq] at hrest
            obtain ⟨rfl, rfl⟩ := hrest
            exact ⟨[], front, rest, reads, rfl, rfl, rfl⟩

/-- The boundaries before an item. -/
theorem isBoundary_before {before after : List (List β)} {u v : List β} {x : β} {i : ℕ}
    (hi : i < (before.flatten ++ u).length) :
    IsBoundary (before ++ (u ++ x :: v) :: after) i ↔ IsBoundary (before ++ [u]) i := by
  induction before generalizing i with
  | nil =>
      rw [List.flatten_nil, List.nil_append] at hi
      rw [List.nil_append, List.nil_append, isBoundary_cons, isBoundary_cons]
      refine or_congr Iff.rfl ⟨?_, ?_⟩
      · rintro ⟨j, rfl, -⟩
        simp at hi
        omega
      · rintro ⟨j, rfl, -⟩
        omega
  | cons read before ih =>
      rw [List.cons_append, List.cons_append, isBoundary_cons, isBoundary_cons]
      refine or_congr Iff.rfl (exists_congr fun j => and_congr_right fun hj => ih ?_)
      rw [List.flatten_cons, List.append_assoc, List.length_append] at hi
      omega

/-- The boundaries after an item. -/
theorem isBoundary_after {before after : List (List β)} {u v : List β} {x : β} {j : ℕ}
    (hj : 0 < j) :
    IsBoundary (before ++ (u ++ x :: v) :: after) ((before.flatten ++ u).length + 1 + j) ↔
      IsBoundary (v :: after) j := by
  induction before with
  | nil =>
      rw [List.nil_append, isBoundary_cons, isBoundary_cons, List.flatten_nil, List.nil_append]
      refine or_congr (by omega) (exists_congr fun i => and_congr_left fun _ => ?_)
      rw [List.length_append, List.length_cons]
      omega
  | cons read before ih =>
      rw [List.cons_append, isBoundary_cons, List.flatten_cons, List.append_assoc,
        List.length_append, ← ih]
      constructor
      · rintro (hzero | ⟨i, hi, hboundary⟩)
        · omega
        · have heq : i = (before.flatten ++ u).length + 1 + j := by omega
          exact heq ▸ hboundary
      · exact fun h => .inr ⟨_, by omega, h⟩

end Machine
end CognitiveEngine
