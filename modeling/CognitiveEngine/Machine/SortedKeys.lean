/-
# Lists of keyed values

A list of pairs in which no key occurs twice is a finite map with an order of
insertion.  Looking a key up finds the pair with it (`lookup_eq_some_iff`), and sorting
by the keys forgets the order of insertion and nothing else
(`sortKeys_eq_iff`).
-/

import Mathlib.Data.List.Sort

namespace CognitiveEngine
namespace Machine

variable {κ β : Type*}

/-- A key has one value. -/
theorem eq_of_mem_of_mem {l : List (κ × β)} (hl : (l.map Prod.fst).Nodup) {k : κ} {v w : β}
    (hv : (k, v) ∈ l) (hw : (k, w) ∈ l) : v = w :=
  congrArg Prod.snd (List.inj_on_of_nodup_map hl hv hw rfl)

/-- **A key is looked up as the value it is listed with.** -/
theorem lookup_eq_some_iff [BEq κ] [LawfulBEq κ] {l : List (κ × β)}
    (hl : (l.map Prod.fst).Nodup) {k : κ} {v : β} : l.lookup k = some v ↔ (k, v) ∈ l := by
  induction l with
  | nil => simp
  | cons p l ih =>
      obtain ⟨a, b⟩ := p
      rw [List.map_cons, List.nodup_cons] at hl
      by_cases hk : k = a
      · subst hk
        rw [List.lookup_cons_self, Option.some_inj, List.mem_cons]
        constructor
        · rintro rfl
          exact .inl rfl
        · rintro (h | h)
          · exact (Prod.mk.inj h).2.symm
          · exact absurd (List.mem_map_of_mem h) hl.1
      · have hne : (k == a) = false := beq_false_of_ne hk
        rw [List.lookup_cons, hne]
        show List.lookup k l = some v ↔ _
        rw [ih hl.2, List.mem_cons, Prod.mk.injEq]
        simp [hk]

section Sorting

variable [LE κ] [DecidableLE κ] [Std.IsLinearOrder κ]

/-- The pairs sorted by their keys. -/
def sortKeys (l : List (κ × β)) : List (κ × β) := l.insertionSort fun a b => a.1 ≤ b.1

omit [Std.IsLinearOrder κ] in
theorem sortKeys_perm (l : List (κ × β)) : (sortKeys l).Perm l := List.perm_insertionSort _ l

theorem sortKeys_pairwise (l : List (κ × β)) :
    (sortKeys l).Pairwise fun a b => a.1 ≤ b.1 := by
  have : Std.Total fun a b : κ × β => a.1 ≤ b.1 := ⟨fun a b => Std.le_total⟩
  have : IsTrans (κ × β) fun a b => a.1 ≤ b.1 := ⟨fun a b c => Std.le_trans⟩
  exact List.pairwise_insertionSort _ l

/-- **Sorting by the keys forgets the order of insertion, and nothing else.** -/
theorem sortKeys_eq_iff {l l' : List (κ × β)} (hl : (l.map Prod.fst).Nodup) :
    sortKeys l = sortKeys l' ↔ l.Perm l' := by
  constructor
  · intro h
    exact (sortKeys_perm l).symm.trans (h ▸ sortKeys_perm l')
  · intro h
    have hperm : (sortKeys l).Perm (sortKeys l') :=
      (sortKeys_perm l).trans (h.trans (sortKeys_perm l').symm)
    refine hperm.eq_of_pairwise ?_ (sortKeys_pairwise l) (sortKeys_pairwise l')
    intro a b ha hb hab hba
    have ha' : a ∈ l := (sortKeys_perm l).mem_iff.1 ha
    have hb' : b ∈ l := h.mem_iff.2 ((sortKeys_perm l').mem_iff.1 hb)
    exact List.inj_on_of_nodup_map hl ha' hb' (Std.le_antisymm hab hba)

end Sorting

end Machine
end CognitiveEngine
