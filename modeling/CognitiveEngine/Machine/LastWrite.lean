/-
# Writes to keyed places, landed in any order

A write goes to the place its key names and replaces what is there, so of a list of
writes that landed one after the other those are left that are the last of their
key.  `exists_lastWrite` finds one at every key that was written.  `forall_perm_iff`
is the rule for writes whose order is not fixed: a write with the property is left
in every order exactly when some place is only written by such writes.

`lastWrites` lists the writes that are left, in order.  `lastWrites_append` says what
is left of earlier writes after later ones, and `filter_lastWrites` says when those of
some writers are left as if the others had not written at all.
-/

import Mathlib.Data.List.Induction
import Mathlib.Data.List.Perm.Basic
import Mathlib.Data.List.Basic

namespace CognitiveEngine
namespace Machine

variable {α κ : Type*} (key : α → κ)

/-- `w` is among the writes and none after it goes to the same place. -/
def LastWrite (ws : List α) (w : α) : Prop :=
  ∃ before after, ws = before ++ w :: after ∧ ∀ v ∈ after, key v ≠ key w

variable {key}

theorem LastWrite.mem {ws : List α} {w : α} (h : LastWrite key ws w) : w ∈ ws := by
  obtain ⟨before, after, rfl, -⟩ := h
  simp

/-- A write is left of `ws` and one more when it is that one, or was left and goes
elsewhere. -/
theorem lastWrite_concat {ws : List α} {v w : α} :
    LastWrite key (ws ++ [v]) w ↔ w = v ∨ (LastWrite key ws w ∧ key v ≠ key w) := by
  constructor
  · rintro ⟨before, after, heq, hafter⟩
    rcases List.eq_nil_or_concat after with rfl | ⟨after, u, rfl⟩
    · exact .inl (List.singleton_inj.1 (List.append_inj_right' heq rfl)).symm
    · rw [List.concat_eq_append, ← List.cons_append, ← List.append_assoc] at heq
      obtain ⟨rfl, hu⟩ := List.append_inj' heq rfl
      obtain rfl := List.singleton_inj.1 hu
      rw [List.concat_eq_append] at hafter
      exact .inr ⟨⟨before, after, rfl, fun x hx => hafter x (List.mem_append_left _ hx)⟩,
        hafter v (List.mem_append_right _ (List.mem_singleton_self v))⟩
  · rintro (rfl | ⟨⟨before, after, rfl, hafter⟩, hv⟩)
    · exact ⟨ws, [], rfl, by simp⟩
    · refine ⟨before, after ++ [v], by simp, fun x hx => ?_⟩
      rcases List.mem_append.1 hx with hx | hx
      · exact hafter x hx
      · rw [List.mem_singleton.1 hx]
        exact hv

/-- At every place that was written a write is left. -/
theorem exists_lastWrite {ws : List α} {y : α} (hy : y ∈ ws) :
    ∃ w, LastWrite key ws w ∧ key w = key y := by
  induction ws using List.reverseRecOn with
  | nil => exact absurd hy List.not_mem_nil
  | append_singleton ws v ih =>
      by_cases hv : key v = key y
      · exact ⟨v, lastWrite_concat.2 (.inl rfl), hv⟩
      · have hmem : y ∈ ws := by
          rcases List.mem_append.1 hy with hy | hy
          · exact hy
          · exact absurd (congrArg key (List.mem_singleton.1 hy).symm) hv
        obtain ⟨w, hw, hkey⟩ := ih hmem
        exact ⟨w, lastWrite_concat.2 (.inr ⟨hw, hkey ▸ hv⟩), hkey⟩

/-- Only what landed later replaces a write. -/
theorem LastWrite.of_append {front back : List α} {w z : α}
    (h : LastWrite key (front ++ back) w) (hz : z ∈ back) (hkey : key z = key w) : w ∈ back := by
  obtain ⟨before, after, heq, hafter⟩ := h
  rcases List.append_eq_append_iff.1 heq with ⟨x, rfl, hback⟩ | ⟨x, hfront, hafter'⟩
  · rw [hback]
    simp
  · cases x with
    | nil =>
        rw [List.nil_append] at hafter'
        rw [← hafter']
        exact List.mem_cons_self
    | cons a x =>
        rw [List.cons_append, List.cons.injEq] at hafter'
        exact absurd hkey (hafter z (hafter'.2 ▸ List.mem_append_right x hz))

/-- **Writes in any order.**  Whatever the order, a write with the property is left,
exactly when some place is written only by writes that have it. -/
theorem forall_perm_iff {P : α → Prop} {fs : List α} :
    (∀ ws, ws.Perm fs → ∃ w, LastWrite key ws w ∧ P w) ↔
      ∃ y ∈ fs, P y ∧ ∀ z ∈ fs, key z = key y → P z := by
  classical
  constructor
  · intro h
    -- The writes with the property land first, all others after them.
    obtain ⟨w, hw, hP⟩ := h _ (List.filter_append_perm (fun x => decide (P x)) fs)
    have hmem : w ∈ fs := (List.filter_append_perm _ fs).mem_iff.1 hw.mem
    refine ⟨w, hmem, hP, fun z hz hkey => ?_⟩
    by_contra hnot
    have hback := hw.of_append (List.mem_filter.2 ⟨hz, by simpa using hnot⟩) hkey
    exact absurd hP (by simpa using (List.mem_filter.1 hback).2)
  · rintro ⟨y, hy, -, hall⟩ ws hws
    obtain ⟨w, hw, hkey⟩ : ∃ w, LastWrite key ws w ∧ key w = key y :=
      exists_lastWrite (hws.mem_iff.2 hy)
    exact ⟨w, hw, hall w (hws.mem_iff.1 hw.mem) hkey⟩

/-- Of two writes left at one place there is only one. -/
theorem LastWrite.unique {ws : List α} {v w : α} (hv : LastWrite key ws v)
    (hw : LastWrite key ws w) (hkey : key v = key w) : v = w := by
  induction ws using List.reverseRecOn with
  | nil => exact absurd hv.mem List.not_mem_nil
  | append_singleton ws u ih =>
      rcases lastWrite_concat.1 hv with rfl | ⟨hv', hne⟩
      · rcases lastWrite_concat.1 hw with rfl | ⟨-, hne⟩
        · rfl
        · exact absurd hkey hne
      · rcases lastWrite_concat.1 hw with rfl | ⟨hw', -⟩
        · exact absurd hkey.symm hne
        · exact ih hv' hw'

/-- The first write is left when none after it goes to its place. -/
theorem lastWrite_cons {ws : List α} {v w : α} :
    LastWrite key (v :: ws) w ↔ (w = v ∧ ∀ u ∈ ws, key u ≠ key v) ∨ LastWrite key ws w := by
  constructor
  · rintro ⟨_ | ⟨u, before⟩, after, heq, hafter⟩
    · obtain ⟨rfl, rfl⟩ := List.cons.inj heq
      exact .inl ⟨rfl, hafter⟩
    · obtain ⟨rfl, rfl⟩ := List.cons.inj heq
      exact .inr ⟨before, after, rfl, hafter⟩
  · rintro (⟨rfl, hafter⟩ | ⟨before, after, rfl, hafter⟩)
    · exact ⟨[], ws, rfl, hafter⟩
    · exact ⟨v :: before, after, rfl, hafter⟩

/-- A write that is left of all writes is left of those of some writers. -/
theorem LastWrite.filter {ws : List α} {w : α} {p : α → Bool} (h : LastWrite key ws w)
    (hp : p w) : LastWrite key (ws.filter p) w := by
  obtain ⟨before, after, rfl, hafter⟩ := h
  refine ⟨before.filter p, after.filter p, ?_, fun v hv => hafter v (List.mem_filter.1 hv).1⟩
  rw [List.filter_append, List.filter_cons_of_pos hp]

/-- A write that is left of those of some writers is left of all writes when the
other writers go elsewhere. -/
theorem LastWrite.of_filter {ws : List α} {w : α} {p : α → Bool}
    (h : LastWrite key (ws.filter p) w) (hapart : ∀ v ∈ ws, ¬ p v → key v ≠ key w) :
    LastWrite key ws w := by
  obtain ⟨u, hu, hkey⟩ : ∃ u, LastWrite key ws u ∧ key u = key w :=
    exists_lastWrite (List.mem_filter.1 h.mem).1
  have hp : p u := by
    by_contra hnot
    exact hapart u hu.mem hnot hkey
  rw [← (hu.filter hp).unique h hkey]
  exact hu

/-! ### The writes that are left -/

section LastWrites

variable {β : Type*} [DecidableEq κ]

/-- The writes that are left of a list, in its order. -/
def lastWrites (key : α → κ) : List α → List α
  | [] => []
  | w :: ws => if ∃ v ∈ ws, key v = key w then lastWrites key ws else w :: lastWrites key ws

theorem mem_lastWrites {ws : List α} {w : α} : w ∈ lastWrites key ws ↔ LastWrite key ws w := by
  induction ws with
  | nil => exact iff_of_false List.not_mem_nil fun h => List.not_mem_nil h.mem
  | cons v ws ih =>
      rw [lastWrite_cons, lastWrites]
      split
      · rename_i h
        obtain ⟨u, hu, hkey⟩ := h
        rw [ih, or_iff_right fun hw => hw.2 u hu hkey]
      · rename_i h
        have hnone : ∀ u ∈ ws, key u ≠ key v := fun u hu hkey => h ⟨u, hu, hkey⟩
        rw [List.mem_cons, ih, and_iff_left hnone]

/-- Of two lists of writes the later ones are left as they are, and of the earlier ones
those at places that the later ones leave alone. -/
theorem lastWrites_append (ws vs : List α) :
    lastWrites key (ws ++ vs)
      = (lastWrites key ws).filter (fun w => ∀ v ∈ vs, key v ≠ key w) ++ lastWrites key vs := by
  induction ws with
  | nil => rfl
  | cons w ws ih =>
      rw [List.cons_append, lastWrites, lastWrites, ih]
      by_cases hws : ∃ v ∈ ws, key v = key w
      · obtain ⟨v, hv, hkey⟩ := hws
        rw [if_pos ⟨v, List.mem_append_left _ hv, hkey⟩, if_pos ⟨v, hv, hkey⟩]
      · rw [if_neg hws]
        by_cases hvs : ∃ v ∈ vs, key v = key w
        · obtain ⟨v, hv, hkey⟩ := hvs
          have hnot : ¬ ∀ v ∈ vs, key v ≠ key w := fun h => h v hv hkey
          rw [if_pos ⟨v, List.mem_append_right _ hv, hkey⟩, List.filter_cons_of_neg (by rwa [decide_eq_true_iff])]
        · have hall : ∀ v ∈ vs, key v ≠ key w := fun v hv hkey => hvs ⟨v, hv, hkey⟩
          rw [if_neg, List.filter_cons_of_pos (by rwa [decide_eq_true_iff]),
            List.cons_append]
          rintro ⟨v, hv, hkey⟩
          rcases List.mem_append.1 hv with hv | hv
          · exact hws ⟨v, hv, hkey⟩
          · exact hvs ⟨v, hv, hkey⟩

/-- **When earlier writes leave nothing:** exactly when each goes to a place that is
written again. -/
theorem filter_lastWrites_eq_nil {ws vs : List α} :
    (lastWrites key ws).filter (fun w => ∀ v ∈ vs, key v ≠ key w) = [] ↔
      ∀ w ∈ ws, ∃ v ∈ vs, key v = key w := by
  rw [List.filter_eq_nil_iff]
  constructor
  · intro h w hw
    obtain ⟨w', hw', hkey⟩ : ∃ w', LastWrite key ws w' ∧ key w' = key w := exists_lastWrite hw
    have hwritten := h w' (mem_lastWrites.2 hw')
    rw [decide_eq_true_iff] at hwritten
    push Not at hwritten
    rwa [hkey] at hwritten
  · intro h w hw
    obtain ⟨v, hv, hkey⟩ := h w (mem_lastWrites.1 hw).mem
    rw [decide_eq_true_iff]
    exact fun hnot => hnot v hv hkey

/-- Writes made of others are left as those are, when their places are told apart
alike. -/
theorem lastWrites_map {ws : List β} {f : β → α} {place : β → κ}
    (h : ∀ v w, key (f v) = key (f w) ↔ place v = place w) :
    lastWrites key (ws.map f) = (lastWrites place ws).map f := by
  induction ws with
  | nil => rfl
  | cons w ws ih =>
      have hlater : (∃ v ∈ ws.map f, key v = key (f w)) ↔ ∃ v ∈ ws, place v = place w := by
        simp [h]
      rw [List.map_cons, lastWrites, lastWrites]
      by_cases hw : ∃ v ∈ ws, place v = place w
      · rw [if_pos hw, if_pos (hlater.2 hw), ih]
      · rw [if_neg hw, if_neg fun hv => hw (hlater.1 hv), ih, List.map_cons]

/-- **Writers that leave each other alone.**  If every write of some writers that is
left among theirs is left among all, what is left of them is what is left of theirs. -/
theorem filter_lastWrites {ws : List α} {p : α → Bool}
    (h : ∀ w, LastWrite key (ws.filter p) w → LastWrite key ws w) :
    (lastWrites key ws).filter p = lastWrites key (ws.filter p) := by
  induction ws with
  | nil => rfl
  | cons w ws ih =>
      have hrest : ∀ v, LastWrite key (ws.filter p) v → LastWrite key ws v := by
        intro v hv
        have hp : p v := (List.mem_filter.1 hv.mem).2
        have hfirst : LastWrite key ((w :: ws).filter p) v := by
          rw [List.filter_cons]
          split
          · exact lastWrite_cons.2 (.inr hv)
          · exact hv
        rcases lastWrite_cons.1 (h v hfirst) with ⟨rfl, hnone⟩ | hlast
        · exact absurd rfl (hnone v (List.mem_filter.1 hv.mem).1)
        · exact hlast
      have hih := ih hrest
      rw [lastWrites]
      by_cases hp : p w
      · rw [List.filter_cons_of_pos hp, lastWrites]
        by_cases hlater : ∃ v ∈ ws.filter p, key v = key w
        · obtain ⟨v, hv, hkey⟩ := hlater
          rw [if_pos ⟨v, (List.mem_filter.1 hv).1, hkey⟩, if_pos ⟨v, hv, hkey⟩, hih]
        · -- The write is left among those of its writers, so among all.
          have hleft : LastWrite key ((w :: ws).filter p) w := by
            rw [List.filter_cons_of_pos hp]
            exact lastWrite_cons.2 (.inl ⟨rfl, fun v hv hkey => hlater ⟨v, hv, hkey⟩⟩)
          have hnone : ∀ v ∈ ws, key v ≠ key w := by
            rcases lastWrite_cons.1 (h w hleft) with ⟨-, hnone⟩ | hlast
            · exact hnone
            · have hmem : w ∈ ws.filter p := List.mem_filter.2 ⟨hlast.mem, hp⟩
              exact absurd ⟨w, hmem, rfl⟩ hlater
          have hnot : ¬ ∃ v ∈ ws, key v = key w := fun ⟨v, hv, hkey⟩ => hnone v hv hkey
          rw [if_neg hnot, if_neg hlater, List.filter_cons_of_pos hp, hih]
      · rw [List.filter_cons_of_neg hp]
        split
        · exact hih
        · rw [List.filter_cons_of_neg hp, hih]

end LastWrites

end Machine
end CognitiveEngine
