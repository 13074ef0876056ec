/-
# Keys joined with a separator

A pair of texts written one after the other with a separator between them.  The
joined text does not say where the first part ends: `joined_eq_iff` lists every
way two pairs are joined to the same text.  They are equal, or one of them goes on
with the separator where the other ends, and what it goes on with opens the other
one's second part.  `text_joined_eq_iff` is the same for texts.

A text that is split at the separator comes apart into parts without it, and two parts
without it are joined to a text that is split into them (`splitOn_joined`).  A number
written behind a text needs no separator (`append_repr_inj`).
-/

import Mathlib.Data.List.Basic

namespace CognitiveEngine
namespace Machine

variable {α : Type*}

/-- The two parts with the separator between them. -/
def joined (sep : α) (u s : List α) : List α := u ++ sep :: s

/-- The first part of the left pair goes on where that of the right pair ends. -/
def Overhangs (sep : α) (u s v t : List α) : Prop :=
  ∃ x, u = joined sep v x ∧ t = joined sep x s

/-- An overhang moves the separator, so the two pairs are joined to one text. -/
theorem Overhangs.joined_eq {sep : α} {u s v t : List α} (h : Overhangs sep u s v t) :
    joined sep u s = joined sep v t := by
  obtain ⟨x, rfl, rfl⟩ := h
  simp [joined]

/-- Two pairs that overhang differ. -/
theorem Overhangs.ne {sep : α} {u s v t : List α} (h : Overhangs sep u s v t) : u ≠ v := by
  obtain ⟨x, rfl, rfl⟩ := h
  intro heq
  have := congrArg List.length heq
  simp only [joined, List.length_append, List.length_cons] at this
  omega

/-- **When two pairs are joined to the same text.** -/
theorem joined_eq_iff {sep : α} {u s v t : List α} :
    joined sep u s = joined sep v t ↔
      (u = v ∧ s = t) ∨ Overhangs sep u s v t ∨ Overhangs sep v t u s := by
  constructor
  · intro h
    rcases List.append_eq_append_iff.1 h with ⟨x, hv, hs⟩ | ⟨x, hu, ht⟩
    · cases x with
      | nil =>
          simp only [List.append_nil, List.nil_append, List.cons.injEq, true_and] at hv hs
          exact .inl ⟨hv.symm, hs⟩
      | cons a x =>
          simp only [List.cons_append, List.cons.injEq] at hs
          obtain ⟨rfl, rfl⟩ := hs
          exact .inr (.inr ⟨x, hv, rfl⟩)
    · cases x with
      | nil =>
          simp only [List.append_nil, List.nil_append, List.cons.injEq, true_and] at hu ht
          exact .inl ⟨hu, ht.symm⟩
      | cons a x =>
          simp only [List.cons_append, List.cons.injEq] at ht
          obtain ⟨rfl, rfl⟩ := ht
          exact .inr (.inl ⟨x, hu, rfl⟩)
  · rintro (⟨rfl, rfl⟩ | h | h)
    · rfl
    · exact h.joined_eq
    · exact h.joined_eq.symm

/-! ### Splitting -/

section Splitting

variable [BEq α] [LawfulBEq α] {sep : α}

theorem not_mem_of_mem_splitOn {l part : List α} (h : part ∈ l.splitOn sep) : sep ∉ part := by
  induction l generalizing part with
  | nil =>
      rw [List.splitOn_nil, List.mem_singleton] at h
      rw [h]
      exact List.not_mem_nil
  | cons a l ih =>
      rw [List.splitOn_cons_eq_if_modifyHead] at h
      by_cases ha : a == sep
      · rw [if_pos ha, List.mem_cons] at h
        rcases h with rfl | h
        · exact List.not_mem_nil
        · exact ih h
      · rw [if_neg ha] at h
        obtain ⟨first, rest, hparts⟩ := List.exists_cons_of_ne_nil (List.splitOn_ne_nil sep l)
        rw [hparts, List.modifyHead_cons, List.mem_cons] at h
        rw [hparts] at ih
        rcases h with rfl | h
        · rw [List.mem_cons, not_or]
          exact ⟨fun hsep => ha (by rw [hsep]; exact BEq.rfl), ih List.mem_cons_self⟩
        · exact ih (List.mem_cons_of_mem _ h)

/-- **A part without the separator** is the first of what is split. -/
theorem splitOn_joined {u s : List α} (hu : sep ∉ u) :
    (joined sep u s).splitOn sep = u :: s.splitOn sep := by
  rw [joined, List.splitOn_append_cons_self, List.splitOn_eq_singleton hu]
  rfl

/-- Two parts without the separator are what is joined of them. -/
theorem splitOn_eq_pair {u s : List α} (hu : sep ∉ u) (hs : sep ∉ s) :
    (joined sep u s).splitOn sep = [u, s] := by
  rw [splitOn_joined hu, List.splitOn_eq_singleton hs]

end Splitting

/-! ### Texts -/

section Texts

variable {sep : String}

/-- The first text of the left pair goes on where that of the right pair ends. -/
def TextOverhangs (sep u s v t : String) : Prop := ∃ x, u = v ++ sep ++ x ∧ t = x ++ sep ++ s

theorem toList_joined {c : Char} (hsep : sep.toList = [c]) (a b : String) :
    (a ++ sep ++ b).toList = joined c a.toList b.toList := by
  rw [String.toList_append, String.toList_append, hsep, List.append_assoc]
  rfl

theorem eq_joined_iff {c : Char} (hsep : sep.toList = [c]) {a u s : String} :
    a = u ++ sep ++ s ↔ a.toList = joined c u.toList s.toList := by
  rw [← toList_joined hsep, String.toList_inj]

theorem textOverhangs_iff {c : Char} (hsep : sep.toList = [c]) {u s v t : String} :
    TextOverhangs sep u s v t ↔ Overhangs c u.toList s.toList v.toList t.toList := by
  constructor
  · rintro ⟨x, hu, ht⟩
    exact ⟨x.toList, (eq_joined_iff hsep).1 hu, (eq_joined_iff hsep).1 ht⟩
  · rintro ⟨x, hu, ht⟩
    exact ⟨String.ofList x, (eq_joined_iff hsep).2 (by simpa using hu),
      (eq_joined_iff hsep).2 (by simpa using ht)⟩

/-- Texts that overhang differ. -/
theorem TextOverhangs.ne {c : Char} (hsep : sep.toList = [c]) {u s v t : String}
    (h : TextOverhangs sep u s v t) : u ≠ v :=
  fun huv => ((textOverhangs_iff hsep).1 h).ne (congrArg String.toList huv)

/-- **When two pairs of texts are joined to the same text.** -/
theorem text_joined_eq_iff {c : Char} (hsep : sep.toList = [c]) {u s v t : String} :
    u ++ sep ++ s = v ++ sep ++ t ↔
      (u = v ∧ s = t) ∨ TextOverhangs sep u s v t ∨ TextOverhangs sep v t u s := by
  rw [eq_joined_iff hsep, toList_joined hsep, joined_eq_iff, textOverhangs_iff hsep,
    textOverhangs_iff hsep, String.toList_inj, String.toList_inj]

/-- Texts that end in texts of one length are parted alike. -/
theorem text_joined_inj_right {u s v t : String} (h : u ++ sep ++ s = v ++ sep ++ t)
    (hlength : s.toList.length = t.toList.length) : u = v ∧ s = t := by
  have hlist := congrArg String.toList h
  rw [String.toList_append, String.toList_append, String.toList_append, String.toList_append]
    at hlist
  obtain ⟨hfront, hback⟩ := List.append_inj' hlist hlength
  exact ⟨String.toList_inj.1 (List.append_inj' hfront rfl).1, String.toList_inj.1 hback⟩

/-- Texts that begin with texts of one length are parted alike. -/
theorem text_joined_inj_left {u s v t : String} (h : u ++ sep ++ s = v ++ sep ++ t)
    (hlength : u.toList.length = v.toList.length) : u = v ∧ s = t := by
  have hlist := congrArg String.toList h
  rw [String.toList_append, String.toList_append, String.toList_append, String.toList_append,
    List.append_assoc, List.append_assoc] at hlist
  obtain ⟨hfront, hback⟩ := List.append_inj hlist hlength
  exact ⟨String.toList_inj.1 hfront, String.toList_inj.1 (List.append_inj hback rfl).2⟩

/-- Last texts without the separator are found from the right, whatever stands before
them. -/
theorem text_joined_inj_of_notMem {c : Char} (hsep : sep.toList = [c]) {u s v t : String}
    (hs : c ∉ s.toList) (ht : c ∉ t.toList) (h : u ++ sep ++ s = v ++ sep ++ t) :
    u = v ∧ s = t := by
  have hwithout : ∀ {x y z : String}, c ∉ z.toList → z ≠ x ++ sep ++ y := by
    rintro x y z hz rfl
    rw [toList_joined hsep] at hz
    exact hz (List.mem_append_right _ List.mem_cons_self)
  rcases (text_joined_eq_iff hsep).1 h with heq | ⟨x, -, hover⟩ | ⟨x, -, hover⟩
  · exact heq
  · exact absurd hover (hwithout ht)
  · exact absurd hover (hwithout hs)

end Texts

/-- **Numbered texts tell their numbers**, whose digits can be read back. -/
theorem append_repr_inj {text : String} {m n : ℕ} :
    text ++ Nat.repr m = text ++ Nat.repr n ↔ m = n := by
  refine ⟨fun h => ?_, fun h => by rw [h]⟩
  have hread := congrArg (fun digits => Nat.ofDigitChars 10 digits.toList 0)
    ((String.append_right_inj _).1 h)
  simpa using hread

end Machine
end CognitiveEngine
