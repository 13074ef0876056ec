/-
# Histories of a transition relation

A history of `R` from the initial states `I` is the list of the states passed
through, the most recent first, so that "the run so far" is one value and every
count over it is a recursion on a list.  `steps` lists its transitions as pairs
`(before, after)`, and `since mark` is the part of it after the last transition
that `mark` singles out: the counters of a program that are reset now and then
are sums over such a part.

`History.forall_mem` is the invariant rule.  `History.rec_head` is the rule for
what the history so far makes of the latest state, and `History.throughout_iff`
the one for the exact condition under which a property holds all along a run.
`sumSince_cons_of_mark` and `sumSince_cons_of_not_mark` are the two
equations every reset counter is compared with.
-/

import Mathlib.Data.List.Basic
import Mathlib.Algebra.BigOperators.Group.List.Basic
import Mathlib.Algebra.GroupWithZero.Nat

namespace CognitiveEngine
namespace Machine

variable {σ : Type*}

/-- The list of states a run has passed through, most recent first. -/
inductive History (I : σ → Prop) (R : σ → σ → Prop) : List σ → Prop
  | start {s : σ} (hs : I s) : History I R [s]
  | next {s s' : σ} {h : List σ} (hh : History I R (s :: h)) (hR : R s s') :
      History I R (s' :: s :: h)

/-- The transitions of a list of states kept most recent first, each as the pair
of the state before it and the state after it. -/
def steps : List σ → List (σ × σ)
  | s' :: s :: h => (s, s') :: steps (s :: h)
  | _ => []

@[simp] theorem steps_singleton (s : σ) : steps [s] = [] := rfl

@[simp] theorem steps_cons_cons (s' s : σ) (h : List σ) :
    steps (s' :: s :: h) = (s, s') :: steps (s :: h) := rfl

variable {I : σ → Prop} {R : σ → σ → Prop}

/-- **Invariant rule.**  What holds initially and is kept by every transition
holds of every state of every history. -/
theorem History.forall_mem {P : σ → Prop} (h₀ : ∀ s, I s → P s)
    (hs : ∀ s s', P s → R s s' → P s') {h : List σ} (hh : History I R h) :
    ∀ s ∈ h, P s := by
  induction hh with
  | start hi =>
      intro s hs'
      rw [List.mem_singleton] at hs'
      exact hs' ▸ h₀ _ hi
  | next hh hR ih =>
      intro s hs'
      rcases List.mem_cons.1 hs' with rfl | hs'
      · exact hs _ _ (ih _ List.mem_cons_self) hR
      · exact ih s hs'

/-- **Rule for what a history makes of its latest state.**  The property is
established at the first state and carried over each transition, whose source has
it with the history before it. -/
theorem History.rec_head {P : σ → List σ → Prop} (h₀ : ∀ s, I s → P s [])
    (hs : ∀ s s' h, History I R (s :: h) → P s h → R s s' → P s' (s :: h))
    {s : σ} {h : List σ} (hh : History I R (s :: h)) : P s h := by
  generalize hl : s :: h = l at hh
  induction hh generalizing s h with
  | start hi =>
      obtain ⟨rfl, rfl⟩ := List.cons.inj hl
      exact h₀ _ hi
  | next hh hR ih =>
      obtain ⟨rfl, rfl⟩ := List.cons.inj hl
      exact hs _ _ _ hh (ih rfl) hR

/-- A history is not empty. -/
theorem History.ne_nil {h : List σ} (hh : History I R h) : h ≠ [] := by
  cases hh <;> simp

/-- What is left of a history when its latest states are dropped is a history. -/
theorem History.of_suffix {h h' : List σ} (hh : History I R h) (hs : h' <:+ h) (hne : h' ≠ []) :
    History I R h' := by
  induction hh with
  | @start s hi =>
      rcases List.suffix_cons_iff.1 hs with rfl | hs
      · exact .start hi
      · exact absurd (List.suffix_nil.1 hs) hne
  | next hh hR ih =>
      rcases List.suffix_cons_iff.1 hs with rfl | hs
      · exact .next hh hR
      · exact ih hs

/-- The two ends of a transition are states of the list. -/
theorem mem_of_mem_steps {h : List σ} {p : σ × σ} (hp : p ∈ steps h) : p.1 ∈ h ∧ p.2 ∈ h := by
  induction h with
  | nil => exact absurd hp List.not_mem_nil
  | cons s' h ih =>
      cases h with
      | nil => exact absurd hp List.not_mem_nil
      | cons s h =>
          rcases List.mem_cons.1 hp with rfl | hp
          · exact ⟨List.mem_cons_of_mem _ List.mem_cons_self, List.mem_cons_self⟩
          · exact ⟨List.mem_cons_of_mem _ (ih hp).1, List.mem_cons_of_mem _ (ih hp).2⟩

/-- The transitions of a history are steps of the relation. -/
theorem History.rel_of_mem_steps {h : List σ} (hh : History I R h) {p : σ × σ}
    (hp : p ∈ steps h) : R p.1 p.2 := by
  induction hh with
  | start => exact absurd hp List.not_mem_nil
  | next hh hR ih =>
      rcases List.mem_cons.1 hp with rfl | hp
      · exact hR
      · exact ih hp

/-- A history that is looked at through a function of its states. -/
theorem History.map {τ : Type*} {J : τ → Prop} {S : τ → τ → Prop} {g : σ → τ}
    (hI : ∀ s, I s → J (g s)) (hR : ∀ s s', R s s' → S (g s) (g s')) {h : List σ}
    (hh : History I R h) : History J S (h.map g) := by
  induction hh with
  | start hi => exact .start (hI _ hi)
  | next hh hs ih => exact .next ih (hR _ _ hs)

/-- `P` holds of the run at every state it reached. -/
def Throughout (P : List σ → Prop) (h : List σ) : Prop :=
  ∀ s rest, s :: rest <:+ h → P (s :: rest)

theorem throughout_cons {P : List σ → Prop} {s : σ} {h : List σ} :
    Throughout P (s :: h) ↔ P (s :: h) ∧ Throughout P h := by
  constructor
  · intro hP
    exact ⟨hP s h List.suffix_rfl, fun t rest ht => hP t rest (ht.trans (List.suffix_cons s h))⟩
  · rintro ⟨hs, hP⟩ t rest ht
    rcases List.suffix_cons_iff.1 ht with heq | ht
    · rw [heq]; exact hs
    · exact hP t rest ht

@[simp] theorem throughout_singleton {P : List σ → Prop} {s : σ} :
    Throughout P [s] ↔ P [s] := by
  rw [throughout_cons, and_iff_left_iff_imp]
  intro _ t rest ht
  exact absurd (List.suffix_nil.1 ht) (List.cons_ne_nil t rest)

/-- Whether a property held all along a given run can be computed. -/
instance decidableThroughout {P : List σ → Prop} [DecidablePred P] :
    ∀ h : List σ, Decidable (Throughout P h)
  | [] => .isTrue fun _ _ ht => absurd (List.suffix_nil.1 ht) (List.cons_ne_nil _ _)
  | s :: h =>
      have := decidableThroughout (P := P) h
      decidable_of_iff (P (s :: h) ∧ Throughout P h) throughout_cons.symm

/-- A property of every state reached holds of the latest one. -/
theorem Throughout.head {P : List σ → Prop} {s : σ} {h : List σ} (hP : Throughout P (s :: h)) :
    P (s :: h) :=
  (throughout_cons.1 hP).1

/-- **Rule for exact conditions.**  If, as long as `P` has held throughout, a
transition keeps it exactly when the run it leads to meets `Q`, then `P` holds
throughout exactly when `Q` does. -/
theorem History.throughout_iff {P Q : List σ → Prop} (h₀ : ∀ s, I s → (P [s] ↔ Q [s]))
    (hs : ∀ s s' h, History I R (s :: h) → R s s' → Throughout P (s :: h) →
      (P (s' :: s :: h) ↔ Q (s' :: s :: h))) {h : List σ} (hh : History I R h) :
    Throughout P h ↔ Throughout Q h := by
  induction hh with
  | start hi => simpa using h₀ _ hi
  | @next s s' h hh hR ih =>
      rw [throughout_cons, @throughout_cons _ Q, ← ih]
      exact and_congr_left fun hP => hs s s' h hh hR hP

/-- The same rule for a condition on the transitions. -/
theorem History.throughout_iff_steps {P : List σ → Prop} {Q : σ → σ → Prop}
    (h₀ : ∀ s, I s → P [s])
    (hs : ∀ s s' h, History I R (s :: h) → R s s' → Throughout P (s :: h) →
      (P (s' :: s :: h) ↔ Q s s')) {h : List σ} (hh : History I R h) :
    Throughout P h ↔ ∀ p ∈ steps h, Q p.1 p.2 := by
  induction hh with
  | start hi => simpa using h₀ _ hi
  | @next s s' h hh hR ih =>
      rw [throughout_cons, steps_cons_cons, List.forall_mem_cons, ← ih]
      exact and_congr_left fun hP => hs s s' h hh hR hP

/-! ### The part of a history since the last marked transition -/

variable (mark : σ → σ → Prop) [DecidableRel mark]

/-- The states since the last transition `mark` holds of, the state it leads to
included; the whole list when there is none. -/
def since : List σ → List σ
  | s' :: s :: h => if mark s s' then [s'] else s' :: since (s :: h)
  | h => h

theorem since_cons_of_mark {s s' : σ} (hm : mark s s') (h : List σ) :
    since mark (s' :: s :: h) = [s'] := by
  simp [since, hm]

theorem since_cons_of_not_mark {s s' : σ} (hm : ¬ mark s s') (h : List σ) :
    since mark (s' :: s :: h) = s' :: since mark (s :: h) := by
  simp [since, hm]

/-- The sum of a weight over the states since the last marked transition. -/
def sumSince (w : σ → ℕ) (h : List σ) : ℕ := ((since mark h).map w).sum

variable {mark}

theorem sumSince_cons_of_mark {w : σ → ℕ} {s s' : σ} (hm : mark s s') (h : List σ) :
    sumSince mark w (s' :: s :: h) = w s' := by
  simp [sumSince, since_cons_of_mark mark hm]

theorem sumSince_cons_of_not_mark {w : σ → ℕ} {s s' : σ} (hm : ¬ mark s s') (h : List σ) :
    sumSince mark w (s' :: s :: h) = w s' + sumSince mark w (s :: h) := by
  simp [sumSince, since_cons_of_not_mark mark hm]

/-- The transitions since the last marked one, the latest first. -/
def stepsSince (mark : σ → σ → Prop) [DecidableRel mark] (h : List σ) : List (σ × σ) :=
  steps (since mark h)

theorem stepsSince_cons_of_mark {s s' : σ} (hm : mark s s') (h : List σ) :
    stepsSince mark (s' :: s :: h) = [] := by
  rw [stepsSince, since_cons_of_mark mark hm, steps_singleton]

theorem stepsSince_cons_of_not_mark {s s' : σ} (hm : ¬ mark s s') (h : List σ) :
    stepsSince mark (s' :: s :: h) = (s, s') :: stepsSince mark (s :: h) := by
  obtain ⟨rest, hrest⟩ : ∃ rest, since mark (s :: h) = s :: rest := by
    cases h with
    | nil => exact ⟨[], rfl⟩
    | cons t h =>
        by_cases ht : mark t s
        · exact ⟨[], since_cons_of_mark mark ht h⟩
        · exact ⟨_, since_cons_of_not_mark mark ht h⟩
  rw [stepsSince, since_cons_of_not_mark mark hm, stepsSince, hrest, steps_cons_cons]

/-! ### Segments -/

/-- A list of states cut after every marked transition, the latest segment first
and each segment with its latest state first. -/
def segments (mark : σ → σ → Prop) [DecidableRel mark] : List σ → List (List σ)
  | s' :: s :: h =>
      if mark s s' then [s'] :: segments mark (s :: h)
      else match segments mark (s :: h) with
        | seg :: rest => (s' :: seg) :: rest
        | [] => [[s']]
  | [s] => [[s]]
  | [] => []

theorem segments_cons_of_mark {s s' : σ} (hm : mark s s') (h : List σ) :
    segments mark (s' :: s :: h) = [s'] :: segments mark (s :: h) := by
  rw [segments, if_pos hm]

theorem segments_cons_of_not_mark {s s' : σ} (hm : ¬ mark s s') {h : List σ} {seg : List σ}
    {rest : List (List σ)} (hseg : segments mark (s :: h) = seg :: rest) :
    segments mark (s' :: s :: h) = (s' :: seg) :: rest := by
  rw [segments, if_neg hm, hseg]

theorem segments_ne_nil (mark : σ → σ → Prop) [DecidableRel mark] (s : σ) (h : List σ) :
    segments mark (s :: h) ≠ [] := by
  cases h with
  | nil => exact List.cons_ne_nil _ _
  | cons t h =>
      unfold segments
      split_ifs
      · exact List.cons_ne_nil _ _
      · split <;> exact List.cons_ne_nil _ _

/-- Cutting loses no state. -/
theorem flatten_segments (mark : σ → σ → Prop) [DecidableRel mark] :
    ∀ h : List σ, (segments mark h).flatten = h
  | [] => rfl
  | [_] => rfl
  | s' :: s :: h => by
      have ih := flatten_segments mark (s :: h)
      by_cases hm : mark s s'
      · rw [segments_cons_of_mark hm, List.flatten_cons, ih, List.singleton_append]
      · obtain ⟨seg, rest, hseg⟩ := List.exists_cons_of_ne_nil (segments_ne_nil mark s h)
        rw [segments_cons_of_not_mark hm hseg, List.flatten_cons, List.cons_append,
          ← List.flatten_cons, ← hseg, ih]

end Machine
end CognitiveEngine
