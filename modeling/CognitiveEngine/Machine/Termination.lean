/-
# Termination by a ranking

A `Ranking` of a relation is an invariant the relation keeps together with a value
in a well-founded order that every step from an invariant state lowers.
`Ranking.no_infinite_run` is what it gives for a relation.

For a machine that is handed one input per step, `runInputs` feeds it a stream of
inputs.  `Ranking.reaches_final` is the rule: when every state of the invariant
that is not final takes a ranked step on every input, every stream of inputs
leads to a final state, and no step on the way fails.

The ranks are made of pairs and counts; the last section says what makes these fall.
-/

import CognitiveEngine.Machine.Fallible
import Mathlib.Data.List.Count
import Mathlib.Data.Prod.Lex
import Mathlib.Order.WellFounded

namespace CognitiveEngine
namespace Machine

variable {σ ι ε α : Type*}

/-- An invariant of `R` and a rank that every step of `R` from it lowers. -/
structure Ranking (R : σ → σ → Prop) (α : Type*) [Preorder α] where
  inv : σ → Prop
  rank : σ → α
  inv_step : ∀ {s s'}, inv s → R s s' → inv s'
  rank_lt : ∀ {s s'}, inv s → R s s' → rank s' < rank s

namespace Ranking

variable {R : σ → σ → Prop} [Preorder α] [WellFoundedLT α] (r : Ranking R α)
include r

/-- **A ranked relation has no infinite run.** -/
theorem no_infinite_run {f : ℕ → σ} (h₀ : r.inv (f 0)) : ¬ ∀ n, R (f n) (f (n + 1)) := by
  intro hR
  have hinv : ∀ n, r.inv (f n) := by
    intro n
    induction n with
    | zero => exact h₀
    | succ n ih => exact r.inv_step ih (hR n)
  obtain ⟨n, hn⟩ := WellFounded.not_rel_apply_succ (r := (· < ·)) fun n => r.rank (f n)
  exact hn (r.rank_lt (hinv n) (hR n))

end Ranking

/-- The state after the first `n` inputs of a stream. -/
def runInputs (step : ι → σ → Except ε σ) : (ℕ → ι) → σ → ℕ → Except ε σ
  | _, s, 0 => .ok s
  | input, s, n + 1 => step (input 0) s >>= fun s' => runInputs step (fun i => input (i + 1)) s' n

namespace Ranking

variable {R : σ → σ → Prop} [Preorder α] [WellFoundedLT α] (r : Ranking R α)

/-- **Every stream of inputs leads to a final state**, when an invariant state
that is not final takes a step of the ranked relation on every input. -/
theorem reaches_final {step : ι → σ → Except ε σ} {final : σ → Prop}
    (hstep : ∀ s, r.inv s → ¬ final s → ∀ i, ∃ s', step i s = .ok s' ∧ R s s')
    (input : ℕ → ι) {s : σ} (hs : r.inv s) :
    ∃ n s', runInputs step input s n = .ok s' ∧ final s' := by
  -- induction on the rank of the state, for all streams at once
  induction hrank : r.rank s using WellFoundedLT.induction generalizing s input with
  | ind a ih =>
      by_cases hf : final s
      · exact ⟨0, s, rfl, hf⟩
      · obtain ⟨s', hok, hR⟩ := hstep s hs hf (input 0)
        have hlt : r.rank s' < a := hrank ▸ r.rank_lt hs hR
        obtain ⟨n, t, hrun, ht⟩ :=
          ih _ hlt (fun i => input (i + 1)) (r.inv_step hs hR) rfl
        refine ⟨n + 1, t, ?_, ht⟩
        rw [runInputs, hok, ok_bind]
        exact hrun

end Ranking

/-! ### Ranks that fall -/

/-- Lowering the first component of a lexicographic rank. -/
theorem lex_lt_of_fst_lt {β : Type*} [Preorder α] [Preorder β] {a a' : α} (b b' : β)
    (h : a' < a) : toLex (a', b') < toLex (a, b) :=
  Prod.Lex.toLex_lt_toLex.2 (.inl h)

/-- Lowering the second component of a lexicographic rank, the first not growing. -/
theorem lex_lt_of_snd_lt {β : Type*} [PartialOrder α] [Preorder β] {a a' : α} {b b' : β}
    (ha : a' ≤ a) (hb : b' < b) : toLex (a', b') < toLex (a, b) := by
  rcases ha.lt_or_eq with h | h
  · exact lex_lt_of_fst_lt b b' h
  · exact Prod.Lex.toLex_lt_toLex.2 (.inr ⟨h, hb⟩)

/-- Changing items counts no more when no item begins to count. -/
theorem countP_map_le {p : α → Bool} {f : α → α} {l : List α} (hf : ∀ a ∈ l, p (f a) → p a) :
    (l.map f).countP p ≤ l.countP p := by
  rw [List.countP_map]
  exact List.countP_mono_left hf

/-- It counts fewer when also one ceases to. -/
theorem countP_map_lt {p : α → Bool} {f : α → α} {l : List α} (hf : ∀ a ∈ l, p (f a) → p a)
    {a : α} (ha : a ∈ l) (hp : p a) (hn : ¬ p (f a)) : (l.map f).countP p < l.countP p := by
  obtain ⟨before, after, rfl⟩ := List.append_of_mem ha
  rw [List.forall_mem_append, List.forall_mem_cons] at hf
  have hbefore := countP_map_le hf.1
  have hafter := countP_map_le hf.2.2
  rw [List.map_append, List.countP_append, List.countP_append, List.map_cons,
    List.countP_cons_of_neg hn, List.countP_cons_of_pos hp]
  omega

end Machine
end CognitiveEngine
