/-
# Processes that share a state

Processes are started one after the other and take steps in any order.  Each has a state of
its own, and all of them read and change a shared one.

What a process knows of the shared state survives the others when these keep to a guarantee
that cannot break it: `RelyGuarantee` lists what is to be shown for the steps of one
process, and `RelyGuarantee.sound` is what follows for every state of every run;
`RelyGuarantee.exists_ended` carries the processes through to their ends.
-/

import Mathlib.Algebra.BigOperators.Group.List.Basic
import Mathlib.Algebra.GroupWithZero.Nat
import Mathlib.Logic.Relation

namespace CognitiveEngine
namespace Machine

variable {P σ : Type*}

/-- The processes, in the order they were started in, and what they share. -/
structure Parallel (P σ : Type*) where
  shared : σ
  procs : List P

namespace Parallel

/-- How processes start, and the steps of the process at a position. -/
structure Rules (P σ : Type*) where
  starts : P → Prop
  moves : ℕ → P → σ → P → σ → Prop

variable (rules : Rules P σ)

/-- A process is started, or one takes a step. -/
inductive Step : Parallel P σ → Parallel P σ → Prop
  | start {shared : σ} {procs : List P} {p : P} (hp : rules.starts p) :
      Step ⟨shared, procs⟩ ⟨shared, procs ++ [p]⟩
  | move {shared shared' : σ} {procs : List P} {i : ℕ} {p p' : P} (hp : procs[i]? = some p)
      (hmove : rules.moves i p shared p' shared') :
      Step ⟨shared, procs⟩ ⟨shared', procs.set i p'⟩

/-- Steps, one after the other. -/
def Runs : Parallel P σ → Parallel P σ → Prop := Relation.ReflTransGen (Step rules)

/-- **What is to be shown.**  `knows` is what a process knows of the shared state,
`guarantee` what it does to it, and `inv` what holds of it with some number of processes. -/
structure RelyGuarantee (knows : ℕ → P → σ → Prop) (guarantee : ℕ → σ → σ → Prop)
    (inv : ℕ → σ → Prop) : Prop where
  start : ∀ {n : ℕ} {p : P} {s : σ}, rules.starts p → inv n s → knows n p s
  grow : ∀ {n : ℕ} {s : σ}, inv n s → inv (n + 1) s
  keeps : ∀ {n i : ℕ} {p p' : P} {s s' : σ}, rules.moves i p s p' s' → i < n → inv n s →
    knows i p s → inv n s' ∧ guarantee i s s' ∧ knows i p' s'
  stable : ∀ {i j : ℕ} {p : P} {s s' : σ}, j ≠ i → guarantee i s s' → knows j p s → knows j p s'

/-- What holds of the processes and the shared state. -/
structure Sound (knows : ℕ → P → σ → Prop) (inv : ℕ → σ → Prop) (s : Parallel P σ) : Prop where
  inv : inv s.procs.length s.shared
  knows : ∀ i p, s.procs[i]? = some p → knows i p s.shared

variable {rules} {knows : ℕ → P → σ → Prop} {guarantee : ℕ → σ → σ → Prop} {inv : ℕ → σ → Prop}

/-- Nothing has been started. -/
theorem sound_start {shared : σ} (h : inv 0 shared) : Sound knows inv ⟨shared, []⟩ where
  inv := h
  knows i p hp := by cases hp

theorem RelyGuarantee.sound_step (h : RelyGuarantee rules knows guarantee inv)
    {s s' : Parallel P σ} (hstep : Step rules s s') (hs : Sound knows inv s) :
    Sound knows inv s' := by
  cases hstep with
  | @start shared procs p hp =>
      refine ⟨?_, fun i q hq => ?_⟩
      · rw [List.length_append, List.length_singleton]
        exact h.grow hs.inv
      · rcases Nat.lt_or_ge i procs.length with hi | hi
        · rw [List.getElem?_append_left hi] at hq
          exact hs.knows i q hq
        · rw [List.getElem?_append_right hi, List.getElem?_singleton] at hq
          split_ifs at hq with hzero
          obtain rfl : i = procs.length := by omega
          exact Option.some.inj hq ▸ h.start hp hs.inv
  | @move shared shared' procs i p p' hp hmove =>
      have hi : i < procs.length := (List.getElem?_eq_some_iff.1 hp).1
      obtain ⟨hinv, hguarantee, hknows⟩ := h.keeps hmove hi hs.inv (hs.knows i p hp)
      refine ⟨?_, fun j q hq => ?_⟩
      · rwa [List.length_set]
      · by_cases hj : j = i
        · subst hj
          rw [List.getElem?_set_self hi] at hq
          exact Option.some.inj hq ▸ hknows
        · rw [List.getElem?_set_ne (Ne.symm hj)] at hq
          exact h.stable hj hguarantee (hs.knows j q hq)

/-- **Every state of every run is sound.** -/
theorem RelyGuarantee.sound (h : RelyGuarantee rules knows guarantee inv)
    {s s' : Parallel P σ} (hruns : Runs rules s s') (hs : Sound knows inv s) :
    Sound knows inv s' := by
  induction hruns with
  | refl => exact hs
  | tail _ hstep ih => exact h.sound_step hstep ih

/-- **What every guarantee implies holds from one end of a run to the other.** -/
theorem RelyGuarantee.rel_of_runs (h : RelyGuarantee rules knows guarantee inv)
    {R : σ → σ → Prop} (hrefl : ∀ s, R s s) (htrans : ∀ {a b c}, R a b → R b c → R a c)
    (hguarantee : ∀ {i s s'}, guarantee i s s' → R s s') {s s' : Parallel P σ}
    (hruns : Runs rules s s') (hs : Sound knows inv s) : R s.shared s'.shared := by
  induction hruns with
  | refl => exact hrefl _
  | @tail t u hrun hstep ih =>
      refine htrans ih ?_
      cases hstep with
      | start => exact hrefl _
      | move hp hmove =>
          have ht := h.sound hrun hs
          have hi := (List.getElem?_eq_some_iff.1 hp).1
          exact hguarantee (h.keeps hmove hi ht.inv (ht.knows _ _ hp)).2.1

/-- **What the guarantees of the others imply holds from the end of a process on**, which
stays where it is. -/
theorem RelyGuarantee.rel_of_ended (h : RelyGuarantee rules knows guarantee inv)
    {R : σ → σ → Prop} (hrefl : ∀ s, R s s) (htrans : ∀ {a b c}, R a b → R b c → R a c)
    {i : ℕ} {p : P} (hend : ∀ t p' t', ¬ rules.moves i p t p' t')
    (hguarantee : ∀ {j t t'}, j ≠ i → guarantee j t t' → R t t') {s s' : Parallel P σ}
    (hruns : Runs rules s s') (hs : Sound knows inv s) (hp : s.procs[i]? = some p) :
    s'.procs[i]? = some p ∧ R s.shared s'.shared := by
  induction hruns with
  | refl => exact ⟨hp, hrefl _⟩
  | @tail t u hrun hstep ih =>
      obtain ⟨ht, hrel⟩ := ih
      cases hstep with
      | start => exact ⟨by rwa [List.getElem?_append_left (List.getElem?_eq_some_iff.1 ht).1], hrel⟩
      | @move shared shared' procs j q q' hq hmove =>
          have hj : j ≠ i := by
            rintro rfl
            obtain rfl := Option.some.inj (hq.symm.trans ht)
            exact hend _ _ _ hmove
          have hsound := h.sound hrun hs
          have hlt := (List.getElem?_eq_some_iff.1 hq).1
          refine ⟨by rwa [List.getElem?_set_ne hj], htrans hrel (hguarantee hj ?_)⟩
          exact (h.keeps hmove hlt hsound.inv (hsound.knows _ _ hq)).2.1

/-! ### The end -/

/-- A process has come closer to its end. -/
theorem sum_map_set_lt {rank : P → ℕ} {procs : List P} {i : ℕ} {p p' : P}
    (hp : procs[i]? = some p) (hlt : rank p' < rank p) :
    ((procs.set i p').map rank).sum < (procs.map rank).sum := by
  obtain ⟨hi, hget⟩ := List.getElem?_eq_some_iff.1 hp
  have hsplit : procs = procs.take i ++ p :: procs.drop (i + 1) := by
    rw [← hget, List.getElem_cons_drop, List.take_append_drop]
  rw [List.set_eq_take_append_cons_drop, if_pos hi]
  conv_rhs => rw [hsplit]
  simp only [List.map_append, List.map_cons, List.sum_append, List.sum_cons]
  omega

/-- **The processes can be carried through to their ends.**  Where every process that runs
has a step by which it comes closer to its end, some run ends them all. -/
theorem RelyGuarantee.exists_ended (h : RelyGuarantee rules knows guarantee inv) (rank : P → ℕ)
    {running fine : P → Prop}
    (hgo : ∀ i p t, knows i p t → running p →
      ∃ p' t', rules.moves i p t p' t' ∧ rank p' < rank p ∧ fine p')
    {s : Parallel P σ} (hs : Sound knows inv s) (hfine : ∀ p ∈ s.procs, fine p) :
    ∃ s', Runs rules s s' ∧ ∀ p ∈ s'.procs, ¬ running p ∧ fine p := by
  induction hn : (s.procs.map rank).sum using Nat.strongRecOn generalizing s with
  | ind n ih =>
      by_cases hall : ∀ p ∈ s.procs, ¬ running p
      · exact ⟨s, .refl, fun p hp => ⟨hall p hp, hfine p hp⟩⟩
      · obtain ⟨p, hp, hrunning⟩ : ∃ p ∈ s.procs, running p := by
          by_contra hnone
          exact hall fun p hp hrunning => hnone ⟨p, hp, hrunning⟩
        obtain ⟨i, hi⟩ := List.mem_iff_getElem?.1 hp
        obtain ⟨p', t', hmove, hlt, hfine'⟩ := hgo i p _ (hs.knows i p hi) hrunning
        have hstep : Step rules s ⟨t', s.procs.set i p'⟩ := .move hi hmove
        obtain ⟨s', hruns, hend⟩ := ih _ (hn ▸ sum_map_set_lt hi hlt) (h.sound_step hstep hs)
          (fun q hq => (List.mem_or_eq_of_mem_set hq).elim (hfine q) fun heq => heq ▸ hfine') rfl
        exact ⟨s', .head hstep hruns, hend⟩

end Parallel

end Machine
end CognitiveEngine
