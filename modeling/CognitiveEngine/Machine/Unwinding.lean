/-
# Programs that may be broken off anywhere

A program with effects, with points at which it may raise or be cancelled, and with the
two constructs that still run something then: `rescue`, for what has raised, and
`ensure`, whose last part runs however the first one ended.  `Runs` lists the effects of
a run and says how it ended.

`Weighs w p d` says that every run of `p` comes to the total weight `d`, wherever it was
broken off.  Its rules are those of the constructs: a sequence is safe to break off when
its second part weighs nothing (`Weighs.seq`), or when the first part cannot be broken off
(`Weighs.effect_seq`), and `Weighs.ensure` adds what the last part weighs on every way out.
-/

import Mathlib.Algebra.BigOperators.Group.List.Basic
import Mathlib.Algebra.Ring.Int.Defs

namespace CognitiveEngine
namespace Machine

variable {ε : Type*}

/-- How a program ended: it came to its end, raised, or was cancelled or closed. -/
inductive Ending where
  | finished
  | raised
  | cancelled
  deriving DecidableEq

/-- The programs. -/
inductive Prog (ε : Type*) where
  | skip
  /-- An effect, which cannot fail. -/
  | effect (a : ε)
  /-- A point at which the program may be broken off. -/
  | point
  /-- The program is broken off here. -/
  | stop (e : Ending)
  | seq (p q : Prog ε)
  /-- `try: p except Exception: handler`. -/
  | rescue (p handler : Prog ε)
  /-- `try: p finally: …`, where the last part may look at how `p` ended. -/
  | ensure (p : Prog ε) (last : Ending → Prog ε)

namespace Prog

/-- One program for each member of a list, in order. -/
def forEach {α : Type*} (l : List α) (f : α → Prog ε) : Prog ε :=
  l.foldr (fun a p => .seq (f a) p) .skip

/-- The runs of a program: the effects in order, and how it ended. -/
inductive Runs : Prog ε → List ε → Ending → Prop
  | skip : Runs .skip [] .finished
  | effect (a : ε) : Runs (.effect a) [a] .finished
  | point (e : Ending) : Runs .point [] e
  | stop (e : Ending) : Runs (.stop e) [] e
  | seq {p q : Prog ε} {as bs : List ε} {e : Ending} (hp : Runs p as .finished)
      (hq : Runs q bs e) : Runs (.seq p q) (as ++ bs) e
  | seq_broken {p q : Prog ε} {as : List ε} {e : Ending} (hp : Runs p as e)
      (he : e ≠ .finished) : Runs (.seq p q) as e
  | rescue {p handler : Prog ε} {as bs : List ε} {e : Ending} (hp : Runs p as .raised)
      (hh : Runs handler bs e) : Runs (.rescue p handler) (as ++ bs) e
  | rescue_not {p handler : Prog ε} {as : List ε} {e : Ending} (hp : Runs p as e)
      (he : e ≠ .raised) : Runs (.rescue p handler) as e
  | ensure {p : Prog ε} {last : Ending → Prog ε} {as bs : List ε} {e : Ending}
      (hp : Runs p as e) (hlast : Runs (last e) bs .finished) :
      Runs (.ensure p last) (as ++ bs) e
  | ensure_broken {p : Prog ε} {last : Ending → Prog ε} {as bs : List ε} {e e' : Ending}
      (hp : Runs p as e) (hlast : Runs (last e) bs e') (he : e' ≠ .finished) :
      Runs (.ensure p last) (as ++ bs) e'

/-! ### Weights -/

variable {w : ε → ℤ} {p q : Prog ε} {d d' : ℤ}

/-- The total weight of some effects. -/
def weight (w : ε → ℤ) (as : List ε) : ℤ := (as.map w).sum

@[simp] theorem weight_nil : weight w [] = 0 := rfl

@[simp] theorem weight_append (as bs : List ε) :
    weight w (as ++ bs) = weight w as + weight w bs := by
  rw [weight, List.map_append, List.sum_append]
  rfl

theorem weight_flatMap {α : Type*} (l : List α) (f : α → List ε) :
    weight w (l.flatMap f) = (l.map fun a => weight w (f a)).sum := by
  induction l with
  | nil => rfl
  | cons a l ih => rw [List.flatMap_cons, weight_append, ih, List.map_cons, List.sum_cons]

/-- Effects that come in another order weigh the same. -/
theorem weight_perm {as bs : List ε} (h : as.Perm bs) : weight w as = weight w bs :=
  (h.map w).sum_eq

/-- A weight of one for some effects counts these. -/
theorem weight_indicator (P : ε → Bool) (as : List ε) :
    weight (fun a => if P a then 1 else 0) as = as.countP P := by
  induction as with
  | nil => rfl
  | cons a as ih =>
      rw [← List.singleton_append, weight_append, ih, List.countP_append, Nat.cast_add]
      congr 1
      cases h : P a <;> simp [weight, h]

/-- Every run has this weight, however it ends. -/
def Weighs (w : ε → ℤ) (p : Prog ε) (d : ℤ) : Prop := ∀ as e, Runs p as e → weight w as = d

theorem Weighs.skip : Weighs w .skip 0 := by
  rintro _ _ ⟨⟩
  rfl

theorem Weighs.effect (a : ε) : Weighs w (.effect a) (w a) := by
  rintro _ _ ⟨⟩
  simp [weight]

theorem Weighs.point : Weighs w .point 0 := by
  rintro _ _ ⟨⟩
  rfl

theorem Weighs.stop (e : Ending) : Weighs w (.stop e) 0 := by
  rintro _ _ ⟨⟩
  rfl

/-- **A part without weight may follow**, and be broken off or never come. -/
theorem Weighs.seq (hp : Weighs w p d) (hq : Weighs w q 0) : Weighs w (.seq p q) d := by
  intro as e h
  cases h with
  | seq hp' hq' => rw [weight_append, hp _ _ hp', hq _ _ hq', add_zero]
  | seq_broken hp' he => exact hp _ _ hp'

/-- **An effect comes first**, and nothing can come between it and the rest. -/
theorem Weighs.effect_seq (a : ε) (hq : Weighs w q d) :
    Weighs w (.seq (.effect a) q) (w a + d) := by
  intro as e h
  cases h with
  | seq hp' hq' => rw [weight_append, Weighs.effect a _ _ hp', hq _ _ hq']
  | seq_broken hp' he =>
      cases hp'
      exact absurd rfl he

theorem Weighs.forEach {α : Type*} {l : List α} {f : α → Prog ε} (h : ∀ a ∈ l, Weighs w (f a) 0) :
    Weighs w (forEach l f) 0 := by
  induction l with
  | nil => exact .skip
  | cons a l ih =>
      rw [List.forall_mem_cons] at h
      exact h.1.seq (ih h.2)

/-- A handler without weight changes nothing. -/
theorem Weighs.rescue (hp : Weighs w p d) (hq : Weighs w q 0) : Weighs w (.rescue p q) d := by
  intro as e h
  cases h with
  | rescue hp' hh => rw [weight_append, hp _ _ hp', hq _ _ hh, add_zero]
  | rescue_not hp' he => exact hp _ _ hp'

/-- **The last part runs on every way out.** -/
theorem Weighs.ensure {last : Ending → Prog ε} (hp : Weighs w p d)
    (hlast : ∀ e, Weighs w (last e) d') : Weighs w (.ensure p last) (d + d') := by
  intro as e h
  cases h with
  | ensure hp' hlast' => rw [weight_append, hp _ _ hp', hlast _ _ _ hlast']
  | ensure_broken hp' hlast' he => rw [weight_append, hp _ _ hp', hlast _ _ _ hlast']

end Prog

end Machine
end CognitiveEngine
