/-
# Computations that may fail

`Except ε` with its `bind` opened once: a chain of fallible steps succeeds exactly
when each step does, with the values handed on.  `bind_eq_ok_iff` takes such a
chain apart, `ok_bind` and `error_bind` run it, and `some_bind` runs one of optional
steps.  `mapM_eq_ok_iff` is the rule for a list of steps, and `mapM_eq_some_iff` that
for optional ones; `exists_mapM_eq_some` is for those none of which fails.
-/

import Mathlib.Data.List.Forall2

namespace CognitiveEngine
namespace Machine

universe u v

variable {ε : Type u} {α β : Type v}

@[simp] theorem ok_bind (a : α) (f : α → Except ε β) : (Except.ok a >>= f) = f a := rfl

@[simp] theorem error_bind (e : ε) (f : α → Except ε β) :
    ((Except.error e : Except ε α) >>= f) = .error e := rfl

theorem some_bind (a : α) (f : α → Option β) : (some a >>= f) = f a := rfl

@[simp] theorem map_ok (f : α → β) (a : α) : (Except.ok a : Except ε α).map f = .ok (f a) := rfl

/-- A chain of two fallible steps succeeds when both do. -/
theorem bind_eq_ok_iff {x : Except ε α} {f : α → Except ε β} {b : β} :
    (x >>= f) = .ok b ↔ ∃ a, x = .ok a ∧ f a = .ok b := by
  cases x with
  | error e => simp
  | ok a => simp

/-- A value computed from a fallible step. -/
theorem map_eq_ok_iff {x : Except ε α} {f : α → β} {b : β} :
    x.map f = .ok b ↔ ∃ a, x = .ok a ∧ f a = b := by
  cases x with
  | error e => simp [Except.map]
  | ok a => simp

/-- A list of fallible steps succeeds when each does, with their values in order. -/
theorem mapM_eq_ok_iff {γ : Type u} {f : γ → Except ε α} {l : List γ} {as : List α} :
    l.mapM f = .ok as ↔ List.Forall₂ (fun x a => f x = .ok a) l as := by
  induction l generalizing as with
  | nil =>
      rw [List.mapM_nil, List.forall₂_nil_left_iff]
      exact ⟨fun h => (Except.ok.inj h).symm, fun h => congrArg _ h.symm⟩
  | cons x l ih =>
      rw [List.mapM_cons, bind_eq_ok_iff, List.forall₂_cons_left_iff]
      constructor
      · rintro ⟨a, ha, h⟩
        obtain ⟨rest, hrest, h⟩ := bind_eq_ok_iff.1 h
        exact ⟨a, rest, ha, ih.1 hrest, (Except.ok.inj h).symm⟩
      · rintro ⟨a, rest, ha, hrest, rfl⟩
        exact ⟨a, ha, bind_eq_ok_iff.2 ⟨rest, ih.2 hrest, rfl⟩⟩

/-- The value at a position is that of the step at the position. -/
theorem getElem?_of_mapM {γ : Type u} {f : γ → Except ε α} {l : List γ} {as : List α}
    (h : l.mapM f = .ok as) (i : ℕ) : (l[i]?).map f = (as[i]?).map .ok := by
  rw [mapM_eq_ok_iff] at h
  induction h generalizing i with
  | nil => rfl
  | cons ha _ ih =>
      cases i with
      | zero => exact congrArg some ha
      | succ i =>
          rw [List.getElem?_cons_succ, List.getElem?_cons_succ]
          exact ih i

/-- Optional steps that all have values have them in order. -/
theorem exists_mapM_eq_some {γ : Type u} {f : γ → Option α} {l : List γ}
    (h : ∀ x ∈ l, ∃ a, f x = some a) :
    ∃ as, l.mapM f = some as ∧ l.map f = as.map some := by
  induction l with
  | nil => exact ⟨[], rfl, rfl⟩
  | cons x l ih =>
      obtain ⟨a, ha⟩ := h x List.mem_cons_self
      obtain ⟨as, has, hvalues⟩ := ih fun y hy => h y (List.mem_cons_of_mem x hy)
      refine ⟨a :: as, ?_, ?_⟩
      · rw [List.mapM_cons, ha, some_bind, has, some_bind]
        rfl
      · rw [List.map_cons, List.map_cons, ha, hvalues]

/-- **Optional steps have values exactly when each has its own.** -/
theorem mapM_eq_some_iff {γ : Type u} {f : γ → Option α} {l : List γ} {as : List α} :
    l.mapM f = some as ↔ l.map f = as.map some := by
  have hvalues : ∀ {as : List α}, l.map f = as.map some → l.mapM f = some as := by
    induction l with
    | nil =>
        intro as h
        rw [List.map_eq_nil_iff.1 h.symm]
        rfl
    | cons x l ih =>
        intro as h
        obtain ⟨a, as, rfl, ha, has⟩ := List.map_eq_cons_iff.1 h.symm
        rw [List.mapM_cons, ← ha, some_bind, ih has.symm, some_bind]
        rfl
  refine ⟨fun h => ?_, hvalues⟩
  have hall : ∀ x ∈ l, ∃ a, f x = some a := by
    clear hvalues
    induction l generalizing as with
    | nil => exact fun x hx => absurd hx List.not_mem_nil
    | cons x l ih =>
        rw [List.mapM_cons] at h
        obtain ⟨a, ha, h⟩ := Option.bind_eq_some_iff.1 h
        obtain ⟨as', has', -⟩ := Option.bind_eq_some_iff.1 h
        exact List.forall_mem_cons.2 ⟨⟨a, ha⟩, ih has'⟩
  obtain ⟨as', has', hmap⟩ := exists_mapM_eq_some hall
  rwa [← Option.some.inj (has'.symm.trans h)]

/-! ### Steps that leave something behind -/

section Behind

variable {ε σ α β : Type u}

/-- The computation ends with a value and in a state that satisfy `P`, or it raises, and
the error and the state satisfy `E`. -/
def EndsIn (x : EStateM ε σ α) (s : σ) (P : α → σ → Prop) (E : ε → σ → Prop) : Prop :=
  match x s with
  | .ok a s' => P a s'
  | .error e s' => E e s'

variable {s : σ} {P : β → σ → Prop} {E : ε → σ → Prop}

/-- **A chain is taken apart at its first step.** -/
theorem EndsIn.bind {x : EStateM ε σ α} {f : α → EStateM ε σ β}
    (h : EndsIn x s (fun a s' => EndsIn (f a) s' P E) E) : EndsIn (x >>= f) s P E := by
  simp only [EndsIn, Bind.bind, EStateM.bind] at h ⊢
  cases hx : x s with
  | ok a s' => simpa only [hx] using h
  | error e s' => simpa only [hx] using h

end Behind

end Machine
end CognitiveEngine
