/-
# Slots written one at a time

A row of slots is a function, and a write to one of them is `Function.update`.
`slot_cases` says where what is found in a slot comes from; `update_rel` is the rule
for two rows that are compared slot by slot and written at the same place.
-/

import Mathlib.Logic.Function.Basic

namespace CognitiveEngine
namespace Machine

variable {ι α β : Type*} [DecidableEq ι]

/-- What is in a slot after a write to one of the slots. -/
theorem slot_cases {slots : ι → Option α} {n m : ι} {content : Option α} {a : α}
    (h : Function.update slots n content m = some a) : content = some a ∨ slots m = some a := by
  by_cases hm : m = n
  · subst hm
    rw [Function.update_self] at h
    exact .inl h
  · rw [Function.update_of_ne hm] at h
    exact .inr h

/-- Related contents written to the same slot of two related rows. -/
theorem update_rel {R : α → β → Prop} {f : ι → α} {g : ι → β} (h : ∀ m, R (f m) (g m)) (n : ι)
    {x : α} {y : β} (hxy : R x y) (m : ι) :
    R (Function.update f n x m) (Function.update g n y m) := by
  by_cases hm : m = n
  · subst hm
    rw [Function.update_self, Function.update_self]
    exact hxy
  · rw [Function.update_of_ne hm, Function.update_of_ne hm]
    exact h m

end Machine
end CognitiveEngine
