/-
# Tables filled on demand

A table that makes what it does not have yet and keeps it: `get` is what it answers
with, `fill` what it has afterwards.  What is made for a key once is what is answered
later, whatever would be made then.

Only some facets of what is made may be of interest.  `Memo.From` says that every entry
was asked for, with the facets it has, and `Memo.Covers` that everything asked for is
there, with the facets it was asked for with.  `get_iff` is the rule for an answer:
it has the facets of what would be made now, exactly when all earlier requests for its
key had.

`forall_answers_iff` carries such a rule through a sequence of requests: all answers are
good exactly when the requests agree pairwise.

`Memo.HasFirst` says what is there in any case: what was made first for each key.
-/

import Mathlib.Data.List.Induction
import Mathlib.Data.Set.Insert
import Mathlib.Logic.Function.Basic

namespace CognitiveEngine
namespace Machine

variable {κ α φ : Type*}

/-- A table of what has been made, by key. -/
abbrev Memo (κ α : Type*) : Type _ := κ → Option α

namespace Memo

variable {table : Memo κ α} {facet : α → φ} {asked : Set (κ × φ)}

/-- What is answered for a key, for which `made` would be made. -/
def get (table : Memo κ α) (key : κ) (made : α) : α := (table key).getD made

theorem get_of_some {key : κ} {a : α} (h : table key = some a) (made : α) :
    table.get key made = a := by
  rw [get, h, Option.getD_some]

theorem get_of_none {key : κ} (h : table key = none) (made : α) :
    table.get key made = made := by
  rw [get, h, Option.getD_none]

/-- Every entry was asked for with the facets it has. -/
def From (table : Memo κ α) (facet : α → φ) (asked : Set (κ × φ)) : Prop :=
  ∀ key a, table key = some a → (key, facet a) ∈ asked

/-- Everything asked for is there with its facets. -/
def Covers (table : Memo κ α) (facet : α → φ) (asked : Set (κ × φ)) : Prop :=
  ∀ key f, (key, f) ∈ asked → ∃ a, table key = some a ∧ facet a = f

theorem covers_empty (table : Memo κ α) : table.Covers facet ∅ :=
  fun _ _ h => absurd h (Set.notMem_empty _)

theorem From.mono (h : table.From facet asked) {asked' : Set (κ × φ)} (hsub : asked ⊆ asked') :
    table.From facet asked' := fun key a ha => hsub (h key a ha)

/-- When a key was only asked for with the facets of what would be made, so is it
answered. -/
theorem From.get (h : table.From facet asked) {key : κ} {made : α}
    (hasked : ∀ f, (key, f) ∈ asked → f = facet made) :
    facet (table.get key made) = facet made := by
  cases hkey : table key with
  | none => rw [get_of_none hkey]
  | some a =>
      rw [get_of_some hkey]
      exact hasked _ (h key a hkey)

/-- **An answer is as good as new** exactly when all earlier requests for its key had
the facets of what would be made now. -/
theorem get_iff (hfrom : table.From facet asked) (hcovers : table.Covers facet asked)
    {key : κ} {made : α} :
    facet (table.get key made) = facet made ↔ ∀ f, (key, f) ∈ asked → f = facet made := by
  constructor
  · intro h f hf
    obtain ⟨a, hkey, rfl⟩ := hcovers key f hf
    rw [← h, get_of_some hkey]
  · exact hfrom.get

variable [DecidableEq κ]

/-- The table after a request. -/
def fill (table : Memo κ α) (key : κ) (made : α) : Memo κ α :=
  Function.update table key (some (table.get key made))

theorem fill_self (key : κ) (made : α) : table.fill key made key = some (table.get key made) :=
  Function.update_self ..

theorem fill_of_ne {key key' : κ} (h : key' ≠ key) (made : α) :
    table.fill key made key' = table key' := Function.update_of_ne h ..

/-- What is there stays. -/
theorem fill_of_some {key : κ} {a : α} (h : table key = some a) (made : α) :
    table.fill key made = table := by
  rw [fill, get_of_some h, ← h, Function.update_eq_self]

/-- A request that is answered as it should be keeps the entries accounted for. -/
theorem From.fill (h : table.From facet asked) {key : κ} {made : α} {f : φ}
    (hgood : facet (table.get key made) = f) :
    (table.fill key made).From facet (insert (key, f) asked) := by
  intro key' a ha
  by_cases hkey : key' = key
  · subst hkey
    rw [fill_self] at ha
    obtain rfl := Option.some.inj ha
    rw [hgood]
    exact Set.mem_insert _ _
  · rw [fill_of_ne hkey] at ha
    exact Set.mem_insert_of_mem _ (h key' a ha)

/-- A request that is answered as it should be is covered from then on. -/
theorem Covers.fill (h : table.Covers facet asked) {key : κ} {made : α} {f : φ}
    (hgood : facet (table.get key made) = f) :
    (table.fill key made).Covers facet (insert (key, f) asked) := by
  intro key' f' hf
  rcases Set.mem_insert_iff.1 hf with heq | hf
  · obtain ⟨rfl, rfl⟩ := Prod.mk.inj heq
    exact ⟨_, fill_self _ _, hgood⟩
  · obtain ⟨a, ha, rfl⟩ := h key' f' hf
    by_cases hkey : key' = key
    · subst hkey
      exact ⟨a, by rw [fill_self, get_of_some ha], rfl⟩
    · exact ⟨a, by rw [fill_of_ne hkey, ha], rfl⟩

/-- What is there stays for every key. -/
theorem fill_eq_some {key key' : κ} {a : α} (h : table key' = some a) (made : α) :
    table.fill key made key' = some a := by
  by_cases hkey : key' = key
  · subst hkey
    rw [fill_self, get_of_some h]
  · rw [fill_of_ne hkey, h]

/-! ### The first of each key -/

/-- The table has what was made first for each key, of what would have been made in order. -/
def HasFirst (table : Memo κ α) (mades : List (κ × α)) : Prop :=
  ∀ key, table key = mades.lookup key

variable {mades : List (κ × α)} {key : κ} {made : α}

theorem HasFirst.get (h : table.HasFirst mades) :
    table.get key made = (mades.lookup key).getD made := by
  rw [Memo.get, h key]

/-- One that is made next comes last. -/
theorem HasFirst.fill (h : table.HasFirst mades) :
    (table.fill key made).HasFirst (mades ++ [(key, made)]) := by
  intro key'
  rw [List.lookup_append]
  by_cases hkey : key' = key
  · subst hkey
    rw [fill_self, h.get, List.lookup_cons_self]
    cases mades.lookup key' <;> rfl
  · have hne : (key' == key) = false := beq_false_of_ne hkey
    rw [fill_of_ne hkey, h key', List.lookup_cons, hne, List.lookup_nil, Option.or_none]

/-- One that would be made for a key that is there makes no difference. -/
theorem HasFirst.append_of_isSome (h : table.HasFirst mades) (hkey : (table key).isSome) :
    table.HasFirst (mades ++ [(key, made)]) := by
  obtain ⟨a, ha⟩ := Option.isSome_iff_exists.1 hkey
  rw [← fill_of_some ha made]
  exact h.fill

end Memo

/-! ### Sequences of requests -/

/-- What some requests ask a table for. -/
def askedBy {ρ : Type*} (ask : ρ → Option (κ × φ)) (requests : List ρ) : Set (κ × φ) :=
  {r | ∃ a ∈ requests, ask a = some r}

section AskedBy

variable {ρ : Type*} {ask : ρ → Option (κ × φ)} {requests : List ρ} {a : ρ}

theorem askedBy_nil : askedBy ask [] = ∅ := by
  simp [askedBy]

/-- A request that asks for something. -/
theorem askedBy_append_some {r : κ × φ} (h : ask a = some r) :
    askedBy ask (requests ++ [a]) = insert r (askedBy ask requests) := by
  ext r'
  simp only [askedBy, Set.mem_ofPred_eq, Set.mem_insert_iff, List.mem_append, List.mem_singleton]
  constructor
  · rintro ⟨b, hb | rfl, hr⟩
    · exact .inr ⟨b, hb, hr⟩
    · exact .inl (Option.some.inj (hr.symm.trans h))
  · rintro (rfl | ⟨b, hb, hr⟩)
    · exact ⟨a, .inr rfl, h⟩
    · exact ⟨b, .inl hb, hr⟩

/-- A request that does not touch the table. -/
theorem askedBy_append_none (h : ask a = none) :
    askedBy ask (requests ++ [a]) = askedBy ask requests := by
  ext r'
  simp only [askedBy, Set.mem_ofPred_eq, List.mem_append, List.mem_singleton]
  constructor
  · rintro ⟨b, hb | rfl, hr⟩
    · exact ⟨b, hb, hr⟩
    · exact absurd (hr.symm.trans h) (Option.some_ne_none r')
  · rintro ⟨b, hb, hr⟩
    exact ⟨b, .inl hb, hr⟩

/-- What is asked for in order, with a request more. -/
theorem filterMap_append_some {r : κ × φ} (h : ask a = some r) :
    (requests ++ [a]).filterMap ask = requests.filterMap ask ++ [r] := by
  rw [List.filterMap_append, List.filterMap_cons_some h, List.filterMap_nil]

/-- One that does not touch the table. -/
theorem filterMap_append_none (h : ask a = none) :
    (requests ++ [a]).filterMap ask = requests.filterMap ask := by
  rw [List.filterMap_append, List.filterMap_cons_none h, List.filterMap_nil, List.append_nil]

/-- What was asked for first under a key was asked for by a request. -/
theorem exists_of_lookup [DecidableEq κ] {key : κ} {f : φ}
    (h : (requests.filterMap ask).lookup key = some f) : ∃ b ∈ requests, ask b = some (key, f) := by
  obtain ⟨front, back, happend, -⟩ := List.lookup_eq_some_iff.1 h
  refine List.mem_filterMap.1 ?_
  rw [happend]
  exact List.mem_append_right _ List.mem_cons_self

/-- Two requests that ask for one key ask for the same facets. -/
def AgreeOn (ask : ρ → Option (κ × φ)) (a b : ρ) : Prop :=
  ∀ key f f', ask a = some (key, f) → ask b = some (key, f') → f = f'

theorem agreeOn_of_none (h : ask a = none) (b : ρ) : AgreeOn ask b a :=
  fun _ _ _ _ hask => absurd (hask.symm.trans h) (Option.some_ne_none _)

/-- A request agrees with others when its key has been asked for with its facets only. -/
theorem forall_agreeOn_iff {key : κ} {f : φ} (h : ask a = some (key, f)) :
    (∀ b ∈ requests, AgreeOn ask b a) ↔ ∀ f', (key, f') ∈ askedBy ask requests → f' = f := by
  constructor
  · rintro hagree f' ⟨b, hb, hask⟩
    exact hagree b hb key f' f hask h
  · intro hasked b hb key' f₁ f₂ hask hask'
    obtain ⟨rfl, rfl⟩ := Prod.mk.inj (Option.some.inj (h.symm.trans hask'))
    exact hasked f₁ ⟨b, hb, hask⟩

end AskedBy

/-- **All answers are good exactly when the requests agree pairwise.**  `Good s a`: in
the state `s` the request `a` is answered well.  The invariant says what is known of the
state after requests that were all answered well; it makes an answer good exactly when
the request agrees with all earlier ones. -/
theorem forall_answers_iff {σ ρ : Type*} {step : σ → ρ → σ} {start : σ} {Good : σ → ρ → Prop}
    {Agree : ρ → ρ → Prop} {Inv : List ρ → σ → Prop} {requests : List ρ} (hstart : Inv [] start)
    (hgood : ∀ before s a, (∀ b ∈ before, b ∈ requests) → a ∈ requests → Inv before s →
      (Good s a ↔ ∀ b ∈ before, Agree b a))
    (hstep : ∀ before s a, (∀ b ∈ before, b ∈ requests) → a ∈ requests → Inv before s →
      Good s a → Inv (before ++ [a]) (step s a)) :
    (∀ before a after, requests = before ++ a :: after → Good (before.foldl step start) a) ↔
      requests.Pairwise Agree := by
  -- Requests that agree pairwise are all answered well, and the other way round.
  have hinv : ∀ before, (∀ b ∈ before, b ∈ requests) →
      ((∀ front a back, before = front ++ a :: back → Good (front.foldl step start) a) ↔
        before.Pairwise Agree) ∧
      (before.Pairwise Agree → Inv before (before.foldl step start)) := by
    intro before
    induction before using List.reverseRecOn with
    | nil =>
        intro _
        refine ⟨iff_of_true (fun front a back h => ?_) List.Pairwise.nil, fun _ => hstart⟩
        exact absurd h (by simp)
    | append_singleton before a ih =>
        intro hmem
        rw [List.forall_mem_append, List.forall_mem_singleton] at hmem
        obtain ⟨hiff, hkept⟩ := ih hmem.1
        have hpairwise : (before ++ [a]).Pairwise Agree ↔
            before.Pairwise Agree ∧ ∀ b ∈ before, Agree b a := by
          rw [List.pairwise_append]
          simp
        have hanswers : (∀ front a' back, before ++ [a] = front ++ a' :: back →
              Good (front.foldl step start) a') ↔
            (∀ front a' back, before = front ++ a' :: back → Good (front.foldl step start) a') ∧
              Good (before.foldl step start) a := by
          constructor
          · intro h
            refine ⟨fun front a' back heq => h front a' (back ++ [a]) ?_, h before a [] rfl⟩
            rw [heq, List.append_assoc, List.cons_append]
          · rintro ⟨hbefore, ha⟩ front a' back heq
            rcases List.eq_nil_or_concat back with rfl | ⟨back, last, rfl⟩
            · obtain ⟨rfl, hlast⟩ := List.append_inj' heq rfl
              obtain rfl := List.singleton_inj.1 hlast
              exact ha
            · rw [List.concat_eq_append, ← List.cons_append, ← List.append_assoc] at heq
              exact hbefore front a' back (List.append_inj' heq rfl).1
        have hlast : before.Pairwise Agree →
            (Good (before.foldl step start) a ↔ ∀ b ∈ before, Agree b a) := fun h =>
          hgood before _ a hmem.1 hmem.2 (hkept h)
        refine ⟨?_, fun h => ?_⟩
        · rw [hanswers, hpairwise, hiff]
          exact and_congr_right hlast
        · obtain ⟨hbefore, ha⟩ := hpairwise.1 h
          rw [List.foldl_append]
          exact hstep before _ a hmem.1 hmem.2 (hkept hbefore) ((hlast hbefore).2 ha)
  exact (hinv requests fun b hb => hb).1

end Machine
end CognitiveEngine
