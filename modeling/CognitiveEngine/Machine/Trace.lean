/-
# Traces of a machine that is asked and answers

A trace of a step relation with inputs and outputs is the list of its events in
order, each with the state the input found, the input and the output.

`Trace.split` takes a trace apart at an event, `Trace.invariant` is the rule for what
every step keeps, and `Trace.history` that for what it keeps of the state and the events
before it; `Since` is a property of such events.  `Trace.lockstep` is the rule for
properties of two traces at once: when a relation between the states is kept by every pair
of related inputs, and related states answer related inputs alike, then two traces over
related inputs answer alike all along.  The condition a step may need is asked of the
events of both traces.
-/

import Mathlib.Data.List.Forall2

namespace CognitiveEngine
namespace Machine

variable {σ ι ο : Type*}

/-- One event of a trace: the state the input found, the input and the output. -/
structure Event (σ ι ο : Type*) where
  before : σ
  input : ι
  output : ο

/-- The traces from one state to another. -/
inductive Trace (step : σ → ι → ο → σ → Prop) : σ → List (Event σ ι ο) → σ → Prop
  | nil (s : σ) : Trace step s [] s
  | cons {s s₁ s' : σ} {i : ι} {o : ο} {es : List (Event σ ι ο)} (hstep : step s i o s₁)
      (ht : Trace step s₁ es s') : Trace step s (⟨s, i, o⟩ :: es) s'

variable {step : σ → ι → ο → σ → Prop}

/-- A machine that answers every input in every state has a trace over every list
of inputs. -/
theorem exists_trace (hstep : ∀ s i, ∃ o s', step s i o s') (is : List ι) (s : σ) :
    ∃ es s', Trace step s es s' ∧ es.map Event.input = is := by
  induction is generalizing s with
  | nil => exact ⟨[], s, .nil s, rfl⟩
  | cons i is ih =>
      obtain ⟨o, s₁, ho⟩ := hstep s i
      obtain ⟨es, s', ht, hes⟩ := ih s₁
      exact ⟨_, s', .cons ho ht, by rw [List.map_cons, hes]⟩

/-- A trace and one from where it ends are a trace. -/
theorem Trace.append {s s₁ s' : σ} {es fs : List (Event σ ι ο)} (hes : Trace step s es s₁)
    (hfs : Trace step s₁ fs s') : Trace step s (es ++ fs) s' := by
  induction hes with
  | nil s => exact hfs
  | cons hstep _ ih => exact .cons hstep (ih hfs)

/-- The state an event of a trace found, and the state it left. -/
theorem Trace.split {s s' : σ} {before after : List (Event σ ι ο)} {e : Event σ ι ο}
    (ht : Trace step s (before ++ e :: after) s') :
    Trace step s before e.before ∧
      ∃ s₁, step e.before e.input e.output s₁ ∧ Trace step s₁ after s' := by
  induction before generalizing s with
  | nil =>
      cases ht with
      | cons hstep ht => exact ⟨.nil _, _, hstep, ht⟩
  | cons f before ih =>
      cases ht with
      | cons hstep ht =>
          obtain ⟨hbefore, hafter⟩ := ih ht
          exact ⟨.cons hstep hbefore, hafter⟩

/-- The event at a place among the inputs. -/
theorem exists_event_of_inputs {es : List (Event σ ι ο)} {is is' : List ι} {i : ι}
    (h : es.map Event.input = is ++ i :: is') :
    ∃ before e after, es = before ++ e :: after ∧ before.map Event.input = is ∧ e.input = i ∧
      after.map Event.input = is' := by
  obtain ⟨before, rest, rfl, hbefore, hrest⟩ := List.map_eq_append_iff.1 h
  obtain ⟨e, after, rfl, he, hafter⟩ := List.map_eq_cons_iff.1 hrest
  exact ⟨before, e, after, rfl, hbefore, he, hafter⟩

/-- Every event of a trace is a step. -/
theorem Trace.step_of_mem {s s' : σ} {es : List (Event σ ι ο)} (ht : Trace step s es s')
    {e : Event σ ι ο} (he : e ∈ es) : ∃ s₁, step e.before e.input e.output s₁ := by
  obtain ⟨before, after, rfl⟩ := List.append_of_mem he
  obtain ⟨-, s₁, hstep, -⟩ := ht.split
  exact ⟨s₁, hstep⟩

/-- **Invariant rule.**  What every step keeps holds of all states of a trace. -/
theorem Trace.invariant {P : σ → Prop}
    (hP : ∀ {s s' : σ} {i : ι} {o : ο}, P s → step s i o s' → P s') {s s' : σ}
    {es : List (Event σ ι ο)} (ht : Trace step s es s') (hs : P s) :
    P s' ∧ ∀ e ∈ es, P e.before := by
  induction ht with
  | nil s => exact ⟨hs, List.forall_mem_nil _⟩
  | cons hstep ht ih =>
      obtain ⟨hend, hall⟩ := ih (hP hs hstep)
      exact ⟨hend, List.forall_mem_cons.2 ⟨hs, hall⟩⟩

/-- **History rule.**  What every step keeps of the events so far and of the state they have
come to holds at the end of a trace. -/
theorem Trace.history {P : List (Event σ ι ο) → σ → Prop}
    (hP : ∀ {es : List (Event σ ι ο)} {s s' : σ} {i : ι} {o : ο}, P es s → step s i o s' →
      P (es ++ [⟨s, i, o⟩]) s')
    {s s' : σ} {past es : List (Event σ ι ο)} (ht : Trace step s es s') (hs : P past s) :
    P (past ++ es) s' := by
  induction ht generalizing past with
  | nil s => rwa [List.append_nil]
  | cons hstep ht ih =>
      rw [List.append_cons]
      exact ih (hP hs hstep)

/-- There has been an event of one kind, and all later ones are of another. -/
def Since (P Q : Event σ ι ο → Prop) (es : List (Event σ ι ο)) : Prop :=
  ∃ earlier e later, es = earlier ++ e :: later ∧ P e ∧ ∀ x ∈ later, Q x

variable {P Q : Event σ ι ο → Prop}

theorem not_since_nil : ¬ Since P Q [] := by
  rintro ⟨earlier, e, later, hes, -⟩
  exact absurd hes (List.append_ne_nil_of_right_ne_nil _ (List.cons_ne_nil _ _)).symm

/-- **One event more.** -/
theorem since_concat {es : List (Event σ ι ο)} {x : Event σ ι ο} :
    Since P Q (es ++ [x]) ↔ P x ∨ (Since P Q es ∧ Q x) := by
  constructor
  · rintro ⟨earlier, e, later, hes, he, hlater⟩
    rcases List.eq_nil_or_concat' later with rfl | ⟨later, y, rfl⟩
    · obtain ⟨-, hx⟩ := List.append_inj' hes rfl
      obtain rfl := List.singleton_inj.1 hx
      exact .inl he
    · rw [← List.cons_append, ← List.append_assoc] at hes
      obtain ⟨rfl, hy⟩ := List.append_inj' hes rfl
      obtain rfl := List.singleton_inj.1 hy
      rw [List.forall_mem_append, List.forall_mem_singleton] at hlater
      exact .inr ⟨⟨earlier, e, later, rfl, he, hlater.1⟩, hlater.2⟩
  · rintro (hx | ⟨⟨earlier, e, later, rfl, he, hlater⟩, hx⟩)
    · exact ⟨es, x, [], rfl, hx, List.forall_mem_nil _⟩
    · refine ⟨earlier, e, later ++ [x], by rw [List.append_assoc, List.cons_append], he, ?_⟩
      exact List.forall_mem_append.2 ⟨hlater, List.forall_mem_singleton.2 hx⟩

/-- **Lockstep rule.**  Related states answer related inputs alike and stay
related, as long as both events meet the condition. -/
theorem Trace.lockstep (R : σ → σ → Prop) (same : ι → ι → Prop) (cond : σ → ι → Prop)
    (obs : ι → ο → ο → Prop)
    (hR : ∀ {s t s' t' : σ} {i j : ι} {o p : ο}, R s t → same i j → cond s i → cond t j →
      step s i o s' → step t j p t' → obs i o p ∧ R s' t')
    {s t s' t' : σ} {es fs : List (Event σ ι ο)} (hst : R s t) (hes : Trace step s es s')
    (hfs : Trace step t fs t')
    (hsame : List.Forall₂ (fun e f => same e.input f.input) es fs)
    (hce : ∀ e ∈ es, cond e.before e.input) (hcf : ∀ f ∈ fs, cond f.before f.input) :
    List.Forall₂ (fun e f => obs e.input e.output f.output) es fs := by
  induction hes generalizing t fs with
  | nil s =>
      cases hsame
      exact .nil
  | cons hstep ht ih =>
      cases hsame with
      | cons hij hrest =>
          cases hfs with
          | cons hstep' ht' =>
              rw [List.forall_mem_cons] at hce hcf
              obtain ⟨hobs, hst'⟩ := hR hst hij hce.1 hcf.1 hstep hstep'
              exact .cons hobs (ih hst' ht' hrest hce.2 hcf.2)

end Machine
end CognitiveEngine
