/-
# A work queue with acknowledgements

Jobs wait in a queue and are handed to consumers.  A consumer acts for its job, one effect
after the other, and settles it.  A job whose consumer is lost before that goes back into
the queue, and what was begun for it may still go on: the consumer may be lost to the queue
alone.

`Sound` is what holds in every state of every run.  No job is lost and none is settled
twice, a consumer has one job at a time, and every effect belongs to a delivery.
`wellFounded_work` and `atRest_of_stuck` are the other half: a queue that gets no new jobs
and loses no consumers comes to rest, and `Sound.atRest` says what it has come to then.
-/

import Mathlib.Data.List.Perm.Basic
import Mathlib.Data.List.Flatten
import Mathlib.Data.Prod.Lex
import Mathlib.Logic.Relation
import Mathlib.Order.WellFounded
import Mathlib.Tactic.Ring

namespace CognitiveEngine
namespace Machine

variable {J W E D : Type*}

/-- A delivery of a job: what has been done, what is left to do, and how the job will be
settled. -/
structure Delivered (J E D : Type*) where
  job : J
  done : List E
  left : List E
  verdict : D

/-- The queue, its consumers, and what they have done. -/
structure WorkQueue (J W E D : Type*) where
  /-- Every job that was ever put into the queue. -/
  published : List J
  ready : List J
  held : List (W × Delivered J E D)
  /-- The deliveries whose consumers were lost. -/
  adrift : List (Delivered J E D)
  settled : List (Delivered J E D)
  /-- The effects, in the order they were done in. -/
  effects : List E

namespace WorkQueue

/-- Nothing has happened yet. -/
def empty : WorkQueue J W E D := ⟨[], [], [], [], [], []⟩

/-- Which jobs are put into the queue, and what their handling may come to. -/
structure Rules (J E D : Type*) where
  admits : J → Prop
  handles : J → List E → D → Prop

variable {rules : Rules J E D}

variable (rules) in
/-- A step of a consumer, or of the queue towards one. -/
inductive Work : WorkQueue J W E D → WorkQueue J W E D → Prop
  | deliver {q : WorkQueue J W E D} {w : W} {j : J} {rest : List J} {plan : List E} {verdict : D}
      (hready : q.ready = j :: rest) (hidle : w ∉ q.held.map Prod.fst)
      (hplan : rules.handles j plan verdict) :
      Work q { q with ready := rest, held := (w, ⟨j, [], plan, verdict⟩) :: q.held }
  | act {q : WorkQueue J W E D} (before after : List (W × Delivered J E D)) (done : List E)
      {w : W} {j : J} {left : List E} {e : E} {verdict : D}
      (hheld : q.held = before ++ (w, ⟨j, done, e :: left, verdict⟩) :: after) :
      Work q { q with
        held := before ++ (w, ⟨j, done ++ [e], left, verdict⟩) :: after
        effects := q.effects ++ [e] }
  | actAdrift {q : WorkQueue J W E D} (before after : List (Delivered J E D)) (done : List E)
      {j : J} {left : List E} {e : E} {verdict : D}
      (hadrift : q.adrift = before ++ ⟨j, done, e :: left, verdict⟩ :: after) :
      Work q { q with
        adrift := before ++ ⟨j, done ++ [e], left, verdict⟩ :: after
        effects := q.effects ++ [e] }
  | settle {q : WorkQueue J W E D} (before after : List (W × Delivered J E D)) {w : W} {j : J}
      {done : List E} {verdict : D}
      (hheld : q.held = before ++ (w, ⟨j, done, [], verdict⟩) :: after) :
      Work q { q with
        held := before ++ after
        settled := q.settled ++ [⟨j, done, [], verdict⟩] }

variable (rules) in
/-- Any step: work, a new job at the end of the queue, or the loss of a consumer, whose job
goes back to some place in the queue. -/
inductive Step : WorkQueue J W E D → WorkQueue J W E D → Prop
  | work {q q' : WorkQueue J W E D} (h : Work rules q q') : Step q q'
  | publish {q : WorkQueue J W E D} {j : J} (hj : rules.admits j) :
      Step q { q with published := q.published ++ [j], ready := q.ready ++ [j] }
  | lose {q : WorkQueue J W E D} (before after : List (W × Delivered J E D)) {w : W}
      (x : Delivered J E D) (front back : List J)
      (hheld : q.held = before ++ (w, x) :: after) (hready : q.ready = front ++ back) :
      Step q { q with
        held := before ++ after
        adrift := x :: q.adrift
        ready := front ++ x.job :: back }

/-- The deliveries so far. -/
def deliveries (q : WorkQueue J W E D) : List (Delivered J E D) :=
  q.held.map Prod.snd ++ q.adrift ++ q.settled

variable (rules) in
/-- What holds of deliveries, against the jobs that were published and the effects. -/
structure Tracked (published : List J) (effects : List E) (ds : List (Delivered J E D)) : Prop where
  /-- Every effect is one of a delivery. -/
  accounted : effects.Perm (ds.flatMap Delivered.done)
  /-- What is done for a job and left to do is how it may be handled. -/
  planned : ∀ x ∈ ds, rules.handles x.job (x.done ++ x.left) x.verdict
  /-- A delivery is one of a job that was published. -/
  delivered : ∀ x ∈ ds, x.job ∈ published

variable (rules) in
/-- What holds of the queue at all times. -/
structure Sound (q : WorkQueue J W E D) : Prop where
  /-- A job waits, is held or has been settled, and one of these only. -/
  conserved : q.published.Perm
    (q.ready ++ q.held.map (fun x => x.2.job) ++ q.settled.map Delivered.job)
  admitted : ∀ j ∈ q.published, rules.admits j
  /-- A consumer has one job at a time. -/
  one_each : (q.held.map Prod.fst).Nodup
  tracked : Tracked rules q.published q.effects q.deliveries
  /-- A job is settled when nothing is left to do. -/
  complete : ∀ x ∈ q.settled, x.left = []

/-! ### Deliveries -/

section Tracked

variable {published : List J} {effects : List E} {ds ds' : List (Delivered J E D)}

theorem Tracked.perm (h : Tracked rules published effects ds) (hperm : ds.Perm ds') :
    Tracked rules published effects ds' where
  accounted := h.accounted.trans (hperm.flatMap_right _)
  planned x hx := h.planned x (hperm.mem_iff.2 hx)
  delivered x hx := h.delivered x (hperm.mem_iff.2 hx)

theorem Tracked.publish (h : Tracked rules published effects ds) (j : J) :
    Tracked rules (published ++ [j]) effects ds where
  accounted := h.accounted
  planned := h.planned
  delivered x hx := List.mem_append_left _ (h.delivered x hx)

/-- A new delivery has done nothing yet. -/
theorem Tracked.deliver (h : Tracked rules published effects ds) {j : J} {plan : List E}
    {verdict : D} (hj : j ∈ published) (hplan : rules.handles j plan verdict) :
    Tracked rules published effects (⟨j, [], plan, verdict⟩ :: ds) where
  accounted := h.accounted
  planned := List.forall_mem_cons.2 ⟨hplan, h.planned⟩
  delivered := List.forall_mem_cons.2 ⟨hj, h.delivered⟩

/-- A delivery does what it is to do next. -/
theorem Tracked.act {j : J} {done left : List E} {e : E} {verdict : D}
    (h : Tracked rules published effects (⟨j, done, e :: left, verdict⟩ :: ds)) :
    Tracked rules published (effects ++ [e]) (⟨j, done ++ [e], left, verdict⟩ :: ds) := by
  obtain ⟨haccounted, hplanned, hdelivered⟩ := h
  rw [List.forall_mem_cons] at hplanned hdelivered
  refine ⟨?_, List.forall_mem_cons.2 ⟨?_, hplanned.2⟩, List.forall_mem_cons.2 hdelivered⟩
  · rw [List.flatMap_cons, List.append_assoc, List.singleton_append]
    exact (List.perm_append_singleton e effects).trans
      ((haccounted.cons e).trans List.perm_middle.symm)
  · rw [List.append_assoc, List.singleton_append]
    exact hplanned.1

end Tracked

/-! ### One step -/

/-- Lists are compared by how often they have each element. -/
theorem perm_of_count {α : Type*} {l l' : List α}
    (h : ∀ (_ : DecidableEq α) (a : α), l.count a = l'.count a) : l.Perm l' := by
  classical
  exact List.perm_iff_count.2 fun a => h _ a

/-- A delivery to a consumer, brought to the front. -/
theorem perm_front {before after : List (W × Delivered J E D)} {w : W} {x : Delivered J E D}
    (ds : List (Delivered J E D)) :
    ((before ++ (w, x) :: after).map Prod.snd ++ ds).Perm
      (x :: ((before ++ after).map Prod.snd ++ ds)) := by
  rw [List.map_append, List.map_cons, List.map_append, List.append_assoc, List.append_assoc,
    List.cons_append]
  exact List.perm_middle

theorem sound_empty : Sound rules (empty : WorkQueue J W E D) where
  conserved := List.Perm.nil
  admitted := List.forall_mem_nil _
  one_each := List.nodup_nil
  tracked := ⟨List.Perm.nil, List.forall_mem_nil _, List.forall_mem_nil _⟩
  complete := List.forall_mem_nil _

section Preserved

variable {q : WorkQueue J W E D}

/-- **A new job keeps the queue sound.** -/
theorem Sound.publish (h : Sound rules q) {j : J} (hj : rules.admits j) :
    Sound rules { q with published := q.published ++ [j], ready := q.ready ++ [j] } where
  conserved := perm_of_count fun _ a => by
    have hcount := h.conserved.count_eq a
    simp only [List.count_append] at hcount ⊢
    omega
  admitted := List.forall_mem_append.2 ⟨h.admitted, List.forall_mem_singleton.2 hj⟩
  one_each := h.one_each
  tracked := h.tracked.publish j
  complete := h.complete

/-- The consumers that are left have one job each. -/
theorem nodup_without {before after : List (W × Delivered J E D)} {w : W} {x : Delivered J E D}
    (h : ((before ++ (w, x) :: after).map Prod.fst).Nodup) :
    ((before ++ after).map Prod.fst).Nodup := by
  refine h.sublist ?_
  rw [List.map_append, List.map_append]
  exact (List.sublist_cons_self _ _).append_left _

/-- **The loss of a consumer keeps the queue sound.** -/
theorem Sound.lose (h : Sound rules q) {before after : List (W × Delivered J E D)} {w : W}
    {x : Delivered J E D} {front back : List J} (hheld : q.held = before ++ (w, x) :: after)
    (hready : q.ready = front ++ back) :
    Sound rules { q with
      held := before ++ after
      adrift := x :: q.adrift
      ready := front ++ x.job :: back } := by
  obtain ⟨published, ready, held, adrift, settled, effects⟩ := q
  subst hheld hready
  obtain ⟨hconserved, hadmitted, hone, htracked, hcomplete⟩ := h
  refine ⟨?_, hadmitted, nodup_without hone, htracked.perm ?_, hcomplete⟩
  · refine perm_of_count fun _ a => ?_
    have hcount := hconserved.count_eq a
    simp only [List.map_append, List.map_cons, List.count_append, List.count_cons] at hcount ⊢
    omega
  · simp only [deliveries, List.append_assoc, List.cons_append]
    exact (perm_front _).trans List.perm_middle.symm

/-- **Work keeps the queue sound.** -/
theorem Sound.work (h : Sound rules q) {q' : WorkQueue J W E D} (hw : Work rules q q') :
    Sound rules q' := by
  obtain ⟨published, ready, held, adrift, settled, effects⟩ := q
  obtain ⟨hconserved, hadmitted, hone, htracked, hcomplete⟩ := h
  simp only [deliveries, List.append_assoc] at htracked
  cases hw with
  | @deliver w j rest plan verdict hready hidle hplan =>
      obtain rfl : ready = j :: rest := hready
      refine ⟨?_, hadmitted, List.nodup_cons.2 ⟨hidle, hone⟩, ?_, hcomplete⟩
      · refine perm_of_count fun _ a => ?_
        have hcount := hconserved.count_eq a
        simp only [List.map_cons, List.count_append, List.count_cons] at hcount ⊢
        omega
      · simp only [deliveries, List.append_assoc]
        exact htracked.deliver (hconserved.mem_iff.2 List.mem_cons_self) hplan
  | @act before after done w j left e verdict hheld =>
      obtain rfl : held = before ++ (w, ⟨j, done, e :: left, verdict⟩) :: after := hheld
      refine ⟨?_, hadmitted, ?_, ?_, hcomplete⟩
      · rw [List.map_append, List.map_cons] at hconserved ⊢
        exact hconserved
      · rw [List.map_append, List.map_cons] at hone ⊢
        exact hone
      · simp only [deliveries, List.append_assoc]
        exact (htracked.perm (perm_front _)).act.perm (perm_front _).symm
  | @actAdrift before after done j left e verdict hadrift =>
      obtain rfl : adrift = before ++ ⟨j, done, e :: left, verdict⟩ :: after := hadrift
      have hfront (x : Delivered J E D) :
          (held.map Prod.snd ++ (before ++ x :: after ++ settled)).Perm
            (x :: (held.map Prod.snd ++ (before ++ (after ++ settled)))) := by
        rw [List.append_assoc, List.cons_append, ← List.append_assoc, ← List.append_assoc]
        exact List.perm_middle
      refine ⟨hconserved, hadmitted, hone, ?_, hcomplete⟩
      rw [deliveries, List.append_assoc]
      exact (htracked.perm (hfront _)).act.perm (hfront _).symm
  | @settle before after w j done verdict hheld =>
      obtain rfl : held = before ++ (w, ⟨j, done, [], verdict⟩) :: after := hheld
      refine ⟨?_, hadmitted, nodup_without hone, htracked.perm ?_, ?_⟩
      · refine perm_of_count fun _ a => ?_
        have hcount := hconserved.count_eq a
        simp only [List.map_append, List.map_cons, List.count_append, List.count_cons,
          List.map_nil, List.count_nil] at hcount ⊢
        omega
      · refine (perm_front _).trans ?_
        simp only [deliveries, ← List.append_assoc]
        exact (List.perm_append_singleton _ _).symm
      · exact List.forall_mem_append.2 ⟨hcomplete, List.forall_mem_singleton.2 rfl⟩

/-- **One step keeps the queue sound.** -/
theorem Sound.step (h : Sound rules q) {q' : WorkQueue J W E D} (hs : Step rules q q') :
    Sound rules q' := by
  cases hs with
  | work hw => exact h.work hw
  | publish hj => exact h.publish hj
  | lose _ _ _ _ _ hheld hready => exact h.lose hheld hready

end Preserved

/-- A run of the queue from its beginning. -/
def Reached (rules : Rules J E D) (q : WorkQueue J W E D) : Prop :=
  Relation.ReflTransGen (Step rules) empty q

/-- **The queue is sound at all times.** -/
theorem Reached.sound {q : WorkQueue J W E D} (h : Reached rules q) : Sound rules q := by
  induction h with
  | refl => exact sound_empty
  | tail _ hs ih => exact ih.step hs

/-! ### Coming to rest -/

/-- What is waiting, and what is still to be done by those who are at it. -/
def remaining (q : WorkQueue J W E D) : ℕ ×ₗ ℕ :=
  toLex (q.ready.length,
    (q.held.map fun x => x.2.left.length + 1).sum + (q.adrift.map fun x => x.left.length).sum)

/-- **Work makes what remains smaller.** -/
theorem Work.remaining_lt {q q' : WorkQueue J W E D} (h : Work rules q q') :
    q'.remaining < q.remaining := by
  obtain ⟨published, ready, held, adrift, settled, effects⟩ := q
  cases h with
  | @deliver w j rest plan verdict hready hidle hplan =>
      obtain rfl : ready = j :: rest := hready
      exact Prod.Lex.toLex_lt_toLex.2 (.inl (Nat.lt_succ_self _))
  | @act before after done w j left e verdict hheld =>
      obtain rfl : held = before ++ (w, ⟨j, done, e :: left, verdict⟩) :: after := hheld
      refine Prod.Lex.toLex_lt_toLex.2 (.inr ⟨rfl, ?_⟩)
      simp only [List.map_append, List.map_cons, List.sum_append, List.sum_cons, List.length_cons]
      omega
  | @actAdrift before after done j left e verdict hadrift =>
      obtain rfl : adrift = before ++ ⟨j, done, e :: left, verdict⟩ :: after := hadrift
      refine Prod.Lex.toLex_lt_toLex.2 (.inr ⟨rfl, ?_⟩)
      simp only [List.map_append, List.map_cons, List.sum_append, List.sum_cons, List.length_cons]
      omega
  | @settle before after w j done verdict hheld =>
      obtain rfl : held = before ++ (w, ⟨j, done, [], verdict⟩) :: after := hheld
      refine Prod.Lex.toLex_lt_toLex.2 (.inr ⟨rfl, ?_⟩)
      simp only [List.map_append, List.map_cons, List.sum_append, List.sum_cons, List.length_nil]
      omega

variable (rules) in
/-- **Work does not go on forever.** -/
theorem wellFounded_work : WellFounded fun q' q : WorkQueue J W E D => Work rules q q' :=
  Subrelation.wf (fun h => h.remaining_lt) (InvImage.wf remaining wellFounded_lt)

/-- Nothing waits, and nobody has anything left to do. -/
structure AtRest (q : WorkQueue J W E D) : Prop where
  ready : q.ready = []
  held : q.held = []
  adrift : ∀ x ∈ q.adrift, x.left = []

/-- **Work goes on until the queue is at rest**, if there is a consumer and a way to handle
each job. -/
theorem atRest_of_stuck [Nonempty W] (hhandled : ∀ j, ∃ plan verdict, rules.handles j plan verdict)
    {q : WorkQueue J W E D} (hstuck : ∀ q', ¬ Work rules q q') : AtRest q := by
  obtain ⟨published, ready, held, adrift, settled, effects⟩ := q
  have hheld : held = [] := by
    cases held with
    | nil => rfl
    | cons x held =>
        obtain ⟨w, j, done, _ | ⟨e, left⟩, verdict⟩ := x
        · exact absurd (.settle [] held rfl) (hstuck _)
        · exact absurd (.act [] held done rfl) (hstuck _)
  refine ⟨?_, hheld, fun x hx => ?_⟩
  · cases ready with
    | nil => rfl
    | cons j ready =>
        obtain ⟨plan, verdict, hplan⟩ := hhandled j
        have hidle : Classical.arbitrary W ∉ held.map Prod.fst := by simp [hheld]
        exact absurd (.deliver rfl hidle hplan) (hstuck _)
  · obtain ⟨j, done, _ | ⟨e, left⟩, verdict⟩ := x
    · rfl
    · obtain ⟨before, after, rfl⟩ := List.append_of_mem hx
      exact absurd (.actAdrift before after done rfl) (hstuck _)

/-- Work publishes nothing. -/
theorem Work.published_eq {q q' : WorkQueue J W E D} (h : Work rules q q') :
    q'.published = q.published := by
  cases h <;> rfl

/-- **What a queue at rest has come to.**  Every job has been settled as often as it was
published, by a delivery that did all of its plan; the effects are those of the settled
deliveries, and of those that were lost on the way. -/
theorem Sound.atRest {q : WorkQueue J W E D} (h : Sound rules q) (hrest : AtRest q) :
    q.published.Perm (q.settled.map Delivered.job) ∧
      (∀ x ∈ q.settled, rules.handles x.job x.done x.verdict) ∧
      q.effects.Perm
        ((q.adrift.flatMap Delivered.done) ++ (q.settled.flatMap Delivered.done)) := by
  obtain ⟨published, ready, held, adrift, settled, effects⟩ := q
  obtain rfl : ready = [] := hrest.ready
  obtain rfl : held = [] := hrest.held
  refine ⟨h.conserved, fun x hx => ?_, ?_⟩
  · have hplan := h.tracked.planned x (List.mem_append_right _ hx)
    rwa [h.complete x hx, List.append_nil] at hplan
  · have heffects := h.tracked.accounted
    rwa [deliveries, List.map_nil, List.nil_append, List.flatMap_append] at heffects

/-- Work leads from a state to another. -/
def Works (rules : Rules J E D) : WorkQueue J W E D → WorkQueue J W E D → Prop :=
  Relation.ReflTransGen (Work rules)

theorem Works.reached {q q' : WorkQueue J W E D} (h : Works rules q q') (hq : Reached rules q) :
    Reached rules q' :=
  hq.trans (Relation.ReflTransGen.mono (fun _ _ hw => Step.work hw) _ _ h)

theorem Works.published_eq {q q' : WorkQueue J W E D} (h : Works rules q q') :
    q'.published = q.published := by
  induction h with
  | refl => rfl
  | tail _ hw ih => exact hw.published_eq.trans ih

variable (rules) in
/-- **Work can always be brought to its end.** -/
theorem exists_works_stuck (q : WorkQueue J W E D) :
    ∃ q', Works rules q q' ∧ ∀ q'', ¬ Work rules q' q'' := by
  induction q using (wellFounded_work rules).induction with
  | h q ih =>
      by_cases hstuck : ∀ q', ¬ Work rules q q'
      · exact ⟨q, .refl, hstuck⟩
      · obtain ⟨q₁, hq₁⟩ := not_forall_not.1 hstuck
        obtain ⟨q', hq', hend⟩ := ih q₁ hq₁
        exact ⟨q', .head hq₁ hq', hend⟩

end WorkQueue
end Machine
end CognitiveEngine
