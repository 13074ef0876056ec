/-
# Pruning while facts are stored

`run_pruning_policy` (`app/services/pruning_policy.py`) is a job of its own.  It scrolls a
collection, decides by the clock which of the points it has seen are slated, and deletes
these by their ids, while the memory workers go on storing facts under ids made of the
millisecond: what is deleted need not be what was scrolled.

`facts_kept` says that nothing is lost by this.  Whatever requests come in between, a fact is
in its collection unless another one was stored over it, or one with its id was of little
importance and more than a day old; as long as ids of different milliseconds do not collide,
a fact of the last day is always there.

The clock does not go back, and it may go on between the two readings of `add_fact`.  An
upsert creates its collection when that is missing.
-/

import Mathlib.Data.Nat.Cast.Order.Field
import CognitiveEngine.Machine.RelyGuarantee
import CognitiveEngine.Memory.Pruning

namespace CognitiveEngine
namespace Memory

open CognitiveEngine.Graph CognitiveEngine.Server CognitiveEngine.Machine

variable {V : Type}

/-! ### The requests -/

/-- The clock and the collections, and the facts whose upserts have landed, in order, which
no one keeps. -/
structure MemoryServer (V : Type) where
  clock : NNRat
  collections : Collections V
  landed : List FactCall

/-- Nothing is stored. -/
def MemoryServer.fresh : MemoryServer V := ⟨0, fun _ => none, []⟩

/-- What is under way. -/
inductive MemoryTask (V : Type) where
  /-- `add_fact` before it reads the clock. -/
  | calling (fact : FactCall)
  /-- It has its `fact_id`. -/
  | named (fact : FactCall)
  /-- Its upsert is under way. -/
  | adding (fact : FactCall)
  /-- `run_pruning_policy` with these collections left. -/
  | pruning (left : List String)
  /-- It has the points of a collection. -/
  | scrolled (colName : String) (points : List (Point V)) (left : List String)
  /-- It has the ids that it is going to delete. -/
  | deleting (colName : String) (ids left : List String)
  /-- Time. -/
  | time
  | ended

variable (scroll : Scroll V) (store : MemoryStore V)

/-- One request, or a reading of the clock, or the clock itself. -/
inductive MemoryMoves : MemoryTask V → MemoryServer V → MemoryTask V → MemoryServer V → Prop
  | passes {s : MemoryServer V} {clock : NNRat} (h : s.clock ≤ clock) :
      MemoryMoves .time s .time { s with clock := clock }
  | names {s : MemoryServer V} {fact : FactCall} :
      MemoryMoves (.calling fact) s (.named { fact with millis := ⌊s.clock * 1000⌋₊ }) s
  | dates {s : MemoryServer V} {fact : FactCall} :
      MemoryMoves (.named fact) s (.adding { fact with seconds := ⌊s.clock⌋₊ }) s
  | lands {s : MemoryServer V} {fact : FactCall} {w : String × Point V}
      (h : store.addFact fact = some w) :
      MemoryMoves (.adding fact) s .ended
        { s with collections := land s.collections w, landed := s.landed ++ [fact] }
  | scrolls {s : MemoryServer V} {colName : String} {left : List String} {points : List (Point V)}
      (h : s.collections colName = some points) :
      MemoryMoves (.pruning (colName :: left)) s
        (.scrolled colName (scroll.page points 10000) left) s
  | slates {s : MemoryServer V} {colName : String} {points : List (Point V)} {ids left : List String}
      (h : idsSlatedForDeletion ⌊s.clock⌋₊ points = some ids) :
      MemoryMoves (.scrolled colName points left) s (.deleting colName ids left) s
  | deletes {s : MemoryServer V} {colName : String} {ids left : List String} :
      MemoryMoves (.deleting colName ids left) s (.pruning left)
        { s with
          collections := Function.update s.collections colName
            ((s.collections colName).map fun points => points.filter (·.id ∉ ids)) }
  /-- The collection is missing, or a request raises: the next collection comes. -/
  | skips {s : MemoryServer V} {colName : String} {left : List String} :
      MemoryMoves (.pruning (colName :: left)) s (.pruning left) s
  | raises {s : MemoryServer V} {colName : String} {points : List (Point V)} {left : List String} :
      MemoryMoves (.scrolled colName points left) s (.pruning left) s
  | failsToDelete {s : MemoryServer V} {colName : String} {ids left : List String} :
      MemoryMoves (.deleting colName ids left) s (.pruning left) s
  /-- `add_fact` returns, of a blank text or after an exception, or a job is stopped. -/
  | ends {s : MemoryServer V} {task : MemoryTask V} : MemoryMoves task s .ended s

/-- Any calls of `add_fact` and any runs of `run_pruning_policy`. -/
def memoryRules : Parallel.Rules (MemoryTask V) (MemoryServer V) where
  starts task := task = .time ∨ (∃ fact, task = .calling fact) ∨ task = .pruning targetCollections
  moves _ := MemoryMoves scroll store

/-- The memory with all that is under way. -/
abbrev MemoryTasks (V : Type) : Type := Parallel (MemoryTask V) (MemoryServer V)

/-- The states of the runs from an empty memory. -/
def MemoryTasks.Reached (s : MemoryTasks V) : Prop :=
  Parallel.Runs (memoryRules scroll store) ⟨.fresh, []⟩ s

/-! ### What holds throughout -/

/-- The writes that have landed. -/
def MemoryServer.writes (s : MemoryServer V) : List (String × Point V) :=
  s.landed.filterMap store.addFact

/-- A landed fact with this place is slated by now. -/
def MemoryServer.Outdated (s : MemoryServer V) (colName id : String) : Prop :=
  ∃ fact ∈ s.landed, ∃ p, store.addFact fact = some (colName, p) ∧ p.id = id ∧
    fact.seconds + 86400 < ⌊s.clock⌋₊ ∧ fact.scoreImportance < 2 / 5

/-- What a task knows of the memory. -/
def MemoryTask.Knows (task : MemoryTask V) (s : MemoryServer V) : Prop :=
  match task with
  | .named fact => fact.millis ≤ (fact.at s.clock).millis
  | .adding fact => fact.millis / 1000 ≤ fact.seconds
  | .pruning left => left ⊆ targetCollections
  | .scrolled colName points left => colName ∈ targetCollections ∧ left ⊆ targetCollections ∧
      ∀ p ∈ points, ∃ fact ∈ s.landed, store.addFact fact = some (colName, p)
  | .deleting colName ids left => colName ∈ targetCollections ∧ left ⊆ targetCollections ∧
      ∀ id ∈ ids, s.Outdated store colName id
  | .calling _ | .time | .ended => True

/-- Time goes on, and what has landed has landed. -/
structure GoesOn (s s' : MemoryServer V) : Prop where
  clock : s.clock ≤ s'.clock
  landed : s.landed <+: s'.landed

/-- What holds of the memory. -/
structure MemoryInv (s : MemoryServer V) : Prop where
  dated : ∀ fact ∈ s.landed, fact.millis / 1000 ≤ fact.seconds
  last : ∀ c p, p ∈ (s.collections c).getD [] → LastWrite place (s.writes store) (c, p)
  kept : ∀ c p, LastWrite place (s.writes store) (c, p) →
    p ∈ (s.collections c).getD [] ∨ (c ∈ targetCollections ∧ s.Outdated store c p.id)

variable {scroll store} {s s' : MemoryServer V} {task task' : MemoryTask V}

theorem GoesOn.refl (s : MemoryServer V) : GoesOn s s := ⟨le_rfl, List.prefix_rfl⟩

theorem MemoryServer.Outdated.goOn {c id : String} (h : s.Outdated store c id) (hon : GoesOn s s') :
    s'.Outdated store c id := by
  obtain ⟨fact, hfact, p, hadd, hid, hold, hminor⟩ := h
  exact ⟨fact, hon.landed.subset hfact, p, hadd, hid,
    hold.trans_le (Nat.floor_mono hon.clock), hminor⟩

/-- **What a task knows survives the others.** -/
theorem MemoryTask.Knows.goOn (h : task.Knows store s) (hon : GoesOn s s') :
    task.Knows store s' := by
  cases task with
  | named fact =>
      exact h.trans (Nat.floor_mono (mul_le_mul_of_nonneg_right hon.clock (by norm_num)))
  | scrolled colName points left =>
      obtain ⟨hcol, hleft, hpoints⟩ := h
      refine ⟨hcol, hleft, fun p hp => ?_⟩
      obtain ⟨fact, hfact, hadd⟩ := hpoints p hp
      exact ⟨fact, hon.landed.subset hfact, hadd⟩
  | deleting colName ids left => exact ⟨h.1, h.2.1, fun id hid => (h.2.2 id hid).goOn hon⟩
  | calling | adding | pruning | time | ended => exact h

/-- The id of a stored fact. -/
theorem id_of_addFact {fact : FactCall} {c : String} {p : Point V}
    (h : store.addFact fact = some (c, p)) : p.id = store.uuid5 fact.factId := by
  unfold MemoryStore.addFact at h
  split at h
  · exact absurd h.symm (Option.some_ne_none _)
  · obtain ⟨-, rfl⟩ := Prod.mk.inj (Option.some.inj h)
    exact store.pointId_factId fact

/-- A write that is stored was made by a fact. -/
theorem MemoryInv.exists_fact (h : MemoryInv store s) {c : String} {p : Point V}
    (hp : p ∈ (s.collections c).getD []) : ∃ fact ∈ s.landed, store.addFact fact = some (c, p) :=
  List.mem_filterMap.1 (h.last c p hp).mem

/-- **What is slated is outdated.** -/
theorem outdated_of_slated {colName : String} {points : List (Point V)} {ids : List String}
    (hfacts : ∀ p ∈ points, ∃ fact ∈ s.landed, store.addFact fact = some (colName, p))
    (h : idsSlatedForDeletion ⌊s.clock⌋₊ points = some ids) :
    ∀ id ∈ ids, s.Outdated store colName id := by
  have hslated : ∀ p ∈ points,
      slated ⌊s.clock⌋₊ p = some ((slated ⌊s.clock⌋₊ p).getD false) := by
    intro p hp
    obtain ⟨fact, -, hadd⟩ := hfacts p hp
    rw [slated_of_addFact hadd, Option.getD_some]
  rw [idsSlatedForDeletion_eq hslated] at h
  obtain rfl := Option.some.inj h
  intro id hid
  obtain ⟨p, hp, rfl⟩ := List.mem_map.1 hid
  obtain ⟨hmem, hpurge⟩ := List.mem_filter.1 hp
  obtain ⟨fact, hfact, hadd⟩ := hfacts p hmem
  rw [slated_of_addFact hadd, Option.getD_some, decide_eq_true_iff] at hpurge
  exact ⟨fact, hfact, p, hadd, rfl, hpurge⟩

theorem MemoryMoves.goesOn (h : MemoryMoves scroll store task s task' s') : GoesOn s s' := by
  cases h with
  | passes h => exact ⟨h, List.prefix_rfl⟩
  | lands h => exact ⟨le_rfl, List.prefix_append _ _⟩
  | deletes => exact ⟨le_rfl, List.prefix_rfl⟩
  | names | dates | scrolls | slates | skips | raises | failsToDelete | ends => exact .refl s

/-- **A task learns what it knows** from its own requests. -/
theorem MemoryMoves.knows (h : MemoryMoves scroll store task s task' s') (hinv : MemoryInv store s)
    (hk : task.Knows store s) : task'.Knows store s' := by
  cases h with
  | names => exact le_rfl
  | @dates _ fact =>
      -- The thousands of the first reading are seconds of the second.
      refine Nat.le_floor (Nat.cast_div_le.trans ?_)
      rw [div_le_iff₀ (by norm_num)]
      exact (Nat.le_floor_iff zero_le).1 hk
  | scrolls hpoints =>
      refine ⟨hk List.mem_cons_self, (List.cons_subset.1 hk).2, fun p hp => hinv.exists_fact ?_⟩
      rw [hpoints]
      exact scroll.page_subset _ _ hp
  | slates hids => exact ⟨hk.1, hk.2.1, outdated_of_slated hk.2.2 hids⟩
  | skips => exact (List.cons_subset.1 hk).2
  | deletes | raises | failsToDelete => exact hk.2.1
  | passes | lands | ends => trivial

/-- An upsert lands. -/
theorem MemoryInv.land (hinv : MemoryInv store s) {fact : FactCall} {w : String × Point V}
    (hadd : store.addFact fact = some w) (hdated : fact.millis / 1000 ≤ fact.seconds) :
    MemoryInv store
      { s with collections := land s.collections w, landed := s.landed ++ [fact] } := by
  have hwrites : (s.landed ++ [fact]).filterMap store.addFact = s.writes store ++ [w] := by
    rw [List.filterMap_append, List.filterMap_cons_some hadd]
    rfl
  refine ⟨fun f hf => ?_, fun c p hp => ?_, fun c p hp => ?_⟩
  · rcases List.mem_append.1 hf with hf | hf
    · exact hinv.dated f hf
    · exact List.mem_singleton.1 hf ▸ hdated
  · rw [MemoryServer.writes, hwrites, lastWrite_concat]
    exact (mem_land.1 hp).imp_right (And.imp_left (hinv.last c p))
  · rw [MemoryServer.writes, hwrites, lastWrite_concat] at hp
    rw [mem_land]
    rcases hp with hw | ⟨hlast, hne⟩
    · exact .inl (.inl hw)
    · exact (hinv.kept c p hlast).imp (fun hmem => .inr ⟨hmem, hne⟩)
        (And.imp_right (·.goOn ⟨le_rfl, List.prefix_append _ _⟩))

/-- A delete goes through: what it takes away is outdated. -/
theorem MemoryInv.delete (hinv : MemoryInv store s) {colName : String} {ids : List String}
    (hcol : colName ∈ targetCollections) (hids : ∀ id ∈ ids, s.Outdated store colName id) :
    MemoryInv store
      { s with
        collections := Function.update s.collections colName
          ((s.collections colName).map fun points => points.filter (·.id ∉ ids)) } := by
  have hmem : ∀ c p, p ∈ (Function.update s.collections colName
      ((s.collections colName).map fun points => points.filter (·.id ∉ ids)) c).getD [] ↔
        p ∈ (s.collections c).getD [] ∧ (c = colName → p.id ∉ ids) := by
    intro c p
    by_cases hc : c = colName
    · subst hc
      rw [Function.update_self]
      cases s.collections c <;> simp
    · rw [Function.update_of_ne hc]
      simp [hc]
  refine ⟨hinv.dated, fun c p hp => hinv.last c p ((hmem c p).1 hp).1, fun c p hlast => ?_⟩
  rw [hmem]
  rcases hinv.kept c p hlast with hp | hout
  · -- What was slated may be another point with this id.
    by_cases hdeleted : c = colName ∧ p.id ∈ ids
    · obtain ⟨rfl, hid⟩ := hdeleted
      exact .inr ⟨hcol, hids p.id hid⟩
    · exact .inl ⟨hp, fun hc hid => hdeleted ⟨hc, hid⟩⟩
  · exact .inr hout

theorem MemoryMoves.inv (h : MemoryMoves scroll store task s task' s') (hinv : MemoryInv store s)
    (hk : task.Knows store s) : MemoryInv store s' := by
  cases h with
  | passes hclock =>
      exact ⟨hinv.dated, hinv.last, fun c p hp => (hinv.kept c p hp).imp_right
        (And.imp_right (·.goOn ⟨hclock, List.prefix_rfl⟩))⟩
  | lands hadd => exact hinv.land hadd hk
  | deletes => exact hinv.delete hk.1 hk.2.2
  | names | dates | scrolls | slates | skips | raises | failsToDelete | ends => exact hinv

/-- **The requests keep to their guarantee.** -/
theorem memory_relyGuarantee :
    Parallel.RelyGuarantee (memoryRules scroll store) (fun _ task s => task.Knows store s)
      (fun _ => GoesOn) (fun _ s => MemoryInv store s) where
  start hp _ := by
    obtain rfl | ⟨fact, rfl⟩ | rfl := hp
    · trivial
    · trivial
    · exact List.Subset.refl _
  grow h := h
  keeps h _ hinv hk := ⟨MemoryMoves.inv h hinv hk, MemoryMoves.goesOn h, MemoryMoves.knows h hinv hk⟩
  stable _ hon hk := hk.goOn hon

theorem memoryInv_fresh : MemoryInv store .fresh where
  dated _ hf := absurd hf List.not_mem_nil
  last _ _ hp := absurd hp List.not_mem_nil
  kept _ _ hp := absurd hp.mem List.not_mem_nil

theorem MemoryTasks.Reached.inv {s : MemoryTasks V} (h : s.Reached scroll store) :
    MemoryInv store s.shared :=
  (memory_relyGuarantee.sound h (Parallel.sound_start memoryInv_fresh)).inv

/-- **Nothing is lost by pruning.**  In every state of every run, a collection holds nothing
but the last writes of their ids, and it has each of these unless the policy sweeps over it
and a fact stored under the id was of little importance and is more than a day old.  Where
facts of different milliseconds have different ids, a fact whose id is of the last day is
there until another one is stored over it. -/
theorem facts_kept {s : MemoryTasks V} (h : s.Reached scroll store) :
    (∀ c p, p ∈ (s.shared.collections c).getD [] →
      LastWrite place (s.shared.writes store) (c, p)) ∧
    (∀ c p, LastWrite place (s.shared.writes store) (c, p) →
      p ∈ (s.shared.collections c).getD [] ∨
        (c ∈ targetCollections ∧ s.shared.Outdated store c p.id)) ∧
    ((∀ f ∈ s.shared.landed, ∀ g ∈ s.shared.landed,
        store.uuid5 f.factId = store.uuid5 g.factId → f.millis = g.millis) →
      ∀ f ∈ s.shared.landed, ∀ c p, store.addFact f = some (c, p) →
        LastWrite place (s.shared.writes store) (c, p) →
        ⌊s.shared.clock⌋₊ ≤ f.millis / 1000 + 86400 → p ∈ (s.shared.collections c).getD []) := by
  have hinv := h.inv
  refine ⟨hinv.last, hinv.kept, fun hids f hf c p hadd hlast hrecent => ?_⟩
  refine (hinv.kept c p hlast).resolve_right ?_
  rintro ⟨-, g, hg, q, hadd', hid, hold, -⟩
  have hmillis : g.millis = f.millis := by
    refine hids g hg f hf ?_
    rw [← id_of_addFact hadd, ← id_of_addFact hadd', hid]
  have hdated := hinv.dated g hg
  omega

/-! ### A fact that is stored after the scroll -/

/-- A fact that is told on the second day. -/
def drinksCoffee : FactCall := drinks "alice" "coffee" 0

/-- The point it is stored as. -/
def coffeeWrite : String × Point Unit := listedStore.write (drinksCoffee.at 100000)

/-- The policy has taken the first fact away, which it had scrolled before the second one
was stored. -/
def swept : MemoryTasks Unit where
  shared :=
    { clock := 100000
      collections :=
        let collections := land (land (fun _ => none) teaWrite) coffeeWrite
        Function.update collections "general_memory"
          ((collections "general_memory").map fun points => points.filter (·.id ∉ [teaWrite.2.id]))
      landed := [drinksTea.at 0, drinksCoffee.at 100000] }
  procs := [.ended, .time, .pruning ["research_papers", "vision_detection"], .ended]

/-- The run that leads there. -/
theorem reached_swept : swept.Reached insertionScroll listedStore := by
  let Reaches (s : MemoryTasks Unit) : Prop := s.Reached insertionScroll listedStore
  let left := ["research_papers", "vision_detection"]
  let morning : MemoryServer Unit :=
    ⟨100000, land (fun _ => none) teaWrite, [drinksTea.at 0]⟩
  have htea : listedStore.addFact (drinksTea.at 0) = some teaWrite :=
    addFact_of_not_blank listedStore (by decide)
  have hcoffee : listedStore.addFact (drinksCoffee.at 100000) = some coffeeWrite :=
    addFact_of_not_blank listedStore (by decide)
  have hstored : Reaches ⟨{ morning with clock := 0 }, [.ended]⟩ := by
    have hcalled : Reaches ⟨.fresh, [.calling drinksTea]⟩ :=
      Relation.ReflTransGen.refl.tail (.start (.inr (.inl ⟨_, rfl⟩)))
    have hread : Reaches ⟨.fresh, [.adding (drinksTea.at 0)]⟩ :=
      (hcalled.tail (.move (i := 0) rfl .names)).tail (.move (i := 0) rfl .dates)
    exact hread.tail (.move (i := 0) rfl (.lands htea))
  have hmorning : Reaches ⟨morning, [.ended, .time, .pruning targetCollections]⟩ :=
    ((hstored.tail (.start (.inl rfl))).tail (.move (i := 1) rfl (.passes (by norm_num)))).tail
      (.start (.inr (.inr rfl)))
  have hpoints : land (fun _ => none) teaWrite "general_memory" = some [teaWrite.2] := by
    rw [land]
    exact Function.update_self (f := fun _ => none) "general_memory" _
  have hscroll : MemoryMoves insertionScroll listedStore (.pruning targetCollections) morning
      (.scrolled "general_memory" (insertionScroll.page [teaWrite.2] 10000) left) morning :=
    .scrolls hpoints
  have hscrolled : Reaches ⟨morning, [.ended, .time, .scrolled "general_memory" [teaWrite.2] left]⟩ :=
    hmorning.tail (.move (i := 2) rfl hscroll)
  have hslated : Reaches ⟨morning,
      [.ended, .time, .deleting "general_memory" [teaWrite.2.id] left]⟩ := by
    refine hscrolled.tail (.move (i := 2) rfl (.slates ?_))
    have hpurge : slated ⌊(100000 : NNRat)⌋₊ teaWrite.2 = some true := by
      refine (slated_of_addFact (p := teaWrite.2) htea _).trans ?_
      rw [Nat.floor_ofNat]
      norm_num [FactCall.at, drinksTea]
    rw [idsSlatedForDeletion, hpurge]
    rfl
  have hcalled : Reaches ⟨morning, [.ended, .time,
      .deleting "general_memory" [teaWrite.2.id] left, .calling drinksCoffee]⟩ :=
    hslated.tail (.start (.inr (.inl ⟨_, rfl⟩)))
  have hread : Reaches ⟨morning, [.ended, .time,
      .deleting "general_memory" [teaWrite.2.id] left, .adding (drinksCoffee.at 100000)]⟩ :=
    (hcalled.tail (.move (i := 3) rfl .names)).tail (.move (i := 3) rfl .dates)
  exact (hread.tail (.move (i := 3) rfl (.lands hcoffee))).tail (.move (i := 2) rfl .deletes)

/-- The second fact is there. -/
theorem coffee_kept : coffeeWrite.2 ∈ (swept.shared.collections "general_memory").getD [] := by
  have hcoffee : listedStore.addFact (drinksCoffee.at 100000) = some coffeeWrite :=
    addFact_of_not_blank listedStore (by decide)
  refine (facts_kept reached_swept).2.2 ?_ (drinksCoffee.at 100000) ?_ _ _ hcoffee ?_ ?_
  · intro f _ g _ h
    exact factId_inj.1 (listedStore_injective h)
  · exact List.mem_cons_of_mem _ List.mem_cons_self
  · have hwrites : swept.shared.writes listedStore = [teaWrite] ++ [coffeeWrite] := rfl
    rw [hwrites, lastWrite_concat]
    exact .inl rfl
  · have hclock : swept.shared.clock = 100000 := rfl
    rw [hclock, Nat.floor_ofNat]
    norm_num [FactCall.at]

end Memory
end CognitiveEngine
