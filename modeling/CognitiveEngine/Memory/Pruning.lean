/-
# Pruning of the long-term memory

`run_pruning_policy` (`app/services/pruning_policy.py`) deletes facts that have not been
accessed for a day and are of little importance.  The time of the last access is the
field `last_accessed`, which `add_fact` sets and nothing refreshes:
`HybridRetriever.retrieve` only reads.

So a fact that was added within the last day is safe (`spared_of_recent`), and one that
was only retrieved within it is purged like any other: `recentlyUsedSurvive_iff` says
for which sequences of calls that makes no difference.

The calls come one after the other here, at times given by an exact clock; a run of the
policy reads it once.  In which order the engine scrolls is left open.
-/

import Mathlib.Data.NNRat.Floor
import CognitiveEngine.Machine.Trace
import CognitiveEngine.Memory.Recall

namespace CognitiveEngine
namespace Memory

open CognitiveEngine.Graph CognitiveEngine.Server CognitiveEngine.Machine

variable {V : Type}

/-! ### The policy -/

/-- `target_collections`. -/
def targetCollections : List String := ["general_memory", "research_papers", "vision_detection"]

/-- A value that takes part in arithmetic. -/
def number? : Json → Option ℚ
  | .int n => some n
  | .float q => some q
  | .bool b => some (if b then 1 else 0)
  | _ => none

/-- Whether a point is slated for deletion; `none` when its metadata are no numbers and
the comparison raises. -/
def slated (currentTimestamp : ℕ) (point : Point V) : Option Bool :=
  match number? ((point.payload.get "last_accessed").getD (.int currentTimestamp)) with
  | none => none
  | some lastAccessedTimestamp =>
      if (currentTimestamp : ℚ) - lastAccessedTimestamp > 86400 then
        (number? ((point.payload.get "score_importance").getD (.float (1 / 2)))).map
          fun importanceCoefficient => importanceCoefficient < 2 / 5
      else some false

/-- `ids_slated_for_deletion`. -/
def idsSlatedForDeletion (currentTimestamp : ℕ) : List (Point V) → Option (List String)
  | [] => some []
  | point :: points =>
      match slated currentTimestamp point, idsSlatedForDeletion currentTimestamp points with
      | some purge, some ids => some (if purge then point.id :: ids else ids)
      | _, _ => none

/-- `client.scroll` without a filter: some of the points, at most as many as the limit. -/
structure Scroll (V : Type) where
  page : List (Point V) → ℕ → List (Point V)
  page_subset : ∀ points limit, page points limit ⊆ points

variable (scroll : Scroll V)

/-- The sweep of one collection; an exception is caught before anything is deleted. -/
def sweep (currentTimestamp : ℕ) (points : List (Point V)) : List (Point V) :=
  match idsSlatedForDeletion currentTimestamp (scroll.page points 10000) with
  | none => points
  | some ids => points.filter (·.id ∉ ids)

/-- `run_pruning_policy`. -/
def runPruningPolicy (currentTimestamp : ℕ) (collections : Collections V) : Collections V :=
  fun colName =>
    if colName ∈ targetCollections then
      (collections colName).map (sweep scroll currentTimestamp)
    else collections colName

/-- Pruning neither makes nor drops a collection. -/
theorem isSome_runPruningPolicy (currentTimestamp : ℕ) (collections : Collections V)
    (c : String) :
    (runPruningPolicy scroll currentTimestamp collections c).isSome = (collections c).isSome := by
  unfold runPruningPolicy
  split
  · exact Option.isSome_map
  · rfl

variable {scroll}

/-- What is slated, of points whose metadata are numbers. -/
theorem idsSlatedForDeletion_eq {currentTimestamp : ℕ} {purge : Point V → Bool}
    {points : List (Point V)} (h : ∀ p ∈ points, slated currentTimestamp p = some (purge p)) :
    idsSlatedForDeletion currentTimestamp points
      = some ((points.filter purge).map Point.id) := by
  induction points with
  | nil => rfl
  | cons p points ih =>
      rw [List.forall_mem_cons] at h
      rw [idsSlatedForDeletion, h.1, ih h.2]
      cases hp : purge p <;> simp [hp]

/-- **What a sweep leaves:** the points that have not the id of a slated one. -/
theorem mem_runPruningPolicy {currentTimestamp : ℕ} {purge : Point V → Bool}
    {collections : Collections V} {c : String}
    (h : ∀ p ∈ (collections c).getD [], slated currentTimestamp p = some (purge p)) {p : Point V} :
    p ∈ (runPruningPolicy scroll currentTimestamp collections c).getD [] ↔
      p ∈ (collections c).getD [] ∧
        (c ∈ targetCollections → ∀ q ∈ scroll.page ((collections c).getD []) 10000,
          purge q → q.id ≠ p.id) := by
  unfold runPruningPolicy
  by_cases hc : c ∈ targetCollections
  · rw [if_pos hc]
    cases hpoints : collections c with
    | none => simp
    | some points =>
        rw [hpoints, Option.getD_some] at h
        have hpage : ∀ q ∈ scroll.page points 10000, slated currentTimestamp q = some (purge q) :=
          fun q hq => h q (scroll.page_subset points 10000 hq)
        rw [Option.map_some, Option.getD_some, Option.getD_some, sweep,
          idsSlatedForDeletion_eq hpage]
        simp only [List.mem_filter, List.mem_map, not_exists, not_and, and_imp, hc, forall_const,
          decide_eq_true_iff, ne_eq]
  · rw [if_neg hc]
    simp [hc]

/-! ### Calls -/

/-- A call of the memory, at a time. -/
inductive MemoryCall where
  | addFact (time : NNRat) (fact : FactCall)
  | retrieve (time : NNRat) (userId query collection : String) (k : ℕ)
  | runPruningPolicy (time : NNRat)

/-- The time of a call. -/
def MemoryCall.time : MemoryCall → NNRat
  | .addFact time _ | .retrieve time _ _ _ _ | .runPruningPolicy time => time

/-- A call of `add_fact` with its readings of the clock. -/
def FactCall.at (fact : FactCall) (time : NNRat) : FactCall :=
  { fact with millis := ⌊time * 1000⌋₊, seconds := ⌊time⌋₊ }

/-- The collections, and the time of the last call. -/
structure MemoryState (V : Type) where
  collections : Collections V
  clock : NNRat

/-- A store without collections. -/
def MemoryState.fresh : MemoryState V := ⟨fun _ => none, 0⟩

variable (scroll) (store : MemoryStore V) (retriever : HybridRetriever V)

/-- The facts a call stores or returns, each with its collection, and the collections
afterwards. -/
def MemoryState.call (s : MemoryState V) : MemoryCall → List (String × Point V) × Collections V
  | .addFact time fact =>
      match store.addFact (fact.at time) with
      | none => ([], s.collections)
      | some w => ([w], land s.collections w)
  | .retrieve _ userId query collection k =>
      (((retriever.hybridSearch s.collections userId query collection k).getD []).map
        fun p => (collection, p), s.collections)
  | .runPruningPolicy time => ([], Memory.runPruningPolicy scroll ⌊time⌋₊ s.collections)

/-- A call at a time not before the last one. -/
def MemoryStep (s : MemoryState V) (call : MemoryCall) (used : List (String × Point V))
    (s' : MemoryState V) : Prop :=
  s.clock ≤ call.time ∧ (used, s'.collections) = s.call scroll store retriever call ∧
    s'.clock = call.time

/-- A call and the facts it stored or returned. -/
abbrev MemoryEvent (V : Type) : Type := Event (MemoryState V) MemoryCall (List (String × Point V))

/-- **Recently used facts survive:** a fact that was stored or returned at most a day
before a run of the policy, and is there when it begins, is there when it ends. -/
def RecentlyUsedSurvive (es : List (MemoryEvent V)) : Prop :=
  ∀ before e after time, es = before ++ e :: after → e.input = .runPruningPolicy time →
    ∀ r ∈ before, time ≤ r.input.time + 86400 → ∀ c p, (c, p) ∈ r.output →
      p ∈ (e.before.collections c).getD [] →
      p ∈ (Memory.runPruningPolicy scroll ⌊time⌋₊ e.before.collections c).getD []

/-- A fact that a run of the policy sweeps over was added at most a day before, by the
whole seconds, or is important. -/
def Spared (collections : Collections V) (time : NNRat) (c : String) (p : Point V) : Prop :=
  c ∈ targetCollections → p ∈ scroll.page ((collections c).getD []) 10000 →
    ∀ f, store.addFact f = some (c, p) →
      ⌊time⌋₊ ≤ f.seconds + 86400 ∨ 2 / 5 ≤ f.scoreImportance

/-- A run of the policy spares what was retrieved at most a day before. -/
def RetrievedSpared (es : List (MemoryEvent V)) : Prop :=
  ∀ before e after time, es = before ++ e :: after → e.input = .runPruningPolicy time →
    ∀ r ∈ before, time ≤ r.input.time + 86400 →
      (∃ t userId query collection k, r.input = .retrieve t userId query collection k) →
      ∀ c p, (c, p) ∈ r.output → p ∈ (e.before.collections c).getD [] →
        Spared scroll store e.before.collections time c p

/-! ### What is stored -/

/-- Every point is the one a call makes, and no two in a collection have one id. -/
structure WellStored (collections : Collections V) : Prop where
  facts : ∀ c, ∀ p ∈ (collections c).getD [], ∃ f, store.addFact f = some (c, p)
  unique : ∀ c, ∀ p ∈ (collections c).getD [], ∀ q ∈ (collections c).getD [], p.id = q.id → p = q

variable {scroll store retriever}

theorem wellStored_empty : WellStored store fun _ : String => none :=
  ⟨fun _ _ h => absurd h List.not_mem_nil, fun _ _ h => absurd h List.not_mem_nil⟩

/-- The metadata the policy reads. -/
theorem get_of_addFact {f : FactCall} {c : String} {p : Point V}
    (h : store.addFact f = some (c, p)) :
    p.payload.get "last_accessed" = some (.int f.seconds) ∧
      p.payload.get "score_importance" = some (.float f.scoreImportance) := by
  unfold MemoryStore.addFact at h
  split at h
  · exact absurd h.symm (Option.some_ne_none _)
  · obtain ⟨rfl, rfl⟩ := Prod.mk.inj (Option.some.inj h)
    exact ⟨rfl, rfl⟩

/-- **Which facts are slated:** those added more than a day before that are of little
importance. -/
theorem slated_of_addFact {f : FactCall} {c : String} {p : Point V}
    (h : store.addFact f = some (c, p)) (now : ℕ) :
    slated now p = some (decide (f.seconds + 86400 < now ∧ f.scoreImportance < 2 / 5)) := by
  obtain ⟨haccessed, himportance⟩ := get_of_addFact h
  rw [slated, haccessed, himportance]
  have hidle : (now : ℚ) - ((f.seconds : ℤ) : ℚ) > 86400 ↔ f.seconds + 86400 < now := by
    rw [gt_iff_lt, lt_sub_iff_add_lt, Int.cast_natCast, add_comm]
    exact_mod_cast Iff.rfl
  dsimp only [Option.getD_some, number?]
  by_cases h : f.seconds + 86400 < now
  · rw [if_pos (hidle.2 h), Option.map_some]
    simp [h]
  · rw [if_neg (fun hnow => h (hidle.1 hnow))]
    simp [h]

/-- A point that a call upserts keeps the store in order. -/
theorem WellStored.land {collections : Collections V} (h : WellStored store collections)
    {f : FactCall} {w : String × Point V} (hw : store.addFact f = some w) :
    WellStored store (land collections w) := by
  refine ⟨fun c p hp => ?_, fun c p hp q hq hid => ?_⟩
  · rcases mem_land.1 hp with rfl | ⟨hp, -⟩
    · exact ⟨f, hw⟩
    · exact h.facts c p hp
  · rcases mem_land.1 hp with rfl | ⟨hp, hpw⟩
    · rcases mem_land.1 hq with heq | ⟨-, hqw⟩
      · exact (Prod.mk.inj heq).2.symm
      · exact absurd (congrArg (Prod.mk c) hid) hqw
    · rcases mem_land.1 hq with rfl | ⟨hq, -⟩
      · exact absurd (congrArg (Prod.mk c) hid.symm) hpw
      · exact h.unique c p hp q hq hid

/-- The policy can read the metadata of every point. -/
theorem WellStored.slated_eq {collections : Collections V} (h : WellStored store collections)
    (now : ℕ) (c : String) : ∀ p ∈ (collections c).getD [],
      slated now p = some ((slated now p).getD false) := by
  intro p hp
  obtain ⟨f, hf⟩ := h.facts c p hp
  rw [slated_of_addFact hf, Option.getD_some]

/-- A run of the policy does. -/
theorem WellStored.runPruningPolicy {collections : Collections V} (h : WellStored store collections)
    (now : ℕ) : WellStored store (runPruningPolicy scroll now collections) := by
  have hsub : ∀ c, ∀ p ∈ (Memory.runPruningPolicy scroll now collections c).getD [],
      p ∈ (collections c).getD [] := by
    intro c p hp
    exact ((mem_runPruningPolicy (h.slated_eq now c)).1 hp).1
  exact ⟨fun c p hp => h.facts c p (hsub c p hp),
    fun c p hp q hq => h.unique c p (hsub c p hp) q (hsub c q hq)⟩

/-- Every call keeps the store in order. -/
theorem WellStored.step {s s' : MemoryState V} {call : MemoryCall} {used : List (String × Point V)}
    (h : WellStored store s.collections) (hstep : MemoryStep scroll store retriever s call used s') :
    WellStored store s'.collections := by
  obtain ⟨-, hcall, -⟩ := hstep
  cases call with
  | addFact time fact =>
      rw [MemoryState.call] at hcall
      cases hadd : store.addFact (fact.at time) with
      | none =>
          rw [hadd] at hcall
          exact (Prod.mk.inj hcall).2 ▸ h
      | some w =>
          rw [hadd] at hcall
          exact (Prod.mk.inj hcall).2 ▸ h.land hadd
  | retrieve time userId query collection k => exact (Prod.mk.inj hcall).2 ▸ h
  | runPruningPolicy time => exact (Prod.mk.inj hcall).2 ▸ h.runPruningPolicy _

/-- **When a fact survives a run of the policy:** exactly when it is spared. -/
theorem survives_iff {collections : Collections V} (h : WellStored store collections)
    {c : String} {p : Point V} (hp : p ∈ (collections c).getD []) (time : NNRat) :
    p ∈ (runPruningPolicy scroll ⌊time⌋₊ collections c).getD [] ↔
      Spared scroll store collections time c p := by
  rw [mem_runPruningPolicy (h.slated_eq ⌊time⌋₊ c), and_iff_right hp]
  refine forall_congr' fun _ => ⟨fun hkept hpage f hf => ?_, fun hspared q hq hpurge hid => ?_⟩
  · by_contra hnot
    rw [not_or, not_le, not_le] at hnot
    exact hkept p hpage (by rw [slated_of_addFact hf]; simp [hnot]) rfl
  · -- The slated point is the only one with its id.
    obtain rfl := h.unique c q (scroll.page_subset _ _ hq) p hp hid
    obtain ⟨f, hf⟩ := h.facts c q hp
    rw [slated_of_addFact hf, Option.getD_some, decide_eq_true_iff] at hpurge
    rcases hspared hq f hf with hrecent | himportant
    · exact absurd hpurge.1 (by omega)
    · exact absurd hpurge.2 (not_lt.2 himportant)

/-- A fact that was added at most a day before is spared. -/
theorem spared_of_recent {fact : FactCall} {time time' : NNRat} {c : String} {p : Point V}
    (hadd : store.addFact (fact.at time) = some (c, p)) (htime : time' ≤ time + 86400)
    (collections : Collections V) : Spared scroll store collections time' c p := by
  intro _ _ f hf
  have hseconds : f.seconds = ⌊time⌋₊ := by
    have heq := (get_of_addFact hf).1.symm.trans (get_of_addFact hadd).1
    rw [Option.some.injEq, Json.int.injEq] at heq
    exact_mod_cast heq
  refine .inl ?_
  calc ⌊time'⌋₊ ≤ ⌊time + (86400 : ℕ)⌋₊ := Nat.floor_mono (by exact_mod_cast htime)
    _ = f.seconds + 86400 := by rw [Nat.floor_add_natCast zero_le, hseconds]

/-- **When recently used facts survive pruning.**  In every sequence of calls from an
empty store: exactly when every fact that was retrieved at most a day before a run of
the policy, and that the run sweeps over, was also added within the day or is
important. -/
theorem recentlyUsedSurvive_iff {es : List (MemoryEvent V)} {s : MemoryState V}
    (ht : Trace (MemoryStep scroll store retriever) .fresh es s) :
    RecentlyUsedSurvive scroll es ↔ RetrievedSpared scroll store es := by
  have hstored : ∀ e ∈ es, WellStored store e.before.collections :=
    (ht.invariant (P := fun s => WellStored store s.collections)
      (fun hs hstep => hs.step hstep) wellStored_empty).2
  have hpruned : ∀ {before after : List (MemoryEvent V)} {e : MemoryEvent V},
      es = before ++ e :: after → WellStored store e.before.collections := by
    rintro before after e rfl
    exact hstored e (List.mem_append_right _ List.mem_cons_self)
  constructor
  · intro hsurvive before e after time hes hinput r hr htime _ c p hused hp
    exact (survives_iff (hpruned hes) hp time).1
      (hsurvive before e after time hes hinput r hr htime c p hused hp)
  · intro hspared before e after time hes hinput r hr htime c p hused hp
    rw [survives_iff (hpruned hes) hp]
    have hmem : r ∈ es := hes ▸ List.mem_append_left _ hr
    obtain ⟨s₁, -, hcall, -⟩ := ht.step_of_mem hmem
    have houtput : (c, p) ∈ (r.before.call scroll store retriever r.input).1 :=
      (Prod.mk.inj hcall).1 ▸ hused
    cases hr' : r.input with
    | addFact time' fact =>
        rw [hr', MemoryState.call] at houtput
        rw [hr'] at htime
        cases hadd : store.addFact (fact.at time') with
        | none =>
            rw [hadd] at houtput
            exact absurd houtput List.not_mem_nil
        | some w =>
            rw [hadd] at houtput
            rw [← List.mem_singleton.1 houtput] at hadd
            exact spared_of_recent hadd htime _
    | retrieve time' userId query collection k =>
        exact hspared before e after time hes hinput r hr htime ⟨_, _, _, _, _, hr'⟩ c p hused hp
    | runPruningPolicy time' =>
        rw [hr'] at houtput
        exact absurd houtput List.not_mem_nil

/-! ### A fact that is asked for every day -/

/-- An engine that scrolls in the order of insertion. -/
def insertionScroll : Scroll Unit where
  page points limit := points.take limit
  page_subset points limit := List.take_subset limit points

/-- A fact of little importance. -/
def drinksTea : FactCall :=
  { drinks "alice" "tea" 0 with scoreImportance := 3 / 10 }

/-- The point it is stored as at the start. -/
def teaWrite : String × Point Unit := listedStore.write (drinksTea.at 0)

/-- The store with that point. -/
def teaStored (clock : NNRat) : MemoryState Unit := ⟨land (fun _ => none) teaWrite, clock⟩

/-- The fact is added, and retrieved some time later. -/
def teaEvents (time : NNRat) : List (MemoryEvent Unit) :=
  [⟨.fresh, .addFact 0 drinksTea, [teaWrite]⟩,
    ⟨teaStored 0, .retrieve time "alice" "What do I drink?" "general_memory" 3, [teaWrite]⟩]

/-- What a run of the policy finds after that. -/
theorem trace_teaEvents (time time' : NNRat) (h : time ≤ time') :
    ∃ s, Trace (MemoryStep insertionScroll listedStore plainRetriever) .fresh
      (teaEvents time ++ [⟨teaStored time, .runPruningPolicy time', []⟩]) s := by
  have hadd : listedStore.addFact (drinksTea.at 0) = some teaWrite :=
    addFact_of_not_blank listedStore (by decide)
  have hstored : MemoryStep insertionScroll listedStore plainRetriever .fresh
      (.addFact 0 drinksTea) [teaWrite] (teaStored 0) := by
    refine ⟨le_rfl, ?_, rfl⟩
    simp only [MemoryState.call, hadd]
    rfl
  have hretrieved : MemoryStep insertionScroll listedStore plainRetriever (teaStored 0)
      (.retrieve time "alice" "What do I drink?" "general_memory" 3) [teaWrite] (teaStored time) :=
    ⟨zero_le, rfl, rfl⟩
  exact ⟨⟨_, time'⟩, .cons hstored (.cons hretrieved (.cons ⟨h, rfl, rfl⟩ (.nil _)))⟩

/-- On the day it was added, the fact survives. -/
theorem tea_survives :
    RecentlyUsedSurvive insertionScroll
      (teaEvents 100 ++ [⟨teaStored 100, .runPruningPolicy 200, []⟩]) := by
  obtain ⟨s, ht⟩ := trace_teaEvents 100 200 (by norm_num)
  refine (recentlyUsedSurvive_iff ht).2 ?_
  intro before e after time hes hinput r _ _ _ c p _ _ _ _ f _
  have he : e ∈ teaEvents 100 ++ [⟨teaStored 100, .runPruningPolicy 200, []⟩] :=
    hes ▸ List.mem_append_right _ List.mem_cons_self
  have htime : time = 200 := by
    simp only [teaEvents, List.cons_append, List.nil_append, List.mem_cons, List.not_mem_nil,
      or_false] at he
    rcases he with rfl | rfl | rfl
    · exact absurd hinput nofun
    · exact absurd hinput nofun
    · exact (MemoryCall.runPruningPolicy.inj hinput).symm
  rw [htime, Nat.floor_ofNat]
  exact .inl (by omega)

/-- On the next day it is purged, a second after it was retrieved. -/
theorem tea_purged :
    ¬ ∀ (es : List (MemoryEvent Unit)) (s : MemoryState Unit),
      Trace (MemoryStep insertionScroll listedStore plainRetriever) .fresh es s →
      RecentlyUsedSurvive insertionScroll es := by
  intro h
  obtain ⟨s, ht⟩ := trace_teaEvents 100000 100001 (by norm_num)
  have hstored : WellStored listedStore (teaStored 100000).collections :=
    wellStored_empty.land (addFact_of_not_blank listedStore (by decide))
  have hmem : teaWrite.2 ∈ ((teaStored 100000).collections "general_memory").getD [] := by
    rw [teaStored, mem_land]
    exact .inl rfl
  have hsurvives := h _ _ ht _ _ [] 100001 rfl rfl _ (.tail _ List.mem_cons_self)
    (by simp only [MemoryCall.time]; norm_num) "general_memory" teaWrite.2 List.mem_cons_self hmem
  rw [survives_iff hstored hmem] at hsurvives
  have hpage : teaWrite.2 ∈ insertionScroll.page
      (((teaStored 100000).collections "general_memory").getD []) 10000 := List.mem_cons_self
  rcases hsurvives (by decide) hpage (drinksTea.at 0)
      (addFact_of_not_blank listedStore (by decide)) with hrecent | himportant
  · have hdays : ⌊(100001 : NNRat)⌋₊ ≤ ⌊(0 : NNRat)⌋₊ + 86400 := hrecent
    rw [Nat.floor_ofNat, Nat.floor_zero] at hdays
    omega
  · exact absurd himportant (by norm_num [FactCall.at, drinksTea])

end Memory
end CognitiveEngine
