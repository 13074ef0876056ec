/-
# What a run of the pruning policy leaves

`run_pruning_policy` (`app/services/pruning_policy.py`) "sweeps across all isolated RAG
database partitions" and purges "facts idle for over 24 hours with low importance scores".
It reads a collection with one call of `scroll`, whose limit is 10000 points, and throws
away the offset of the next page that the call returns as well: `results[0]`.

So a run leaves exactly the other facts when every fact to purge is on the first page
(`prunedExactly_iff`), as it is in collections of at most 10000 points
(`prunedExactly_of_small`).  A fact behind the first page is not purged, by this run or by
any later one while the points of the page stay (`iterate_runPruningPolicy`).

Which points the page holds is the engine's matter.  The identifiers of the points in a
collection are distinct, as the engine has them.
-/

import Mathlib.Logic.Function.Iterate
import CognitiveEngine.Memory.Pruning

namespace CognitiveEngine
namespace Memory

open CognitiveEngine.Graph CognitiveEngine.Server CognitiveEngine.Machine

variable {V : Type}

/-! ### The facts to purge -/

/-- `metadata_map.get('last_accessed', current_timestamp)`, of a whole number. -/
def lastAccessedTimestamp (currentTimestamp : ℕ) (point : Point V) : ℤ :=
  match point.payload.get "last_accessed" with
  | some (.int n) => n
  | _ => currentTimestamp

/-- `metadata_map.get('score_importance', 0.5)`, of a number. -/
def importanceCoefficient (point : Point V) : ℚ :=
  ((point.payload.get "score_importance").bind number?).getD (1 / 2)

/-- "Facts idle for over 24 hours with low importance scores (< 0.4)". -/
def Purgeable (currentTimestamp : ℕ) (point : Point V) : Prop :=
  currentTimestamp - lastAccessedTimestamp currentTimestamp point > 86400 ∧
    importanceCoefficient point < 2 / 5

instance (currentTimestamp : ℕ) (point : Point V) : Decidable (Purgeable currentTimestamp point) :=
  instDecidableAnd

/-- The metadata of a point: a whole number and a number, or nothing. -/
structure WellTyped (point : Point V) : Prop where
  accessed : ∀ value, point.payload.get "last_accessed" = some value → ∃ n, value = .int n
  importance : ∀ value, point.payload.get "score_importance" = some value → (number? value).isSome

/-- A collection as the engine keeps it: one point for an identifier. -/
structure WellFormed (points : List (Point V)) : Prop where
  typed : ∀ p ∈ points, WellTyped p
  unique : ∀ p ∈ points, ∀ q ∈ points, p.id = q.id → p = q

/-- **Pruning is exact:** each target collection keeps the points that are not to be purged
and loses the others, and the other collections stay. -/
def PrunedExactly (scroll : Scroll V) (currentTimestamp : ℕ) (collections : Collections V) : Prop :=
  (∀ c ∈ targetCollections,
    runPruningPolicy scroll currentTimestamp collections c
      = (collections c).map (List.filter fun p => ¬ Purgeable currentTimestamp p)) ∧
  ∀ c ∉ targetCollections, runPruningPolicy scroll currentTimestamp collections c = collections c

/-- The comparison of the policy raises on no such metadata and tells the facts to purge. -/
theorem WellTyped.slated_eq {p : Point V} (h : WellTyped p) (currentTimestamp : ℕ) :
    slated currentTimestamp p = some (decide (Purgeable currentTimestamp p)) := by
  have haccessed : number? ((p.payload.get "last_accessed").getD (.int currentTimestamp))
      = some (lastAccessedTimestamp currentTimestamp p : ℚ) := by
    unfold lastAccessedTimestamp
    cases hget : p.payload.get "last_accessed" with
    | none => rfl
    | some value =>
        obtain ⟨n, rfl⟩ := h.accessed value hget
        rfl
  have himportance : number? ((p.payload.get "score_importance").getD (.float (1 / 2)))
      = some (importanceCoefficient p) := by
    unfold importanceCoefficient
    cases hget : p.payload.get "score_importance" with
    | none => rfl
    | some value =>
        obtain ⟨q, hq⟩ := Option.isSome_iff_exists.1 (h.importance value hget)
        rw [Option.getD_some, Option.bind_some, hq, Option.getD_some]
  have hidle : (currentTimestamp : ℚ) - (lastAccessedTimestamp currentTimestamp p : ℚ) > 86400 ↔
      (currentTimestamp : ℤ) - lastAccessedTimestamp currentTimestamp p > 86400 := by
    exact_mod_cast Iff.rfl
  rw [slated, haccessed, himportance]
  dsimp only [Purgeable]
  by_cases h : (currentTimestamp : ℤ) - lastAccessedTimestamp currentTimestamp p > 86400
  · rw [if_pos (hidle.2 h), Option.map_some]
    simp [h]
  · rw [if_neg (fun hnow => h (hidle.1 hnow))]
    simp [h]

/-! ### A run of the policy -/

/-- **What a sweep deletes:** the points to be purged that are on the first page. -/
theorem sweep_eq (scroll : Scroll V) {points : List (Point V)} (h : WellFormed points)
    (currentTimestamp : ℕ) :
    ∃ purged : Point V → Bool,
      sweep scroll currentTimestamp points = points.filter (fun p => ¬ purged p) ∧
      ∀ p ∈ points, purged p ↔
        Purgeable currentTimestamp p ∧ p ∈ scroll.page points 10000 := by
  have hpage : ∀ q ∈ scroll.page points 10000,
      slated currentTimestamp q = some (decide (Purgeable currentTimestamp q)) := by
    intro q hq
    exact (h.typed q (scroll.page_subset points 10000 hq)).slated_eq currentTimestamp
  refine ⟨fun p => p.id ∈ ((scroll.page points 10000).filter
    (Purgeable currentTimestamp ·)).map Point.id, ?_, fun p hp => ?_⟩
  · simp only [sweep, idsSlatedForDeletion_eq hpage, decide_eq_true_iff]
  · rw [decide_eq_true_iff, List.mem_map]
    constructor
    · rintro ⟨q, hq, hid⟩
      rw [List.mem_filter, decide_eq_true_iff] at hq
      obtain rfl := h.unique q (scroll.page_subset points 10000 hq.1) p hp hid
      exact ⟨hq.2, hq.1⟩
    · rintro ⟨hpurge, hpage⟩
      exact ⟨p, List.mem_filter.2 ⟨hpage, decide_eq_true hpurge⟩, rfl⟩

variable {scroll : Scroll V}

/-- When the first page holds every point to purge, the sweep leaves the others. -/
theorem sweep_eq_of_page {points : List (Point V)} (h : WellFormed points) {currentTimestamp : ℕ}
    (hpage : ∀ p ∈ points, Purgeable currentTimestamp p → p ∈ scroll.page points 10000) :
    sweep scroll currentTimestamp points
      = points.filter fun p => ¬ Purgeable currentTimestamp p := by
  obtain ⟨purged, heq, hpurged⟩ := sweep_eq scroll h currentTimestamp
  rw [heq]
  refine List.filter_congr fun p hp => decide_eq_decide.2 (not_congr ?_)
  rw [hpurged p hp]
  exact ⟨fun hboth => hboth.1, fun hpurge => ⟨hpurge, hpage p hp hpurge⟩⟩

/-- When nothing on the first page is to be purged, the sweep leaves every point. -/
theorem sweep_eq_self {points : List (Point V)} (h : WellFormed points) {currentTimestamp : ℕ}
    (hfresh : ∀ p ∈ scroll.page points 10000, ¬ Purgeable currentTimestamp p) :
    sweep scroll currentTimestamp points = points := by
  obtain ⟨purged, heq, hpurged⟩ := sweep_eq scroll h currentTimestamp
  rw [heq, List.filter_eq_self]
  intro p hp
  rw [decide_eq_true_iff, hpurged p hp]
  exact fun hboth => hfresh p hboth.2 hboth.1

/-- A point that is not on the first page stays. -/
theorem mem_sweep_of_not_page {points : List (Point V)} (h : WellFormed points)
    (currentTimestamp : ℕ) {p : Point V} (hp : p ∈ points)
    (hpage : p ∉ scroll.page points 10000) : p ∈ sweep scroll currentTimestamp points := by
  obtain ⟨purged, heq, hpurged⟩ := sweep_eq scroll h currentTimestamp
  rw [heq, List.mem_filter, decide_eq_true_iff, hpurged p hp]
  exact ⟨hp, fun hboth => hpage hboth.2⟩

/-- Pruning is exact when the first page of each target collection holds what is to be
purged of it. -/
theorem prunedExactly_of_page {collections : Collections V} {currentTimestamp : ℕ}
    (h : ∀ c ∈ targetCollections, ∀ points, collections c = some points → WellFormed points)
    (hpage : ∀ c ∈ targetCollections, ∀ points, collections c = some points →
      ∀ p ∈ points, Purgeable currentTimestamp p → p ∈ scroll.page points 10000) :
    PrunedExactly scroll currentTimestamp collections := by
  refine ⟨fun c hc => ?_, fun c hc => if_neg hc⟩
  rw [runPruningPolicy, if_pos hc]
  cases hpoints : collections c with
  | none => rfl
  | some points =>
      rw [Option.map_some, Option.map_some,
        sweep_eq_of_page (h c hc points hpoints) (hpage c hc points hpoints)]

/-- Pruning is not exact when a point to purge is not on the first page. -/
theorem not_prunedExactly_of_not_page {collections : Collections V} {currentTimestamp : ℕ}
    {c : String} (hc : c ∈ targetCollections) {points : List (Point V)}
    (hpoints : collections c = some points) (h : WellFormed points) {p : Point V} (hp : p ∈ points)
    (hpurge : Purgeable currentTimestamp p) (hpage : p ∉ scroll.page points 10000) :
    ¬ PrunedExactly scroll currentTimestamp collections := by
  intro hexact
  have hrun := hexact.1 c hc
  rw [runPruningPolicy, if_pos hc, hpoints, Option.map_some, Option.map_some,
    Option.some.injEq] at hrun
  have hkept := hrun ▸ mem_sweep_of_not_page h currentTimestamp hp hpage
  rw [List.mem_filter, decide_eq_true_iff] at hkept
  exact hkept.2 hpurge

/-- Pruning is exact on collections of at most 10000 points, when the engine's page holds
every point that fits. -/
theorem prunedExactly_of_small {collections : Collections V} {currentTimestamp : ℕ}
    (h : ∀ c ∈ targetCollections, ∀ points, collections c = some points → WellFormed points)
    (hfull : ∀ points limit, points.length ≤ limit → points ⊆ scroll.page points limit)
    (hsmall : ∀ c ∈ targetCollections, ∀ points, collections c = some points →
      points.length ≤ 10000) : PrunedExactly scroll currentTimestamp collections :=
  prunedExactly_of_page h fun c hc points hpoints _ hp _ =>
    hfull points 10000 (hsmall c hc points hpoints) hp

/-- **Repeated runs do not reach the rest:** when no point of a first page is to be purged,
no number of runs removes anything. -/
theorem iterate_runPruningPolicy {collections : Collections V} {currentTimestamp : ℕ}
    (h : ∀ c ∈ targetCollections, ∀ points, collections c = some points → WellFormed points)
    (hfresh : ∀ c ∈ targetCollections, ∀ points, collections c = some points →
      ∀ p ∈ scroll.page points 10000, ¬ Purgeable currentTimestamp p) (runs : ℕ) :
    (runPruningPolicy scroll currentTimestamp)^[runs] collections = collections := by
  refine Function.iterate_fixed (funext fun c => ?_) runs
  by_cases hc : c ∈ targetCollections
  · rw [runPruningPolicy, if_pos hc]
    cases hpoints : collections c with
    | none => rfl
    | some points =>
        rw [Option.map_some,
          sweep_eq_self (h c hc points hpoints) (hfresh c hc points hpoints)]
  · exact if_neg hc

/-- **When pruning is exact:** exactly when every fact to purge is among the points that
the one call of `scroll` returns. -/
theorem prunedExactly_iff {collections : Collections V} {currentTimestamp : ℕ}
    (h : ∀ c ∈ targetCollections, ∀ points, collections c = some points → WellFormed points) :
    PrunedExactly scroll currentTimestamp collections ↔
      ∀ c ∈ targetCollections, ∀ points, collections c = some points →
        ∀ p ∈ points, Purgeable currentTimestamp p → p ∈ scroll.page points 10000 := by
  refine ⟨fun hexact c hc points hpoints p hp hpurge => ?_, prunedExactly_of_page h⟩
  by_contra hpage
  exact not_prunedExactly_of_not_page hc hpoints (h c hc points hpoints) hp hpurge hpage hexact

/-! ### A collection of two pages -/

theorem insertionScroll_page (points : List (Point Unit)) (limit : ℕ) :
    insertionScroll.page points limit = points.take limit := rfl

/-- A fact that was never accessed again and is of no importance. -/
def idleFact (i : ℕ) : Point Unit :=
  ⟨"00000000-0000-0000-0000-0000000" ++ (10000 + i).repr, (),
    [("last_accessed", .int 0), ("score_importance", .int 0)]⟩

/-- The general memory with so many of them. -/
def idleMemory (count : ℕ) : Collections Unit :=
  fun c => if c = "general_memory" then some ((List.range count).map idleFact) else none

theorem idleFact_injective : Function.Injective idleFact := by
  intro i j h
  have hid : "00000000-0000-0000-0000-0000000" ++ (10000 + i).repr
      = "00000000-0000-0000-0000-0000000" ++ (10000 + j).repr := congrArg Point.id h
  have hrepr := append_repr_inj.1 hid
  omega

theorem wellFormed_idleMemory (count : ℕ) : WellFormed ((List.range count).map idleFact) := by
  constructor
  · intro p hp
    obtain ⟨i, -, rfl⟩ := List.mem_map.1 hp
    refine ⟨fun value h => ⟨0, ?_⟩, fun value h => ?_⟩
    · exact (Option.some.inj h).symm
    · rw [← Option.some.inj h]
      rfl
  · intro p hp q hq hid
    obtain ⟨i, -, rfl⟩ := List.mem_map.1 hp
    obtain ⟨j, -, rfl⟩ := List.mem_map.1 hq
    exact congrArg (fun id => (⟨id, (), _⟩ : Point Unit)) hid

theorem wellFormed_of_idleMemory {count : ℕ} {c : String} {points : List (Point Unit)}
    (h : idleMemory count c = some points) : WellFormed points := by
  unfold idleMemory at h
  split at h
  · exact Option.some.inj h ▸ wellFormed_idleMemory count
  · exact absurd h.symm (Option.some_ne_none points)

theorem purgeable_idleFact (i : ℕ) : Purgeable 100000 (idleFact i) := by
  refine ⟨?_, ?_⟩
  · exact (by decide : (100000 : ℤ) - 0 > 86400)
  · exact (by norm_num : (((0 : ℤ) : ℚ)) < 2 / 5)

/-- Three idle facts are all purged. -/
theorem prunedExactly_three : PrunedExactly insertionScroll 100000 (idleMemory 3) := by
  refine (prunedExactly_iff fun c _ points h => wellFormed_of_idleMemory h).2 ?_
  intro c _ points h p hp _
  unfold idleMemory at h
  split at h
  · rw [← Option.some.inj h] at hp ⊢
    exact hp
  · exact absurd h.symm (Option.some_ne_none points)

/-- Of 10001 idle facts the last one stays. -/
theorem not_prunedExactly_idleMemory :
    ¬ ∀ (currentTimestamp : ℕ) (collections : Collections Unit),
      (∀ c ∈ targetCollections, ∀ points, collections c = some points → WellFormed points) →
      PrunedExactly insertionScroll currentTimestamp collections := by
  intro h
  have hexact := h 100000 (idleMemory 10001) fun c _ points h => wellFormed_of_idleMemory h
  refine not_prunedExactly_of_not_page (c := "general_memory") (p := idleFact 10000) (by decide)
    (if_pos rfl) (wellFormed_idleMemory 10001) (List.mem_map_of_mem (List.mem_range.2 (by omega)))
    (purgeable_idleFact 10000) ?_ hexact
  intro hpage
  rw [insertionScroll_page, ← List.map_take, List.take_range, List.mem_map] at hpage
  obtain ⟨i, hi, heq⟩ := hpage
  rw [idleFact_injective heq, List.mem_range] at hi
  omega

end Memory
end CognitiveEngine
