/-
# Facts written to the long-term memory

`MemoryService.add_fact` (`app/services/memory_service.py`) packs a fact into a
payload, names it after the millisecond it is called in and hands it to
`QdrantVectorStore.add` (`app/infrastructure/qdrant/qdrant_vector_store.py`), which
makes a point id of that name and upserts the point.

The upserts of calls that are under way, in one worker or in several, land in any
order: `Run` is their interleaving, with a clock that never goes back.  A run in
which every call ends lands a permutation of the points, and every permutation is
landed by some run.  `facts_survive_iff` says for which calls nothing is lost
whatever the order: each fact needs a millisecond in which only calls for that very
fact are made in its collection.

`uuid5` is given, as is `str.isalnum` of the characters outside ASCII.  Store calls
succeed here.
-/

import CognitiveEngine.Machine.JoinedKey
import CognitiveEngine.Machine.LastWrite
import CognitiveEngine.Machine.Listing
import CognitiveEngine.Server.VectorStore
import CognitiveEngine.Graph.Prompts

namespace CognitiveEngine
namespace Memory

open CognitiveEngine.Graph CognitiveEngine.Server CognitiveEngine.Machine

variable {V : Type}

/-! ### One fact -/

/-- A call of `add_fact`, with what it reads of the clock: `int(time.time() * 1000)`
for the fact's id and `int(time.time())` for its metadata. -/
structure FactCall where
  userId : Json
  factText : String
  category : String
  semanticAnchors : List String
  collectionName : String
  scoreImportance : ℚ
  millis : ℕ
  seconds : ℕ

/-- The memory store over Qdrant, with the functions it calls. -/
structure MemoryStore (V : Type) where
  embed : String → V
  /-- `str.isalnum` of a character outside ASCII. -/
  isalnum : Char → Bool
  /-- `str(uuid.uuid5(uuid.NAMESPACE_DNS, x))`. -/
  uuid5 : String → String

/-- `fact_id`. -/
def FactCall.factId (f : FactCall) : String := "fact_" ++ Nat.repr f.millis

/-- `metadata`. -/
def FactCall.metadata (f : FactCall) : Payload :=
  [("user_id", f.userId), ("category", .str f.category),
    ("semantic_anchors", .str (String.intercalate " " f.semanticAnchors)),
    ("timestamp", .int f.seconds), ("last_accessed", .int f.seconds),
    ("score_importance", .float f.scoreImportance)]

namespace MemoryStore

variable (store : MemoryStore V)

/-- `str.isalnum` of one character. -/
def pyIsAlnum (c : Char) : Bool := if c.toNat < 128 then c.isAlphanum else store.isalnum c

/-- `point_id`: an id that looks like a UUID is kept. -/
def pointId (id : String) : String :=
  let word := id.toList.filter (· ≠ '-')
  if word ≠ [] ∧ word.all store.pyIsAlnum ∧ id.length = 36 then id else store.uuid5 id

/-- The point `QdrantVectorStore.add` makes of one id, document and metadata. -/
def point (id document : String) (metadata : Payload) : Point V where
  id := store.pointId id
  dense := store.embed document
  payload := ("document", .str document) :: metadata ++ [("original_id", .str id)]

/-- `add_fact` up to the upsert: the collection and the point, and nothing for a
blank text. -/
def addFact (f : FactCall) : Option (String × Point V) :=
  if f.factText = "" ∨ pyStrip f.factText = "" then none
  else some (f.collectionName, store.point f.factId f.factText f.metadata)

/-- The id of a fact is no UUID: it has an underscore. -/
theorem pointId_factId (f : FactCall) : store.pointId f.factId = store.uuid5 f.factId := by
  refine if_neg fun h => ?_
  have hall := List.all_eq_true.1 h.2.1 '_' (by simp [FactCall.factId])
  simp [MemoryStore.pyIsAlnum] at hall

end MemoryStore

/-- The ids of two facts are the same when they are added in the same millisecond. -/
theorem factId_inj {f g : FactCall} : f.factId = g.factId ↔ f.millis = g.millis := by
  rw [FactCall.factId, FactCall.factId, append_repr_inj]

/-! ### Calls under way -/

/-- The clock, the upserts under way and the collections. -/
structure ServiceState (V : Type) where
  clock : ℕ
  pending : List (String × Point V)
  collections : Collections V

/-- `client.upsert` of a point into a collection, which is created when missing. -/
def land (collections : Collections V) (w : String × Point V) : Collections V :=
  Function.update collections w.1 (some (upsert w.2 ((collections w.1).getD [])))

/-- Calls of `add_fact` by any workers: a call reads the clock and has its upsert
under way, and an upsert under way lands. -/
inductive Run (store : MemoryStore V) : ServiceState V → List FactCall → ServiceState V → Prop
  | nil (s : ServiceState V) : Run store s [] s
  | call {s s' : ServiceState V} {f : FactCall} {fs : List FactCall} (hclock : s.clock ≤ f.millis)
      (hrun : Run store ⟨f.millis, s.pending ++ (store.addFact f).toList, s.collections⟩ fs s') :
      Run store s (f :: fs) s'
  | lands {clock : ℕ} {before after : List (String × Point V)} {w : String × Point V}
      {collections : Collections V} {fs : List FactCall} {s' : ServiceState V}
      (hrun : Run store ⟨clock, before ++ after, land collections w⟩ fs s') :
      Run store ⟨clock, before ++ w :: after, collections⟩ fs s'

/-- No call under way. -/
def ServiceState.idle (collections : Collections V) : ServiceState V := ⟨0, [], collections⟩

/-- A run lands what was under way and what its calls write, but for what is still
under way. -/
theorem Run.exists_landed {store : MemoryStore V} {s s' : ServiceState V} {fs : List FactCall}
    (h : Run store s fs s') :
    ∃ ws, (ws ++ s'.pending).Perm (s.pending ++ fs.filterMap store.addFact) ∧
      s'.collections = ws.foldl land s.collections := by
  induction h with
  | nil s => exact ⟨[], by simp, rfl⟩
  | @call s s' f fs _ _ ih =>
      obtain ⟨ws, hperm, hcol⟩ := ih
      refine ⟨ws, hperm.trans (.of_eq ?_), hcol⟩
      cases hf : store.addFact f <;> simp [hf]
  | @lands clock before after w collections fs s' _ ih =>
      obtain ⟨ws, hperm, hcol⟩ := ih
      refine ⟨w :: ws, ?_, hcol⟩
      have hmiddle : (w :: (before ++ after ++ fs.filterMap store.addFact)).Perm
          (before ++ w :: after ++ fs.filterMap store.addFact) := by
        rw [List.append_assoc, List.append_assoc, List.cons_append]
        exact List.perm_middle.symm
      exact (hperm.cons w).trans hmiddle

/-- What is under way lands in any order. -/
theorem run_land (store : MemoryStore V) {ws : List (String × Point V)} {s : ServiceState V}
    (h : ws.Perm s.pending) : Run store s [] ⟨s.clock, [], ws.foldl land s.collections⟩ := by
  induction ws generalizing s with
  | nil =>
      obtain ⟨clock, pending, collections⟩ := s
      obtain rfl := List.nil_perm.1 h
      exact .nil _
  | cons w ws ih =>
      obtain ⟨clock, pending, collections⟩ := s
      obtain ⟨before, after, rfl⟩ := List.append_of_mem (h.subset List.mem_cons_self)
      have hrest : ws.Perm (before ++ after) :=
        List.perm_cons w |>.1 (h.trans List.perm_middle)
      exact .lands (ih (s := ⟨clock, before ++ after, land collections w⟩) hrest)

/-- Calls the clock allows can all be under way at once. -/
theorem run_call {store : MemoryStore V} {fs : List FactCall} {s : ServiceState V}
    {collections : Collections V} (hclock : ∀ f ∈ fs, s.clock ≤ f.millis)
    (hmono : fs.Pairwise fun f g => f.millis ≤ g.millis)
    (hrun : ∀ clock, ∃ s', Run store ⟨clock, s.pending ++ fs.filterMap store.addFact,
      s.collections⟩ [] s' ∧ s'.pending = [] ∧ s'.collections = collections) :
    ∃ s', Run store s fs s' ∧ s'.pending = [] ∧ s'.collections = collections := by
  induction fs generalizing s with
  | nil => simpa using hrun s.clock
  | cons f fs ih =>
      rw [List.pairwise_cons] at hmono
      have hf : (s.pending ++ (store.addFact f).toList) ++ fs.filterMap store.addFact
          = s.pending ++ (f :: fs).filterMap store.addFact := by
        cases hf : store.addFact f <;> simp [hf]
      obtain ⟨s', hs', hend⟩ := ih
        (s := ⟨f.millis, s.pending ++ (store.addFact f).toList, s.collections⟩) hmono.1 hmono.2
        (fun clock => hf ▸ hrun clock)
      exact ⟨s', .call (hclock f List.mem_cons_self) hs', hend⟩

/-- **Every order is landed.**  Of calls with a clock that does not go back, any
order of the upserts is one of a run. -/
theorem exists_run_of_perm (store : MemoryStore V) {fs : List FactCall}
    (hmono : fs.Pairwise fun f g => f.millis ≤ g.millis) (collections : Collections V)
    {ws : List (String × Point V)} (hws : ws.Perm (fs.filterMap store.addFact)) :
    ∃ s', Run store (.idle collections) fs s' ∧ s'.pending = [] ∧
      s'.collections = ws.foldl land collections :=
  run_call (s := .idle collections) (fun _ _ => Nat.zero_le _) hmono
    fun clock => ⟨_, run_land store (s := ⟨clock, _, collections⟩) hws, rfl, rfl⟩

/-! ### What is in the collections -/

/-- The place a point is written to. -/
def place (w : String × Point V) : String × String := (w.1, w.2.id)

theorem mem_land {collections : Collections V} {w : String × Point V} {c : String} {p : Point V} :
    p ∈ (land collections w c).getD [] ↔
      (c, p) = w ∨ (p ∈ (collections c).getD [] ∧ place w ≠ place (c, p)) := by
  obtain ⟨c', q⟩ := w
  by_cases hc : c = c'
  · subst hc
    rw [land, Function.update_self, Option.getD_some, mem_upsert]
    simp only [place, ne_eq, Prod.mk.injEq, true_and, eq_comm (a := q.id)]
    exact or_comm
  · rw [land, Function.update_of_ne hc]
    simp [place, hc, Ne.symm hc]

/-- **What is left of the upserts that landed:** the last one at each place, and what
was stored where nothing was written. -/
theorem mem_foldl_land {ws : List (String × Point V)} {collections : Collections V} {c : String}
    {p : Point V} :
    p ∈ (ws.foldl land collections c).getD [] ↔
      LastWrite place ws (c, p) ∨
        (p ∈ (collections c).getD [] ∧ ∀ w ∈ ws, place w ≠ place (c, p)) := by
  induction ws using List.reverseRecOn with
  | nil => simp [LastWrite]
  | append_singleton ws w ih =>
      rw [List.foldl_append, List.foldl_cons, List.foldl_nil, mem_land, ih, lastWrite_concat,
        List.forall_mem_append, List.forall_mem_singleton]
      tauto

/-- Upserts keep a collection, and make the one they are for. -/
theorem isSome_foldl_land {ws : List (String × Point V)} {collections : Collections V}
    {c : String} :
    (ws.foldl land collections c).isSome ↔ (collections c).isSome ∨ ∃ w ∈ ws, w.1 = c := by
  induction ws generalizing collections with
  | nil => simp
  | cons w ws ih =>
      rw [List.foldl_cons, ih, List.exists_mem_cons_iff, ← or_assoc]
      refine or_congr ?_ Iff.rfl
      by_cases hc : w.1 = c
      · simp [land, hc]
      · rw [land, Function.update_of_ne (Ne.symm hc), or_iff_left hc]

/-- What is in a collection after some upserts. -/
theorem getD_foldl_land {ws : List (String × Point V)} {collections : Collections V} {c : String} :
    (ws.foldl land collections c).getD []
      = ((ws.filter (·.1 = c)).map Prod.snd).foldl (fun points p => upsert p points)
          ((collections c).getD []) := by
  induction ws generalizing collections with
  | nil => rfl
  | cons w ws ih =>
      rw [List.foldl_cons, ih]
      by_cases hc : w.1 = c
      · subst hc
        rw [List.filter_cons_of_pos (by simp), List.map_cons, List.foldl_cons, land,
          Function.update_self, Option.getD_some]
      · rw [List.filter_cons_of_neg (by simpa using hc), land,
          Function.update_of_ne (Ne.symm hc)]

/-- The point holds the fact of a call. -/
def Holds (f : FactCall) (p : Point V) : Prop :=
  p.payload.get "user_id" = some f.userId ∧
    p.payload.get "document" = some (.str f.factText)

/-- The fact of a call is present in its collection. -/
def Present (collections : Collections V) (f : FactCall) : Prop :=
  ∃ p ∈ (collections f.collectionName).getD [], Holds f p

/-- Two calls for one fact: the same user and text in the same collection. -/
def SameFact (f g : FactCall) : Prop :=
  f.collectionName = g.collectionName ∧ f.userId = g.userId ∧ f.factText = g.factText

/-- The write of a call whose text is not blank. -/
def MemoryStore.write (store : MemoryStore V) (f : FactCall) : String × Point V :=
  (f.collectionName, store.point f.factId f.factText f.metadata)

theorem addFact_of_not_blank (store : MemoryStore V) {f : FactCall}
    (h : pyStrip f.factText ≠ "") : store.addFact f = some (store.write f) := by
  refine if_neg (not_or.2 ⟨fun hempty => h ?_, h⟩)
  rw [hempty]
  rfl

theorem filterMap_addFact (store : MemoryStore V) {fs : List FactCall}
    (h : ∀ f ∈ fs, pyStrip f.factText ≠ "") : fs.filterMap store.addFact = fs.map store.write := by
  induction fs with
  | nil => rfl
  | cons f fs ih =>
      rw [List.forall_mem_cons] at h
      rw [List.filterMap_cons_some (addFact_of_not_blank store h.1), ih h.2, List.map_cons]

/-- Two calls write to the same place when they are made for the same collection in
the same millisecond. -/
theorem place_write (store : MemoryStore V) (huuid : Function.Injective store.uuid5)
    {f g : FactCall} : place (store.write f) = place (store.write g) ↔
      f.collectionName = g.collectionName ∧ f.millis = g.millis := by
  simp only [place, MemoryStore.write, MemoryStore.point, MemoryStore.pointId_factId,
    Prod.mk.injEq, huuid.eq_iff, factId_inj]

/-- A call's write holds the fact of another call, for the other's collection. -/
theorem holds_write (store : MemoryStore V) {f g : FactCall} :
    (f.collectionName = (store.write g).1 ∧ Holds f (store.write g).2) ↔ SameFact f g := by
  have huser : (store.write g).2.payload.get "user_id" = some g.userId := rfl
  have hdocument : (store.write g).2.payload.get "document" = some (.str g.factText) := rfl
  rw [Holds, huser, hdocument, Option.some.injEq, Option.some.injEq, Json.str.injEq]
  exact and_congr Iff.rfl (and_congr eq_comm eq_comm)

/-- **When no fact is lost.**  For facts added with a clock that does not go back, by
any workers: every fact is present after every run in which all calls end, exactly
when each is also added in a millisecond in which its collection gets no other fact. -/
theorem facts_survive_iff (store : MemoryStore V) (huuid : Function.Injective store.uuid5)
    {fs : List FactCall} (hmono : fs.Pairwise fun f g => f.millis ≤ g.millis)
    (hblank : ∀ f ∈ fs, pyStrip f.factText ≠ "") :
    (∀ collections s', Run store (.idle collections) fs s' → s'.pending = [] →
        ∀ f ∈ fs, Present s'.collections f) ↔
      ∀ f ∈ fs, ∃ g ∈ fs, SameFact f g ∧
        ∀ h ∈ fs, h.collectionName = g.collectionName → h.millis = g.millis → SameFact f h := by
  have hwrites := filterMap_addFact store hblank
  -- A fact survives every order of the writes under the condition on its own places.
  have horders (f : FactCall) :
      (∀ ws : List (String × Point V), ws.Perm (fs.map store.write) →
        ∃ w, LastWrite place ws w ∧ f.collectionName = w.1 ∧ Holds f w.2) ↔
      ∃ g ∈ fs, SameFact f g ∧
        ∀ h ∈ fs, h.collectionName = g.collectionName → h.millis = g.millis → SameFact f h := by
    rw [forall_perm_iff]
    simp only [List.mem_map, exists_exists_and_eq_and, forall_exists_index, and_imp,
      forall_apply_eq_imp_iff₂, holds_write, place_write store huuid]
  constructor
  · intro h f hf
    refine (horders f).1 fun ws hws => ?_
    obtain ⟨s', hrun, hend, hcol⟩ :=
      exists_run_of_perm store hmono (fun _ => none) (hwrites ▸ hws)
    obtain ⟨p, hp, hholds⟩ := h _ s' hrun hend f hf
    rw [hcol, mem_foldl_land] at hp
    rcases hp with hp | hp
    · exact ⟨_, hp, rfl, hholds⟩
    · exact absurd hp.1 List.not_mem_nil
  · intro h collections s' hrun hend f hf
    obtain ⟨ws, hperm, hcol⟩ := hrun.exists_landed
    rw [hend, List.append_nil, hwrites] at hperm
    obtain ⟨⟨c, p⟩, hlast, hc, hholds⟩ := (horders f).2 (h f hf) ws hperm
    refine ⟨p, ?_, hholds⟩
    rw [hcol, mem_foldl_land]
    have hcp : f.collectionName = c := hc
    exact .inl (hcp ▸ hlast)

/-! ### Two users at once -/

/-- The `uuid5` of some ids. -/
def idUuid5 : Listing where
  table := [
    ("fact_1767225600000", "daa55605-cadf-5905-9564-4f3108fee20e"),
    ("fact_1767225600417", "0ecaf9ea-e2b5-5850-a2b0-265b3d9641a9"),
    ("fact_1767225660000", "3bbac600-6108-52f7-9f16-f730456c85da"),
    ("fact_0", "dfb55a7f-5fad-5d4a-bf06-3ffaebd8960c"),
    ("fact_100000000", "b6bd47f8-2905-5b05-97a1-7b396b475781"),
    ("n1", "70dce487-582e-5e56-a3ed-a1541ed73826"),
    ("n2", "2564c0a3-dd23-551f-a25c-1af767f45a81")]
  nodup := by simp
  unmarked := by decide +kernel

/-- A store that gives these ids their points. -/
def listedStore : MemoryStore Unit where
  embed _ := ()
  isalnum _ := false
  uuid5 := idUuid5.value

theorem listedStore_injective : Function.Injective listedStore.uuid5 := idUuid5.value_injective

/-- A user's drink, told at a time. -/
def drinks (userId drink : String) (millis : ℕ) : FactCall :=
  ⟨.str userId, "[USER_PREFERENCE] Fact: Drinks " ++ drink ++ ".\nSearch Triggers: ",
    "user_preference", [], "general_memory", 1 / 2, millis, millis / 1000⟩

/-- Two users tell their drinks in two milliseconds. -/
def toldApart : List FactCall :=
  [drinks "alice" "tea" 1767225600000, drinks "bob" "coffee" 1767225600417]

/-- Told in two milliseconds, both facts are there. -/
theorem facts_survive_apart :
    ∃ s', Run listedStore (.idle fun _ => none) toldApart s' ∧ s'.pending = [] ∧
      ∀ f ∈ toldApart, Present s'.collections f := by
  have hmono : toldApart.Pairwise fun f g => f.millis ≤ g.millis := by simp [toldApart, drinks]
  have hapart : ∀ f ∈ toldApart, ∃ g ∈ toldApart, SameFact f g ∧ ∀ h ∈ toldApart,
      h.collectionName = g.collectionName → h.millis = g.millis → SameFact f h := by
    simp [toldApart, drinks, SameFact]
  obtain ⟨s', hrun, hend, -⟩ :=
    exists_run_of_perm listedStore hmono (fun _ => none) (List.Perm.refl _)
  refine ⟨s', hrun, hend, ?_⟩
  exact (facts_survive_iff listedStore listedStore_injective hmono (by decide)).2 hapart _ s' hrun hend

/-- Told in one millisecond, the fact of the second user replaces that of the first. -/
theorem facts_lost_together :
    ¬ ∀ fs : List FactCall, fs.Pairwise (fun f g => f.millis ≤ g.millis) →
      (∀ f ∈ fs, pyStrip f.factText ≠ "") →
      ∀ collections s', Run listedStore (.idle collections) fs s' → s'.pending = [] →
        ∀ f ∈ fs, Present s'.collections f := by
  intro h
  let alice := drinks "alice" "tea" 1767225600000
  let bob := drinks "bob" "coffee" 1767225600000
  have hmono : [alice, bob].Pairwise fun f g => f.millis ≤ g.millis := by
    simp [alice, bob, drinks]
  obtain ⟨s', hrun, hend, hcol⟩ :=
    exists_run_of_perm listedStore hmono (fun _ => none) (List.Perm.refl _)
  obtain ⟨p, hp, hholds⟩ := h [alice, bob] hmono (by decide) _ s' hrun hend alice (by simp)
  rw [hcol, filterMap_addFact listedStore (by decide), mem_foldl_land] at hp
  rcases hp with hp | hp
  · have hlast : LastWrite place ([listedStore.write alice] ++ [listedStore.write bob])
        (alice.collectionName, p) := hp
    rcases lastWrite_concat.1 hlast with hbob | ⟨halice, hplace⟩
    · have hsame : SameFact alice bob := (holds_write listedStore).1 ⟨rfl, hbob ▸ hholds⟩
      simp [SameFact, alice, bob, drinks] at hsame
    · refine hplace ?_
      rw [List.mem_singleton.1 halice.mem]
      rfl
  · exact absurd hp.1 List.not_mem_nil

end Memory
end CognitiveEngine
