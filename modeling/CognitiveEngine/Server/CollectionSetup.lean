/-
# Collections that are made on first use

`QdrantVectorStore.add` makes sure that its collection exists before it writes to it.
`_ensure_collection` asks the server whether it does, has it created if not, and then has
five payload indexes made, one request after the other.  The chat endpoints, the memory
workers and their processes all do this at the same time: two of them can find that a
collection is missing, of which one creates it and the other is refused, and a call that
finds a collection does not wait until it has its indexes.  A call may be broken off
anywhere, and the answer to a request may be lost.

`adds_refine_land` says that the contents come out as if the points were written in one
piece, which is how they are written elsewhere in this development.  `indexes_of_adds` says
who makes the indexes of a collection, and that no one else ever does.  `adds_settle` says
what the calls come to when nothing is broken off.

Collections are not deleted anywhere.  The server refuses a collection that exists, and
vectors that have not the size of the collection.
-/

import CognitiveEngine.Machine.RelyGuarantee
import CognitiveEngine.Memory.FactStore

namespace CognitiveEngine
namespace Server

open CognitiveEngine.Graph Machine CognitiveEngine.Memory

variable {V : Type}

/-! ### The server -/

/-- The `field_name`s of `create_payload_index`, in order. -/
def payloadIndexes : List String :=
  ["user_id", "category", "last_accessed", "model_version", "document"]

/-- A call of `add` with at least one id. -/
structure AddCall (V : Type) where
  collectionName : String
  points : List (Point V)
  points_ne_nil : points ≠ []

/-- The writes a call asks for. -/
def AddCall.writes (x : AddCall V) : List (String × Point V) :=
  x.points.map fun p => (x.collectionName, p)

/-- `dense_dim = len(embeddings[0])`. -/
def AddCall.denseDim (dim : V → ℕ) (x : AddCall V) : ℕ :=
  dim (x.points.head x.points_ne_nil).dense

/-- A collection of the server; which call created it is known to no one. -/
structure StoredCollection (V : Type) where
  size : ℕ
  indexes : List String
  points : List (Point V)
  creator : ℕ

/-- `client.upsert` of some points. -/
def StoredCollection.upsertAll (coll : StoredCollection V) (points : List (Point V)) :
    StoredCollection V :=
  { coll with points := points.foldl (fun stored p => upsert p stored) coll.points }

/-- The collections, and the calls whose points were stored, in the order of their
upserts, which is known to no one either. -/
structure VectorServer (V : Type) where
  collections : String → Option (StoredCollection V)
  stored : List (ℕ × AddCall V)

/-- Nothing is stored. -/
def VectorServer.empty : VectorServer V := ⟨fun _ => none, []⟩

/-- The collections as the searches see them. -/
def VectorServer.contents (s : VectorServer V) : Collections V :=
  fun c => (s.collections c).map StoredCollection.points

/-- Another state of a collection. -/
def VectorServer.put (s : VectorServer V) (c : String) (coll : StoredCollection V) :
    VectorServer V :=
  { s with collections := Function.update s.collections c (some coll) }

@[simp] theorem put_collections_self (s : VectorServer V) (c : String) (coll : StoredCollection V) :
    (s.put c coll).collections c = some coll := Function.update_self ..

theorem put_collections_ne (s : VectorServer V) {c c' : String} (h : c' ≠ c)
    (coll : StoredCollection V) : (s.put c coll).collections c' = s.collections c' :=
  Function.update_of_ne h ..

@[simp] theorem put_stored (s : VectorServer V) (c : String) (coll : StoredCollection V) :
    (s.put c coll).stored = s.stored := rfl

/-- The writes that were stored. -/
def VectorServer.writes (s : VectorServer V) : List (String × Point V) :=
  s.stored.flatMap fun x => x.2.writes

/-! ### A call -/

/-- Why a call raises. -/
inductive AddFailure where
  | alreadyExists
  | wrongVectorSize
  /-- Something outside: the connection, the sparse embedding, the end of the process. -/
  | outside
deriving DecidableEq

/-- How far a call has come. -/
inductive AddPhase where
  /-- At `collection_exists`. -/
  | checking
  /-- At `create_collection`. -/
  | creating
  /-- At the first `create_payload_index` of those that are left. -/
  | indexing (left : List String)
  /-- At `upsert`. -/
  | upserting
  | returned
  | raised (failure : AddFailure)
  /-- The points are stored, but the call did not learn of it. -/
  | unanswered

/-- Whether a call is under way. -/
def AddPhase.running : AddPhase → Bool
  | .checking | .creating | .indexing _ | .upserting => true
  | _ => false

/-- Whether the points of a call are stored. -/
def AddPhase.hasStored : AddPhase → Bool
  | .returned | .unanswered => true
  | _ => false

variable (dim : V → ℕ)

/-- One request of a call. -/
inductive AddMoves (i : ℕ) :
    AddCall V × AddPhase → VectorServer V → AddCall V × AddPhase → VectorServer V → Prop
  | there {x : AddCall V} {s : VectorServer V} {coll : StoredCollection V}
      (h : s.collections x.collectionName = some coll) :
      AddMoves i (x, .checking) s (x, .upserting) s
  | missing {x : AddCall V} {s : VectorServer V} (h : s.collections x.collectionName = none) :
      AddMoves i (x, .checking) s (x, .creating) s
  | create {x : AddCall V} {s : VectorServer V} (h : s.collections x.collectionName = none) :
      AddMoves i (x, .creating) s (x, .indexing payloadIndexes)
        (s.put x.collectionName ⟨x.denseDim dim, [], [], i⟩)
  | refuseCreation {x : AddCall V} {s : VectorServer V} {coll : StoredCollection V}
      (h : s.collections x.collectionName = some coll) :
      AddMoves i (x, .creating) s (x, .raised .alreadyExists) s
  | index {x : AddCall V} {s : VectorServer V} {coll : StoredCollection V} {field : String}
      {left : List String} (h : s.collections x.collectionName = some coll) :
      AddMoves i (x, .indexing (field :: left)) s (x, .indexing left)
        (s.put x.collectionName { coll with indexes := coll.indexes ++ [field] })
  | indexed {x : AddCall V} {s : VectorServer V} :
      AddMoves i (x, .indexing []) s (x, .upserting) s
  | upsert {x : AddCall V} {s : VectorServer V} {coll : StoredCollection V} {phase : AddPhase}
      (h : s.collections x.collectionName = some coll) (hsize : ∀ p ∈ x.points, dim p.dense = coll.size)
      (hphase : phase = .returned ∨ phase = .unanswered) :
      AddMoves i (x, .upserting) s (x, phase)
        { s.put x.collectionName (coll.upsertAll x.points) with stored := s.stored ++ [(i, x)] }
  | refuseUpsert {x : AddCall V} {s : VectorServer V} {coll : StoredCollection V} {p : Point V}
      (h : s.collections x.collectionName = some coll) (hp : p ∈ x.points)
      (hsize : dim p.dense ≠ coll.size) :
      AddMoves i (x, .upserting) s (x, .raised .wrongVectorSize) s
  | breakOff {x : AddCall V} {s : VectorServer V} {phase : AddPhase} (h : phase.running = true) :
      AddMoves i (x, phase) s (x, .raised .outside) s

/-- Calls of `add`, any number of them at once. -/
def addRules : Parallel.Rules (AddCall V × AddPhase) (VectorServer V) where
  starts p := p.2 = .checking
  moves := AddMoves dim

/-- A server with the calls that were made. -/
abbrev AddCalls (V : Type) : Type := Parallel (AddCall V × AddPhase) (VectorServer V)

/-- The states of the runs from a server on which nothing is stored. -/
def AddCalls.Reached (s : AddCalls V) : Prop :=
  Parallel.Runs (addRules dim) ⟨.empty, []⟩ s

/-! ### What a call knows -/

/-- The indexes that the creator of a collection has had made, as far as it has come. -/
def AddPhase.Made : AddPhase → List String → Prop
  | .checking, _ | .creating, _ | .raised .alreadyExists, _ => False
  | .indexing left, made => made ++ left = payloadIndexes
  | .raised .outside, made => made <+: payloadIndexes
  | _, made => made = payloadIndexes

/-- Whether a call has seen that its collection exists. -/
def AddPhase.seen : AddPhase → Bool
  | .checking | .creating | .raised .outside => false
  | _ => true

/-- What a call knows of the server. -/
structure Knows (i : ℕ) (call : AddCall V × AddPhase) (s : VectorServer V) : Prop where
  /-- A collection that the call has created is the one it asked for. -/
  made : ∀ c coll, s.collections c = some coll → coll.creator = i →
    call.1.collectionName = c ∧ coll.size = call.1.denseDim dim ∧ call.2.Made coll.indexes
  seen : call.2.seen = true → ∃ coll, s.collections call.1.collectionName = some coll
  /-- The indexes are made by the creator. -/
  creates : ∀ left coll, call.2 = .indexing left →
    s.collections call.1.collectionName = some coll → coll.creator = i
  refused : ∀ coll, call.2 = .raised .wrongVectorSize →
    s.collections call.1.collectionName = some coll → ∃ p ∈ call.1.points, dim p.dense ≠ coll.size
  stored : call.2.hasStored = true ↔ i ∈ s.stored.map Prod.fst
  storedCall : ∀ x, (i, x) ∈ s.stored → x = call.1

/-- What stays of a collection. -/
structure StoredCollection.Grows (coll coll' : StoredCollection V) : Prop where
  creator : coll'.creator = coll.creator
  size : coll'.size = coll.size
  indexes : coll.indexes <+: coll'.indexes

/-- What the request of a call does to the server. -/
structure Changes (i : ℕ) (s s' : VectorServer V) : Prop where
  grows : ∀ c coll, s.collections c = some coll → ∃ coll', s'.collections c = some coll' ∧
    coll.Grows coll' ∧ (coll.creator ≠ i → coll'.indexes = coll.indexes)
  creates : ∀ c coll', s.collections c = none → s'.collections c = some coll' → coll'.creator = i
  stores : s'.stored = s.stored ∨ ∃ x, s'.stored = s.stored ++ [(i, x)]

/-- What holds of the server after some calls have been started. -/
structure ServerInv (n : ℕ) (s : VectorServer V) : Prop where
  creator_lt : ∀ c coll, s.collections c = some coll → coll.creator < n
  stored_lt : ∀ y ∈ s.stored, y.1 < n
  nodup : (s.stored.map Prod.fst).Nodup
  /-- The collections hold what was stored, in the order of the upserts. -/
  contents : ∀ c, (s.contents c).getD [] = (s.writes.foldl land (fun _ => none) c).getD []
  sized : ∀ c coll, s.collections c = some coll → ∀ p ∈ coll.points, dim p.dense = coll.size

variable {dim}

/-! ### What a request changes -/

variable {i j n : ℕ} {s s' : VectorServer V} {call call' : AddCall V × AddPhase}

theorem StoredCollection.Grows.refl (coll : StoredCollection V) : coll.Grows coll :=
  ⟨rfl, rfl, List.prefix_rfl⟩

theorem StoredCollection.Grows.trans {coll coll' coll'' : StoredCollection V}
    (h : coll.Grows coll') (h' : coll'.Grows coll'') : coll.Grows coll'' :=
  ⟨h'.creator.trans h.creator, h'.size.trans h.size, h.indexes.trans h'.indexes⟩

theorem Changes.refl (i : ℕ) (s : VectorServer V) : Changes i s s where
  grows _ coll h := ⟨coll, h, .refl coll, fun _ => rfl⟩
  creates _ _ h h' := by rw [h] at h'; cases h'
  stores := .inl rfl

/-- A collection is created by the call. -/
theorem changes_create {c : String} {coll : StoredCollection V} (h : s.collections c = none)
    (hcreator : coll.creator = i) : Changes i s (s.put c coll) where
  grows c' coll' h' := by
    have hne : c' ≠ c := by
      rintro rfl
      rw [h] at h'
      cases h'
    exact ⟨coll', (put_collections_ne s hne coll).trans h', .refl coll', fun _ => rfl⟩
  creates c' coll' hnone h' := by
    by_cases hc : c' = c
    · subst hc
      rw [put_collections_self] at h'
      exact Option.some.inj h' ▸ hcreator
    · rw [put_collections_ne s hc, hnone] at h'
      cases h'
  stores := .inl rfl

/-- A collection that is there changes, and calls of the process may be stored. -/
theorem changes_put {c : String} {coll coll' : StoredCollection V}
    {stored : List (ℕ × AddCall V)} (h : s.collections c = some coll) (hgrows : coll.Grows coll')
    (hown : coll.creator ≠ i → coll'.indexes = coll.indexes)
    (hstored : stored = s.stored ∨ ∃ x, stored = s.stored ++ [(i, x)]) :
    Changes i s { s.put c coll' with stored := stored } where
  grows d other hd := by
    by_cases hc : d = c
    · subst hc
      obtain rfl := Option.some.inj (hd.symm.trans h)
      exact ⟨coll', put_collections_self s d coll', hgrows, hown⟩
    · exact ⟨other, (put_collections_ne s hc coll').trans hd, .refl other, fun _ => rfl⟩
  creates d other hnone hd := by
    by_cases hc : d = c
    · subst hc
      rw [hnone] at h
      cases h
    · rw [show _ = s.collections d from put_collections_ne s hc coll', hnone] at hd
      cases hd
  stores := hstored

/-- **What a request changes:** it creates a missing collection, or makes an index of one
that the call has created itself, or stores the points of the call. -/
theorem AddMoves.changes (h : AddMoves dim i call s call' s') (hk : Knows dim i call s) :
    Changes i s s' := by
  cases h with
  | there | missing | refuseCreation | indexed | refuseUpsert | breakOff => exact .refl i s
  | create h => exact changes_create h rfl
  | @index x _ coll field left h =>
      refine changes_put h ⟨rfl, rfl, List.prefix_append _ _⟩ (fun hne => ?_) (.inl rfl)
      exact absurd (hk.creates _ coll rfl h) hne
  | upsert h hsize hphase =>
      exact changes_put h ⟨rfl, rfl, List.prefix_rfl⟩ (fun _ => rfl) (.inr ⟨_, rfl⟩)

/-- **What a call knows survives the others.** -/
theorem knows_stable (hne : j ≠ i) (h : Changes i s s') (hk : Knows dim j call s) :
    Knows dim j call s' := by
  -- A collection the call has seen is still there.
  have hback : ∀ coll', call.2.seen = true →
      s'.collections call.1.collectionName = some coll' →
      ∃ coll, s.collections call.1.collectionName = some coll ∧ coll.Grows coll' := by
    intro coll' hseen h'
    obtain ⟨coll, hcoll⟩ := hk.seen hseen
    obtain ⟨coll'', h'', hgrows, -⟩ := h.grows _ coll hcoll
    exact ⟨coll, hcoll, Option.some.inj (h''.symm.trans h') ▸ hgrows⟩
  have hstored : ∀ x, (j, x) ∈ s'.stored ↔ (j, x) ∈ s.stored := by
    intro x
    rcases h.stores with heq | ⟨y, heq⟩
    · rw [heq]
    · rw [heq, List.mem_append, List.mem_singleton, Prod.mk.injEq]
      exact or_iff_left fun hj => hne hj.1
  have hindices : j ∈ s'.stored.map Prod.fst ↔ j ∈ s.stored.map Prod.fst := by
    simp only [List.mem_map, Prod.exists, exists_and_right, exists_eq_right, hstored]
  constructor
  · intro c coll' h' hcreator
    cases hc : s.collections c with
    | none => exact absurd (hcreator.symm.trans (h.creates c coll' hc h')) hne
    | some coll =>
        obtain ⟨coll'', h'', hgrows, hsame⟩ := h.grows c coll hc
        obtain rfl := Option.some.inj (h''.symm.trans h')
        have howner : coll.creator = j := hgrows.creator.symm.trans hcreator
        rw [hsame (howner ▸ hne), hgrows.size]
        exact hk.made c coll hc howner
  · intro hseen
    obtain ⟨coll, hcoll⟩ := hk.seen hseen
    obtain ⟨coll', h', -⟩ := h.grows _ coll hcoll
    exact ⟨coll', h'⟩
  · intro left coll' hphase h'
    obtain ⟨coll, hcoll, hgrows⟩ := hback coll' (by rw [hphase]; rfl) h'
    exact hgrows.creator.trans (hk.creates left coll hphase hcoll)
  · intro coll' hphase h'
    obtain ⟨coll, hcoll, hgrows⟩ := hback coll' (by rw [hphase]; rfl) h'
    rw [hgrows.size]
    exact hk.refused coll hphase hcoll
  · rw [hindices]
    exact hk.stored
  · exact fun x hx => hk.storedCall x ((hstored x).1 hx)

/-! ### What the call itself knows then -/

variable {x : AddCall V} {phase phase' : AddPhase}

/-- A call that has been started knows nothing. -/
theorem knows_start (h : ServerInv dim n s) (x : AddCall V) : Knows dim n (x, .checking) s where
  made c coll hc hcreator := absurd hcreator (h.creator_lt c coll hc).ne
  seen hseen := absurd hseen Bool.false_ne_true
  creates _ _ hphase := by cases hphase
  refused _ hphase := by cases hphase
  stored := by
    refine iff_of_false Bool.false_ne_true fun hmem => ?_
    obtain ⟨y, hy, hn⟩ := List.mem_map.1 hmem
    exact absurd hn (h.stored_lt y hy).ne
  storedCall y hy := absurd rfl (h.stored_lt _ hy).ne

/-- A call goes on without a change of the server. -/
theorem Knows.goOn (hk : Knows dim i (x, phase) s)
    (hmade : ∀ made, phase.Made made → phase'.Made made)
    (hseen : phase'.seen = true → ∃ coll, s.collections x.collectionName = some coll)
    (hcreates : ∀ left, phase' ≠ .indexing left)
    (hrefused : phase' = .raised .wrongVectorSize → ∀ coll,
      s.collections x.collectionName = some coll → ∃ p ∈ x.points, dim p.dense ≠ coll.size)
    (hstored : phase'.hasStored = phase.hasStored) : Knows dim i (x, phase') s where
  made c coll hc hcreator := by
    obtain ⟨hname, hsize, h⟩ := hk.made c coll hc hcreator
    exact ⟨hname, hsize, hmade _ h⟩
  seen := hseen
  creates left _ hphase := absurd hphase (hcreates left)
  refused coll hphase hc := hrefused hphase coll hc
  stored := by
    rw [← hk.stored]
    exact iff_of_eq (congrArg (· = true) hstored)
  storedCall := hk.storedCall

/-- A call goes on with a change of its collection. -/
theorem Knows.put {coll : StoredCollection V} {stored : List (ℕ × AddCall V)}
    (hk : Knows dim i (x, phase) s)
    (hmade : coll.creator = i → coll.size = x.denseDim dim ∧ phase'.Made coll.indexes)
    (hcreates : ∀ left, phase' = .indexing left → coll.creator = i)
    (hrefused : phase' ≠ .raised .wrongVectorSize)
    (hstored : phase'.hasStored = true ↔ i ∈ stored.map Prod.fst)
    (hcall : ∀ y, (i, y) ∈ stored → y = x) :
    Knows dim i (x, phase') { s.put x.collectionName coll with stored := stored } where
  made c coll' hc hcreator := by
    by_cases hname : c = x.collectionName
    · subst hname
      obtain rfl := Option.some.inj ((put_collections_self s _ coll).symm.trans hc)
      exact ⟨rfl, hmade hcreator⟩
    · have hc' := (put_collections_ne s hname coll).symm.trans hc
      exact absurd (hk.made c coll' hc' hcreator).1.symm hname
  seen _ := ⟨coll, put_collections_self s _ coll⟩
  creates left coll' hphase hc := by
    obtain rfl := Option.some.inj ((put_collections_self s _ coll).symm.trans hc)
    exact hcreates left hphase
  refused _ hphase := absurd hphase hrefused
  stored := hstored
  storedCall := hcall

/-- **What a call knows of its own request.** -/
theorem AddMoves.knows (h : AddMoves dim i call s call' s') (hk : Knows dim i call s) :
    Knows dim i call' s' := by
  cases h with
  | there h => exact hk.goOn (fun _ hfalse => hfalse.elim) (fun _ => ⟨_, h⟩) nofun nofun rfl
  | missing h => exact hk.goOn (fun _ hfalse => hfalse) nofun nofun nofun rfl
  | create h => exact hk.put (fun _ => ⟨rfl, rfl⟩) (fun _ _ => rfl) nofun hk.stored hk.storedCall
  | refuseCreation h => exact hk.goOn (fun _ hfalse => hfalse) (fun _ => ⟨_, h⟩) nofun nofun rfl
  | @index x _ coll field left h =>
      have hcreator : coll.creator = i := hk.creates _ coll rfl h
      obtain ⟨-, hsize, hmade⟩ := hk.made _ coll h hcreator
      refine hk.put (fun _ => ⟨hsize, ?_⟩) (fun _ _ => hcreator) nofun hk.stored hk.storedCall
      exact (List.append_assoc ..).trans hmade
  | indexed =>
      exact hk.goOn (fun _ hmade => (List.append_nil _).symm.trans hmade) (fun _ => hk.seen rfl)
        nofun nofun rfl
  | @upsert x _ coll phase h hsize hphase =>
      have hmade : coll.creator = i → coll.size = x.denseDim dim ∧ coll.indexes = payloadIndexes :=
        fun hcreator => (hk.made _ coll h hcreator).2
      have hmem : i ∈ (s.stored ++ [(i, x)]).map Prod.fst := by simp
      have hcall : ∀ y, (i, y) ∈ s.stored ++ [(i, x)] → y = x := by
        intro y hy
        rcases List.mem_append.1 hy with hy | hy
        · exact hk.storedCall y hy
        · exact (Prod.mk.inj (List.mem_singleton.1 hy)).2
      rcases hphase with rfl | rfl <;>
        exact hk.put hmade nofun nofun (iff_of_true rfl hmem) hcall
  | @refuseUpsert x _ coll p h hp hsize =>
      refine hk.goOn (fun _ hmade => hmade) (fun _ => ⟨_, h⟩) nofun (fun _ coll' h' => ?_) rfl
      obtain rfl := Option.some.inj (h.symm.trans h')
      exact ⟨p, hp, hsize⟩
  | @breakOff x _ phase h =>
      refine hk.goOn (fun made hmade => ?_) nofun nofun nofun ?_
      · cases phase with
        | checking | creating => exact hmade.elim
        | indexing left => exact ⟨left, hmade⟩
        | upserting => exact ⟨[], (List.append_nil _).trans hmade⟩
        | returned | raised | unanswered => cases h
      · cases phase with
        | checking | creating | indexing | upserting => rfl
        | returned | raised | unanswered => cases h

/-! ### The server -/

/-- A collection is created, or something else than its points changes. -/
theorem ServerInv.put (h : ServerInv dim n s) {c : String} {coll : StoredCollection V}
    (hcreator : coll.creator < n) (hpoints : coll.points = (s.contents c).getD [])
    (hsized : ∀ p ∈ coll.points, dim p.dense = coll.size) : ServerInv dim n (s.put c coll) where
  creator_lt d other hd := by
    by_cases hc : d = c
    · subst hc
      rw [put_collections_self] at hd
      exact Option.some.inj hd ▸ hcreator
    · rw [put_collections_ne s hc] at hd
      exact h.creator_lt d other hd
  stored_lt := h.stored_lt
  nodup := h.nodup
  contents d := by
    refine Eq.trans ?_ (h.contents d)
    by_cases hc : d = c
    · subst hc
      rw [VectorServer.contents, put_collections_self]
      exact hpoints
    · rw [VectorServer.contents, put_collections_ne s hc]
      rfl
  sized d other hd := by
    by_cases hc : d = c
    · subst hc
      rw [put_collections_self] at hd
      exact Option.some.inj hd ▸ hsized
    · rw [put_collections_ne s hc] at hd
      exact h.sized d other hd

/-- The writes of a call, landed one after the other. -/
theorem getD_foldl_writes (x : AddCall V) (collections : Collections V) (c : String) :
    (x.writes.foldl land collections c).getD []
      = if c = x.collectionName then
          x.points.foldl (fun points p => upsert p points) ((collections c).getD [])
        else (collections c).getD [] := by
  rw [getD_foldl_land, AddCall.writes, List.filter_map, List.map_map]
  by_cases hc : c = x.collectionName
  · have hall : x.points.filter ((fun w => decide (w.1 = c)) ∘ fun p => (x.collectionName, p))
        = x.points := List.filter_eq_self.2 fun p _ => decide_eq_true hc.symm
    rw [if_pos hc, hall]
    exact congrArg (List.foldl _ _) (List.map_id _)
  · have hnone : x.points.filter ((fun w => decide (w.1 = c)) ∘ fun p => (x.collectionName, p))
        = [] := List.filter_eq_nil_iff.2 fun p _ => by simpa using Ne.symm hc
    rw [if_neg hc, hnone]
    rfl

/-- The points of a call are stored. -/
theorem ServerInv.store (h : ServerInv dim n s) {coll : StoredCollection V}
    (hc : s.collections x.collectionName = some coll)
    (hsize : ∀ p ∈ x.points, dim p.dense = coll.size) (hi : i < n)
    (hnew : i ∉ s.stored.map Prod.fst) :
    ServerInv dim n { s.put x.collectionName (coll.upsertAll x.points) with
      stored := s.stored ++ [(i, x)] } where
  creator_lt d other hd := by
    by_cases hname : d = x.collectionName
    · subst hname
      obtain rfl := Option.some.inj ((put_collections_self s _ _).symm.trans hd)
      exact h.creator_lt _ coll hc
    · exact h.creator_lt d other ((put_collections_ne s hname _).symm.trans hd)
  stored_lt y hy := by
    rcases List.mem_append.1 hy with hy | hy
    · exact h.stored_lt y hy
    · exact List.mem_singleton.1 hy ▸ hi
  nodup := by
    rw [List.map_append, List.map_singleton]
    refine List.nodup_append.2 ⟨h.nodup, List.nodup_singleton i, fun a ha b hb hab => ?_⟩
    rw [List.mem_singleton] at hb
    rw [hab, hb] at ha
    exact hnew ha
  contents d := by
    have hwrites : ({ s.put x.collectionName (coll.upsertAll x.points) with
        stored := s.stored ++ [(i, x)] } : VectorServer V).writes = s.writes ++ x.writes := by
      simp [VectorServer.writes]
    rw [hwrites, List.foldl_append, getD_foldl_writes, ← h.contents d]
    by_cases hname : d = x.collectionName
    · subst hname
      rw [if_pos rfl, VectorServer.contents, VectorServer.contents, put_collections_self, hc]
      rfl
    · rw [if_neg hname, VectorServer.contents, put_collections_ne s hname]
      rfl
  sized d other hd := by
    by_cases hname : d = x.collectionName
    · subst hname
      obtain rfl := Option.some.inj ((put_collections_self s _ _).symm.trans hd)
      intro p hp
      rw [StoredCollection.upsertAll, foldl_upsert] at hp
      rcases List.mem_append.1 hp with hp | hp
      · exact h.sized _ coll hc p (List.mem_filter.1 hp).1
      · exact hsize p (mem_lastWrites.1 hp).mem
    · exact h.sized d other ((put_collections_ne s hname _).symm.trans hd)

/-- **What holds of the server is kept.** -/
theorem AddMoves.inv (h : AddMoves dim i call s call' s') (hi : i < n) (hinv : ServerInv dim n s)
    (hk : Knows dim i call s) : ServerInv dim n s' := by
  cases h with
  | there | missing | refuseCreation | indexed | refuseUpsert | breakOff => exact hinv
  | create h =>
      refine hinv.put hi ?_ (List.forall_mem_nil _)
      rw [VectorServer.contents, h]
      rfl
  | @index x _ coll field left h =>
      refine hinv.put (hinv.creator_lt _ coll h) ?_ (hinv.sized _ coll h)
      rw [VectorServer.contents, h]
      rfl
  | upsert h hsize hphase =>
      refine hinv.store h hsize hi fun hmem => ?_
      exact absurd (hk.stored.2 hmem) Bool.false_ne_true

/-- **Calls of `add` keep to their guarantee.** -/
theorem addCalls_relyGuarantee :
    Parallel.RelyGuarantee (addRules dim) (Knows (V := V) dim) Changes (ServerInv dim) where
  start hp h := by
    rename_i p _
    obtain ⟨x, phase⟩ := p
    obtain rfl : phase = .checking := hp
    exact knows_start h x
  grow h :=
    { creator_lt := fun c coll hc => (h.creator_lt c coll hc).trans (Nat.lt_succ_self _)
      stored_lt := fun y hy => (h.stored_lt y hy).trans (Nat.lt_succ_self _)
      nodup := h.nodup
      contents := h.contents
      sized := h.sized }
  keeps h hi hinv hk := ⟨AddMoves.inv h hi hinv hk, AddMoves.changes h hk, AddMoves.knows h hk⟩
  stable := knows_stable

/-- The server on which nothing is stored. -/
theorem serverInv_empty : ServerInv dim 0 (VectorServer.empty : VectorServer V) where
  creator_lt _ _ hc := by cases hc
  stored_lt _ hy := absurd hy List.not_mem_nil
  nodup := List.nodup_nil
  contents _ := rfl
  sized _ _ hc := by cases hc

theorem AddCalls.Reached.sound {s : AddCalls V} (h : s.Reached dim) :
    Parallel.Sound (Knows dim) (ServerInv dim) s :=
  addCalls_relyGuarantee.sound h (Parallel.sound_start serverInv_empty)

/-! ### What is stored -/

/-- **Calls of `add` write as if in one piece.**  In every state of every run, the
collections hold what the stored writes leave when they land one after the other, and
retrieval gives the same for both; the stored writes are those of the calls that returned
or whose answer was lost, of each once. -/
theorem adds_refine_land {s : AddCalls V} (h : s.Reached dim) :
    (∀ c, (s.shared.contents c).getD []
      = (s.shared.writes.foldl land (fun _ => none) c).getD []) ∧
    (s.shared.stored.map Prod.fst).Nodup ∧
    (∀ i x, (i, x) ∈ s.shared.stored ↔
      ∃ phase, s.procs[i]? = some (x, phase) ∧ phase.hasStored = true) ∧
    ∀ (r : HybridRetriever V) (userId query collection : String) (k : ℕ),
      r.retrieve s.shared.contents userId query collection k
        = r.retrieve (s.shared.writes.foldl land fun _ => none) userId query collection k := by
  have hs := h.sound
  refine ⟨hs.inv.contents, hs.inv.nodup, fun i x => ⟨fun hmem => ?_, ?_⟩, fun r userId _ c _ => ?_⟩
  · have hi : i < s.procs.length := hs.inv.stored_lt _ hmem
    have hk := hs.knows i _ (List.getElem?_eq_getElem hi)
    refine ⟨s.procs[i].2, ?_, hk.stored.2 (List.mem_map_of_mem hmem)⟩
    rw [List.getElem?_eq_getElem hi, hk.storedCall x hmem]
  · rintro ⟨phase, hcall, hstored⟩
    have hk := hs.knows i _ hcall
    obtain ⟨⟨j, y⟩, hmem, rfl⟩ := List.mem_map.1 (hk.stored.1 hstored)
    exact hk.storedCall y hmem ▸ hmem
  · refine retrieve_congr r ?_ _ _
    rw [pointsOf, pointsOf, hs.inv.contents c]

/-! ### The indexes -/

/-- A call that has ended makes no request. -/
theorem AddMoves.running (h : AddMoves dim i (x, phase) s call' s') : phase.running = true := by
  cases h with
  | breakOff h => exact h
  | _ => rfl

/-- What there is of a collection stays. -/
theorem grows_of_runs {t t' : AddCalls V} (h : t.Reached dim)
    (hruns : Parallel.Runs (addRules dim) t t') {c : String} {coll : StoredCollection V}
    (hc : t.shared.collections c = some coll) :
    ∃ coll', t'.shared.collections c = some coll' ∧ coll.Grows coll' := by
  let Stays (s s' : VectorServer V) : Prop := ∀ other, s.collections c = some other →
    ∃ other', s'.collections c = some other' ∧ other.Grows other'
  have htrans : ∀ {r s s'}, Stays r s → Stays s s' → Stays r s' := by
    intro r s s' hrs hss other hother
    obtain ⟨other', hother', hgrows⟩ := hrs other hother
    obtain ⟨other'', hother'', hgrows'⟩ := hss other' hother'
    exact ⟨other'', hother'', hgrows.trans hgrows'⟩
  have hchange : ∀ {i s s'}, Changes i s s' → Stays s s' := by
    intro i s s' hchanges other hother
    obtain ⟨other', hother', hgrows, -⟩ := hchanges.grows c other hother
    exact ⟨other', hother', hgrows⟩
  exact addCalls_relyGuarantee.rel_of_runs (R := Stays)
    (fun s other hother => ⟨other, hother, .refl other⟩) htrans hchange hruns h.sound coll hc

/-- **A collection whose creator was broken off keeps the indexes it has.** -/
theorem unchanged_of_runs {t t' : AddCalls V} (h : t.Reached dim)
    (hruns : Parallel.Runs (addRules dim) t t') {c : String} {coll : StoredCollection V}
    (hcall : t.procs[coll.creator]? = some (x, .raised .outside))
    (hc : t.shared.collections c = some coll) :
    ∃ coll', t'.shared.collections c = some coll' ∧ coll.Grows coll' ∧
      coll'.indexes = coll.indexes := by
  let Stays (s s' : VectorServer V) : Prop := ∀ other, other.creator = coll.creator →
    s.collections c = some other → ∃ other', s'.collections c = some other' ∧
      other.Grows other' ∧ other'.indexes = other.indexes
  have htrans : ∀ {r s s'}, Stays r s → Stays s s' → Stays r s' := by
    intro r s s' hrs hss other hcreator hother
    obtain ⟨other', hother', hgrows, hsame⟩ := hrs other hcreator hother
    obtain ⟨other'', hother'', hgrows', hsame'⟩ :=
      hss other' (hgrows.creator.trans hcreator) hother'
    exact ⟨other'', hother'', hgrows.trans hgrows', hsame'.trans hsame⟩
  have hchange : ∀ {j s s'}, j ≠ coll.creator → Changes j s s' → Stays s s' := by
    intro j s s' hj hchanges other hcreator hother
    obtain ⟨other', hother', hgrows, hsame⟩ := hchanges.grows c other hother
    exact ⟨other', hother', hgrows, hsame fun heq => hj (heq.symm.trans hcreator)⟩
  have hend : ∀ s call' s', ¬ (addRules dim).moves coll.creator (x, .raised .outside) s call' s' :=
    fun s call' s' hmove => Bool.false_ne_true
      (AddMoves.running (show AddMoves dim _ (x, .raised .outside) s call' s' from hmove))
  exact (addCalls_relyGuarantee.rel_of_ended (R := Stays)
    (fun s other _ hother => ⟨other, hother, .refl other, rfl⟩) htrans hend hchange hruns h.sound
    hcall).2 coll rfl hc

/-- **Only the creator of a collection makes its indexes.**  What there is of them are the
first ones; they are all there unless the creator is at it or was broken off, and in the
latter case the others are never made. -/
theorem indexes_of_adds {s : AddCalls V} (h : s.Reached dim) {c : String}
    {coll : StoredCollection V} (hc : s.shared.collections c = some coll) :
    ∃ x phase, s.procs[coll.creator]? = some (x, phase) ∧ x.collectionName = c ∧
      coll.size = x.denseDim dim ∧ coll.indexes <+: payloadIndexes ∧
      (coll.indexes = payloadIndexes ∨ (∃ left, phase = .indexing left) ∨
        phase = .raised .outside) ∧
      ∀ s', Parallel.Runs (addRules dim) s s' → ∃ coll', s'.shared.collections c = some coll' ∧
        coll.Grows coll' ∧ (phase = .raised .outside → coll'.indexes = coll.indexes) := by
  have hs := h.sound
  have hlt : coll.creator < s.procs.length := hs.inv.creator_lt c coll hc
  obtain ⟨⟨x, phase⟩, hcall⟩ : ∃ call, s.procs[coll.creator]? = some call :=
    ⟨_, List.getElem?_eq_getElem hlt⟩
  obtain ⟨hname, hsize, hmade⟩ := (hs.knows _ _ hcall).made c coll hc rfl
  refine ⟨x, phase, hcall, hname, hsize, ?_, ?_, fun s' hruns => ?_⟩
  · cases phase with
    | checking | creating => exact hmade.elim
    | indexing left => exact ⟨left, hmade⟩
    | upserting | returned | unanswered => exact ⟨[], (List.append_nil _).trans hmade⟩
    | raised failure =>
        cases failure with
        | alreadyExists => exact hmade.elim
        | wrongVectorSize => exact ⟨[], (List.append_nil _).trans hmade⟩
        | outside => exact hmade
  · cases phase with
    | checking | creating => exact hmade.elim
    | indexing left => exact .inr (.inl ⟨left, rfl⟩)
    | upserting | returned | unanswered => exact .inl hmade
    | raised failure =>
        cases failure with
        | alreadyExists => exact hmade.elim
        | wrongVectorSize => exact .inl hmade
        | outside => exact .inr (.inr rfl)
  · by_cases hend : phase = .raised .outside
    · subst hend
      obtain ⟨coll', hcoll', hgrows, hindexes⟩ := unchanged_of_runs h hruns hcall hc
      exact ⟨coll', hcoll', hgrows, fun _ => hindexes⟩
    · obtain ⟨coll', hcoll', hgrows⟩ := grows_of_runs h hruns hc
      exact ⟨coll', hcoll', hgrows, fun h => absurd h hend⟩

/-! ### What the calls come to -/

/-- All calls have ended, and none was broken off. -/
def AddCalls.Settled (s : AddCalls V) : Prop :=
  ∀ y ∈ s.procs, ¬ y.2.running = true ∧ y.2 ≠ .raised .outside

/-- How many requests a call makes at most. -/
def AddPhase.requestsLeft : AddPhase → ℕ
  | .checking => payloadIndexes.length + 4
  | .creating => payloadIndexes.length + 3
  | .indexing left => left.length + 2
  | .upserting => 1
  | _ => 0

/-- **A call never waits for another one:** its next request gets an answer. -/
theorem exists_addMoves (hk : Knows dim i call s) (h : call.2.running = true) :
    ∃ call' s', AddMoves dim i call s call' s' ∧
      call'.2.requestsLeft < call.2.requestsLeft ∧ call'.2 ≠ .raised .outside := by
  obtain ⟨x, phase⟩ := call
  cases phase with
  | checking =>
      cases hc : s.collections x.collectionName with
      | none => exact ⟨_, _, .missing hc, Nat.lt_succ_self _, nofun⟩
      | some coll => exact ⟨_, _, .there hc, by simp [AddPhase.requestsLeft], nofun⟩
  | creating =>
      cases hc : s.collections x.collectionName with
      | none => exact ⟨_, _, .create hc, Nat.lt_succ_self _, nofun⟩
      | some coll => exact ⟨_, _, .refuseCreation hc, by simp [AddPhase.requestsLeft], nofun⟩
  | indexing left =>
      cases left with
      | nil => exact ⟨_, _, .indexed, Nat.lt_succ_self _, nofun⟩
      | cons field left =>
          obtain ⟨coll, hc⟩ := hk.seen rfl
          exact ⟨_, _, .index hc, Nat.lt_succ_self _, nofun⟩
  | upserting =>
      obtain ⟨coll, hc⟩ := hk.seen rfl
      by_cases hsize : ∃ p ∈ x.points, dim p.dense ≠ coll.size
      · obtain ⟨p, hp, hne⟩ := hsize
        exact ⟨_, _, .refuseUpsert hc hp hne, Nat.zero_lt_one, nofun⟩
      · have hall : ∀ p ∈ x.points, dim p.dense = coll.size :=
          fun p hp => by_contra fun hne => hsize ⟨p, hp, hne⟩
        exact ⟨_, _, .upsert hc hall (.inl rfl), Nat.zero_lt_one, nofun⟩
  | returned | raised | unanswered => exact absurd h Bool.false_ne_true

/-- A call that has ended by itself has seen its collection. -/
theorem seen_of_ended (h : ¬ phase.running = true ∧ phase ≠ .raised .outside) :
    phase.seen = true := by
  cases phase with
  | checking | creating | indexing | upserting => exact absurd rfl h.1
  | returned | unanswered => rfl
  | raised failure =>
      cases failure with
      | alreadyExists | wrongVectorSize => rfl
      | outside => exact absurd rfl h.2

theorem hasStored_of_ended (h : ¬ phase.running = true ∧ phase ≠ .raised .outside) :
    phase.hasStored = true ∨ phase = .raised .alreadyExists ∨ phase = .raised .wrongVectorSize := by
  cases phase with
  | checking | creating | indexing | upserting => exact absurd rfl h.1
  | returned | unanswered => exact .inl rfl
  | raised failure =>
      cases failure with
      | alreadyExists => exact .inr (.inl rfl)
      | wrongVectorSize => exact .inr (.inr rfl)
      | outside => exact absurd rfl h.2

/-- **What the calls come to.**  When none has been broken off so far, they can all be
carried through to their ends.  When they have ended so, every collection that was asked
for is there with all its indexes; one call has created it, which has stored its points
unless these have vectors of different sizes; and any other call has stored its points as
well, unless it came while the collection was created, or with vectors of another size. -/
theorem adds_settle {s : AddCalls V} (h : s.Reached dim)
    (hquiet : ∀ y ∈ s.procs, y.2 ≠ .raised .outside) :
    (∃ s' : AddCalls V, Parallel.Runs (addRules dim) s s' ∧ s'.Settled) ∧
    (s.Settled → ∀ y ∈ s.procs, ∃ coll x phase,
      s.shared.collections y.1.collectionName = some coll ∧ coll.indexes = payloadIndexes ∧
      s.procs[coll.creator]? = some (x, phase) ∧ x.collectionName = y.1.collectionName ∧
      ((∀ p ∈ x.points, dim p.dense = x.denseDim dim) → phase.hasStored = true) ∧
      (y.2.hasStored = true ∨ y.2 = .raised .alreadyExists ∨
        (y.2 = .raised .wrongVectorSize ∧ ∃ p ∈ y.1.points, dim p.dense ≠ coll.size))) := by
  have hs := h.sound
  refine ⟨?_, fun hsettled y hy => ?_⟩
  · exact addCalls_relyGuarantee.exists_ended (fun y => y.2.requestsLeft)
      (fun i call t hk hrunning => exists_addMoves hk hrunning) hs hquiet
  · obtain ⟨i, hi⟩ := List.mem_iff_getElem?.1 hy
    have hk := hs.knows i y hi
    obtain ⟨coll, hc⟩ := hk.seen (seen_of_ended (hsettled y hy))
    obtain ⟨x, phase, hcall, hname, hsize, -, hindexes, -⟩ := indexes_of_adds h hc
    have hended := hsettled _ (List.mem_of_getElem? hcall)
    have hcomplete : coll.indexes = payloadIndexes := by
      rcases hindexes with hall | ⟨left, rfl⟩ | rfl
      · exact hall
      · exact absurd rfl hended.1
      · exact absurd rfl hended.2
    refine ⟨coll, x, phase, hc, hcomplete, hcall, hname, fun hsame => ?_, ?_⟩
    · have hk' := hs.knows _ _ hcall
      rcases hasStored_of_ended hended with hstored | rfl | rfl
      · exact hstored
      · exact (hk'.made _ coll hc rfl).2.2.elim
      · obtain ⟨p, hp, hne⟩ := hk'.refused coll rfl (hname.symm ▸ hc)
        exact absurd ((hsame p hp).trans hsize.symm) hne
    · rcases hasStored_of_ended (hsettled y hy) with hstored | hphase | hphase
      · exact .inl hstored
      · exact .inr (.inl hphase)
      · exact .inr (.inr ⟨hphase, hk.refused coll hphase hc⟩)

/-! ### Two first calls at once -/

/-- Another call is made. -/
theorem AddCalls.Reached.start {s : AddCalls V} (h : s.Reached dim) (x : AddCall V) :
    AddCalls.Reached dim ⟨s.shared, s.procs ++ [(x, .checking)]⟩ := by
  have hp : (addRules dim).starts (x, .checking) := rfl
  exact h.tail (.start hp)

/-- A fact for a collection, told in a millisecond. -/
def teaCall (millis : ℕ) : AddCall Unit where
  collectionName := "general_memory"
  points := [(listedStore.write (drinks "alice" "tea" millis)).2]
  points_ne_nil := List.cons_ne_nil _ _

/-- Two calls have found the collection missing; the first has created it and had an index
made, and the second has been refused. -/
def racing : AddCalls Unit where
  shared := (VectorServer.empty.put "general_memory" ⟨1, [], [], 0⟩).put "general_memory"
    ⟨1, ["user_id"], [], 0⟩
  procs := [(teaCall 1767225600000, .indexing ["category", "last_accessed", "model_version", "document"]),
    (teaCall 1767225600417, .raised .alreadyExists)]

/-- The run that leads there. -/
theorem reached_racing : racing.Reached fun _ => 1 := by
  let Reaches (s : AddCalls Unit) : Prop := s.Reached fun _ => 1
  let created : VectorServer Unit := VectorServer.empty.put "general_memory" ⟨1, [], [], 0⟩
  have hstarted : Reaches ⟨.empty, [(teaCall 1767225600000, .checking), (teaCall 1767225600417, .checking)]⟩ :=
    (AddCalls.Reached.start .refl (teaCall 1767225600000)).start (teaCall 1767225600417)
  have hmissing : Reaches ⟨.empty, [(teaCall 1767225600000, .creating), (teaCall 1767225600417, .creating)]⟩ :=
    (hstarted.tail (.move (i := 0) rfl (.missing rfl))).tail (.move (i := 1) rfl (.missing rfl))
  have hcreated : Reaches ⟨created, [(teaCall 1767225600000, .indexing payloadIndexes),
      (teaCall 1767225600417, .creating)]⟩ :=
    hmissing.tail (.move (i := 0) rfl (.create rfl))
  have hrefused : Reaches ⟨created, [(teaCall 1767225600000, .indexing payloadIndexes),
      (teaCall 1767225600417, .raised .alreadyExists)]⟩ :=
    hcreated.tail (.move (i := 1) rfl (.refuseCreation (put_collections_self _ _ _)))
  exact hrefused.tail (.move (i := 0) rfl (.index (put_collections_self _ _ _)))

/-- A third call comes, finds the collection and has stored its fact before the first. -/
def overtaken : AddCalls Unit where
  shared := { racing.shared.put "general_memory"
      ((⟨1, ["user_id"], [], 0⟩ : StoredCollection Unit).upsertAll (teaCall 1767225660000).points)
    with stored := [(2, teaCall 1767225660000)] }
  procs := racing.procs ++ [(teaCall 1767225660000, .returned)]

/-- The run goes on to that. -/
theorem reached_overtaken : overtaken.Reached fun _ => 1 := by
  let Reaches (s : AddCalls Unit) : Prop := s.Reached fun _ => 1
  have hc : racing.shared.collections "general_memory" = some ⟨1, ["user_id"], [], 0⟩ :=
    put_collections_self _ _ _
  have hthird : Reaches ⟨racing.shared, racing.procs ++ [(teaCall 1767225660000, .upserting)]⟩ :=
    (reached_racing.start (teaCall 1767225660000)).tail (.move (i := 2) rfl (.there hc))
  exact hthird.tail (.move (i := 2) rfl (.upsert hc (fun _ _ => rfl) (.inl rfl)))

/-- What it has stored is there as if it had been alone. -/
theorem overtaken_stored : (2, teaCall 1767225660000) ∈ overtaken.shared.stored ∧
    (overtaken.shared.contents "general_memory").getD []
      = (overtaken.shared.writes.foldl land (fun _ => none) "general_memory").getD [] := by
  obtain ⟨hcontents, -, hstored, -⟩ := adds_refine_land reached_overtaken
  exact ⟨(hstored 2 _).2 ⟨.returned, rfl, rfl⟩, hcontents "general_memory"⟩

/-- The first call makes the indexes. -/
theorem racing_indexed : ∃ x phase, racing.procs[0]? = some (x, phase) ∧
    x.collectionName = "general_memory" := by
  have hc : racing.shared.collections "general_memory" = some ⟨1, ["user_id"], [], 0⟩ :=
    put_collections_self _ _ _
  obtain ⟨x, phase, hcall, hname, -⟩ := indexes_of_adds reached_racing hc
  exact ⟨x, phase, hcall, hname⟩

/-- Both calls can be carried through to their ends. -/
theorem racing_settles :
    ∃ s' : AddCalls Unit, Parallel.Runs (addRules fun _ => 1) racing s' ∧ s'.Settled :=
  (adds_settle reached_racing (by simp [racing])).1

end Server
end CognitiveEngine
