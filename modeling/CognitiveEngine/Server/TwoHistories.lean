/-
# Two histories of the endpoints

What it takes to compare two histories of the chat endpoints: the same actions in
the same order, in worlds that differ in the long-term facts of one user.  An action
that does not apply does nothing, so a call of that user may well take more
supersteps in one history than in the other.

`Alike` is what is kept: the two services agree on everything that is none of that
user's.  Retrieval filters by user, so a superstep of another user is the same in
both worlds (`next_eq_of_others`); the rest of the module says what each write to a
service does to `Alike`.
-/

import CognitiveEngine.Server.Chat

namespace CognitiveEngine
namespace Server

open CognitiveEngine.Graph Machine

variable {V : Type}

/-- What is sent, when it is sent to a user. -/
def sentTo (userId : String) (output : Option Sent) : Option Sent :=
  output.filter fun sent => sent.userId = userId

/-- What a user was sent, in order. -/
def repliesTo (userId : String) (es : List (ChatEvent V)) : List Sent :=
  es.filterMap fun e => sentTo userId e.output

/-- The points of a collection that are not stored under a user id. -/
def othersPoints (userId : String) (collections : Collections V) (collection : String) :
    List (Point V) :=
  ((collections collection).getD []).filter fun p => !fieldCondition "user_id" userId p

/-- The same action, in worlds that differ in the facts stored under `a` only. -/
inductive SameBut (a : String) : Action V → Action V → Prop
  | request (n : ℕ) (x : Call) : SameBut a (.request n x) (.request n x)
  | enter (n : ℕ) : SameBut a (.enter n) (.enter n)
  | superstep (n : ℕ) (o o' : Outside V) (htools : o.tools = o'.tools)
      (hfacts : ∀ collection,
        othersPoints a o.facts collection = othersPoints a o'.facts collection) :
      SameBut a (.superstep n o) (.superstep n o')
  | finish (n : ℕ) : SameBut a (.finish n) (.finish n)

/-- No entry of the cache eligible for the prompt was stored for `a`. -/
def CacheUnshared (w : World V) (a : String) (s : ChatService V) (x : Call) : Prop :=
  ∀ p ∈ s.cache.getD [], w.semanticCache.eligible x.request.prompt p → s.cachedFor p.id ≠ some a

/-- No turn of `a` has run on the thread of the call. -/
def ThreadUnshared (a : String) (s : ChatService V) (x : Call) : Prop :=
  ∀ p ∈ (s.thread x.request).hosts, p.userId ≠ a

/-- The calls of the other users find nothing that was stored for `a`: nothing in the
cache when they come in, nothing on their thread when they start. -/
def Guarded (w : World V) (a : String) (s : ChatService V) : Action V → Prop
  | .request _ x => x.request.userId ≠ a → CacheUnshared w a s x
  | .enter n =>
      match s.inFlight n with
      | some (.missed x) => x.request.userId ≠ a → ThreadUnshared a s x
      | _ => True
  | _ => True

/-- What a slot holds: a call in flight has found the cache's collection, and a run
carries the id of its user. -/
structure Fits (s : ChatService V) (phase : Option Phase) : Prop where
  found : ∀ p, phase = some p → s.cache.isSome
  user : ∀ r, phase = some (.running r) → r.current.state.userId = some r.call.request.userId

/-- The cache holds entries as `set` stores them, what is noted about them is about
entries it holds, and the slots are in order. -/
structure WellKept (w : World V) (s : ChatService V) : Prop where
  entries : ∀ p ∈ s.cache.getD [], ∃ query response, p = w.semanticCache.entry query response
  noted : ∀ id userId, s.cachedFor id = some userId → ∃ p ∈ s.cache.getD [], p.id = id
  slots : ∀ n, Fits s (s.inFlight n)

/-! ### The facts of the others -/

theorem pointsOf_eq_of_others {a userId : String} (hne : userId ≠ a) (collections : Collections V)
    (collection : String) :
    pointsOf userId collections collection
      = (othersPoints a collections collection).filter (fieldCondition "user_id" userId) := by
  unfold pointsOf othersPoints
  rw [List.filter_filter]
  refine List.filter_congr fun p _ => ?_
  -- a point stored under one user id is not stored under another
  unfold fieldCondition
  split
  · next v _ =>
      by_cases hv : v = userId
      · simp [hv, hne]
      · simp [hv]
  · rfl

/-- The cache has nothing of any user. -/
theorem pointsOf_cache {w : World V} {s : ChatService V} (hs : WellKept w s) (o : Outside V)
    (userId : String) : pointsOf userId (o.collections s) "semantic_cache" = [] := by
  unfold pointsOf Outside.collections
  rw [Function.update_self, List.filter_eq_nil_iff]
  intro p hp
  obtain ⟨query, response, rfl⟩ := hs.entries p hp
  simp [SemanticCache.fieldCondition_entry]

theorem pointsOf_collections {w : World V} {s t : ChatService V} (hs : WellKept w s)
    (ht : WellKept w t) {a : String} {o o' : Outside V}
    (hfacts : ∀ collection, othersPoints a o.facts collection = othersPoints a o'.facts collection)
    {userId : String} (hne : userId ≠ a) (collection : String) :
    pointsOf userId (o.collections s) collection
      = pointsOf userId (o'.collections t) collection := by
  by_cases hc : collection = "semantic_cache"
  · rw [hc, pointsOf_cache hs, pointsOf_cache ht]
  · have ho : o.collections s collection = o.facts collection := Function.update_of_ne hc _ _
    have ho' : o'.collections t collection = o'.facts collection := Function.update_of_ne hc _ _
    have hothers := hfacts collection
    rw [pointsOf_eq_of_others hne, pointsOf_eq_of_others hne]
    unfold othersPoints at hothers ⊢
    rw [ho, ho', hothers]

/-- **The next superstep of another user's run is the same in both worlds.** -/
theorem next_eq_of_others {w : World V} {s t : ChatService V} (hs : WellKept w s)
    (ht : WellKept w t) {a : String} {o o' : Outside V} (htools : o.tools = o'.tools)
    (hfacts : ∀ collection, othersPoints a o.facts collection = othersPoints a o'.facts collection)
    {r : Run} {userId : String} (hr : r.current.state.userId = some userId)
    (hne : userId ≠ a) (node : Node) : w.next o' t r node = w.next o s r node := by
  have hsame : SameFor userId (w.env r.config o s) (w.env r.config o' t).retrieve :=
    fun query collection =>
      retrieve_congr w.retriever (pointsOf_collections hs ht hfacts hne _) query 3
  have henv : w.env r.config o' t
      = { w.env r.config o s with retrieve := (w.env r.config o' t).retrieve } := by
    unfold World.env
    rw [htools]
  have hstreamed : streamed w.runtime (w.env r.config o' t) node r.current.state
      = streamed w.runtime (w.env r.config o s) node r.current.state := by
    rw [henv]
    exact streamed_congr hr hsame node
  have hsuperstep : superstep w.runtime (w.env r.config o' t) node r.current.state
      = superstep w.runtime (w.env r.config o s) node r.current.state := by
    rw [henv]
    exact superstep_congr hr hsame node
  simp only [World.next, hstreamed, hsuperstep]

/-! ### Services alike -/

/-- Neither service has noted that the entry was stored for `a`. -/
def untainted (a : String) (s t : ChatService V) (p : Point V) : Bool :=
  s.cachedFor p.id ≠ some a && t.cachedFor p.id ≠ some a

/-- Someone's turn on the thread was `a`'s. -/
def HostedBy (a : String) (c : Checkpoint) : Prop := ∃ p ∈ c.hosts, p.userId = a

/-- A slot holds a call of `a`, if any. -/
def OwnedBy (a : String) (phase : Option Phase) : Prop := ∀ p, phase = some p → p.userId = a

/-- Two slots hold the same, or calls of `a`, if any. -/
def SameUnless (a : String) (phase phase' : Option Phase) : Prop :=
  phase = phase' ∨ (OwnedBy a phase ∧ OwnedBy a phase')

/-- **The invariant of two histories.**  The services agree on the entries stored for
none but others, on the threads none but others have run on, and on the calls of the
others. -/
structure Alike (w : World V) (a : String) (s t : ChatService V) : Prop where
  left : WellKept w s
  right : WellKept w t
  created : s.cache.isSome = t.cache.isSome
  entries : (s.cache.getD []).filter (untainted a s t) = (t.cache.getD []).filter (untainted a s t)
  store : ∀ key, s.store key = t.store key ∨ HostedBy a (s.store key) ∨ HostedBy a (t.store key)
  inFlight : ∀ n, SameUnless a (s.inFlight n) (t.inFlight n)

theorem untainted_comm (a : String) (s t : ChatService V) : untainted a s t = untainted a t s := by
  funext p
  exact Bool.and_comm _ _

theorem Alike.symm {w : World V} {a : String} {s t : ChatService V} (h : Alike w a s t) :
    Alike w a t s where
  left := h.right
  right := h.left
  created := h.created.symm
  entries := by rw [untainted_comm, h.entries]
  store := by
    intro key
    rcases h.store key with heq | hs | ht
    · exact .inl heq.symm
    · exact .inr (.inr hs)
    · exact .inr (.inl ht)
  inFlight := fun n => (h.inFlight n).imp Eq.symm And.symm

theorem Alike.refl {w : World V} {s : ChatService V} (hs : WellKept w s) (a : String) :
    Alike w a s s :=
  ⟨hs, hs, rfl, rfl, fun _ => .inl rfl, fun _ => .inl rfl⟩

section Updates

variable {w : World V} {a : String} {s t : ChatService V} {request : ChatRequest}

/-! A slot written. -/

theorem fits_none (s : ChatService V) : Fits s none := by
  constructor
  · intro p hp
    exact absurd hp.symm (Option.some_ne_none p)
  · intro r hr
    exact absurd hr.symm (Option.some_ne_none _)

theorem ownedBy_none (a : String) : OwnedBy a none := by
  intro p hp
  exact absurd hp.symm (Option.some_ne_none p)

theorem ownedBy_some {phase : Phase} : OwnedBy a (some phase) ↔ phase.userId = a := by
  constructor
  · intro h
    exact h phase rfl
  · intro h p hp
    rw [← Option.some.inj hp]
    exact h

theorem userId_ne {n : ℕ} {phase : Phase} (hp : s.inFlight n = some phase)
    (ho : ¬ OwnedBy a (s.inFlight n)) : phase.userId ≠ a := by
  rw [hp] at ho
  intro ha
  exact ho (ownedBy_some.2 ha)

/-- A call that is not `a`'s is the same in both services. -/
theorem Alike.inFlight_eq (h : Alike w a s t) {n : ℕ} (ho : ¬ OwnedBy a (s.inFlight n)) :
    s.inFlight n = t.inFlight n := by
  rcases h.inFlight n with heq | ⟨hs, -⟩
  · exact heq
  · exact absurd hs ho

theorem WellKept.put (hs : WellKept w s) (n : ℕ) {phase : Option Phase} (hphase : Fits s phase) :
    WellKept w (s.put n phase) := by
  refine ⟨hs.entries, hs.noted, fun m => ⟨fun p hm => ?_, fun r hm => ?_⟩⟩
  · rcases slot_cases hm with hself | hother
    · exact hphase.found p hself
    · exact (hs.slots m).found p hother
  · rcases slot_cases hm with hself | hother
    · exact hphase.user r hself
    · exact (hs.slots m).user r hother

/-- The same put into a slot of both services. -/
theorem Alike.put_both (h : Alike w a s t) (n : ℕ) {phase : Option Phase} (hphase : Fits s phase) :
    Alike w a (s.put n phase) (t.put n phase) := by
  have hphase' : Fits t phase := ⟨fun p hp => h.created ▸ hphase.found p hp, hphase.user⟩
  exact ⟨h.left.put n hphase, h.right.put n hphase', h.created, h.entries, h.store,
    update_rel (R := SameUnless a) h.inFlight n (.inl rfl)⟩

/-- Calls of `a` put into a slot of both services. -/
theorem Alike.put_own (h : Alike w a s t) (n : ℕ) {phase phase' : Option Phase}
    (hphase : Fits s phase) (hphase' : Fits t phase') (ho : OwnedBy a phase)
    (ho' : OwnedBy a phase') : Alike w a (s.put n phase) (t.put n phase') :=
  ⟨h.left.put n hphase, h.right.put n hphase', h.created, h.entries, h.store,
    update_rel (R := SameUnless a) h.inFlight n (.inr ⟨ho, ho'⟩)⟩

/-! A checkpoint written. -/

@[simp] theorem cache_persist (r : Run) : (s.persist r).cache = s.cache := by
  unfold ChatService.persist
  split_ifs <;> rfl

@[simp] theorem cachedFor_persist (r : Run) : (s.persist r).cachedFor = s.cachedFor := by
  unfold ChatService.persist
  split_ifs <;> rfl

@[simp] theorem inFlight_persist (r : Run) : (s.persist r).inFlight = s.inFlight := by
  unfold ChatService.persist
  split_ifs <;> rfl

/-- A run writes to its own thread, unless it is anonymous. -/
theorem store_persist (r : Run) (key : String) :
    (s.persist r).store key =
      if isAnonymous r.call.request.userId = false ∧ key = r.turn.conversation.threadId
        then r.turn.checkpoint else s.store key := by
  unfold ChatService.persist
  by_cases ha : isAnonymous r.call.request.userId = true
  · rw [if_pos ha, if_neg fun h => Bool.false_ne_true (h.1.symm.trans ha)]
  · rw [if_neg ha]
    by_cases hkey : key = r.turn.conversation.threadId
    · rw [if_pos ⟨Bool.eq_false_iff.2 ha, hkey⟩, hkey]
      exact Function.update_self _ _ _
    · rw [if_neg fun h => hkey h.2]
      exact Function.update_of_ne hkey _ _

theorem untainted_persist_left (r : Run) : untainted a (s.persist r) t = untainted a s t := by
  funext p
  rw [untainted, untainted, cachedFor_persist]

theorem untainted_persist_right (r : Run) : untainted a s (t.persist r) = untainted a s t := by
  rw [untainted_comm, untainted_persist_left, untainted_comm]

theorem Fits.persist {phase : Option Phase} (h : Fits s phase) (r : Run) :
    Fits (s.persist r) phase :=
  ⟨fun p hp => by rw [cache_persist]; exact h.found p hp, h.user⟩

theorem WellKept.persist (hs : WellKept w s) (r : Run) : WellKept w (s.persist r) := by
  constructor
  · rw [cache_persist]
    exact hs.entries
  · rw [cache_persist, cachedFor_persist]
    exact hs.noted
  · intro n
    rw [inFlight_persist]
    exact (hs.slots n).persist r

/-- What a run of another user writes is the same in both services. -/
theorem Alike.persist_both (h : Alike w a s t) (r : Run) :
    Alike w a (s.persist r) (t.persist r) := by
  refine ⟨h.left.persist r, h.right.persist r, ?_, ?_, fun key => ?_, ?_⟩
  · rw [cache_persist, cache_persist]
    exact h.created
  · rw [cache_persist, cache_persist, untainted_persist_left, untainted_persist_right]
    exact h.entries
  · rw [store_persist, store_persist]
    split_ifs
    · exact .inl rfl
    · exact h.store key
  · rw [inFlight_persist, inFlight_persist]
    exact h.inFlight

/-- What a run of `a` writes to its thread is not compared any more. -/
theorem Alike.persist_left (h : Alike w a s t) {r : Run} (ha : r.call.request.userId = a) :
    Alike w a (s.persist r) t := by
  refine ⟨h.left.persist r, h.right, ?_, ?_, fun key => ?_, ?_⟩
  · rw [cache_persist]
    exact h.created
  · rw [cache_persist, untainted_persist_left]
    exact h.entries
  · rw [store_persist]
    split_ifs
    · exact .inr (.inl ⟨r.turn.conversation, List.mem_cons_self, ha⟩)
    · exact h.store key
  · rw [inFlight_persist]
    exact h.inFlight

/-! An answer stored in the cache. -/

theorem filter_upsert (q : Point V → Bool) (e : Point V) (points : List (Point V)) :
    (upsert e points).filter q
      = (points.filter fun p => q p && p.id ≠ e.id) ++ if q e then [e] else [] := by
  rw [upsert, List.filter_append, List.filter_filter, List.filter_singleton, Bool.cond_eq_ite]

theorem WellKept.remember (hs : WellKept w s) (text : String) :
    WellKept w (s.remember w.semanticCache request text) := by
  set e := w.semanticCache.entry request.prompt text with he
  refine ⟨fun p hp => ?_, fun id userId hid => ?_, fun n => ⟨fun _ _ => rfl, (hs.slots n).user⟩⟩
  · rcases mem_upsert.1 hp with ⟨hp, -⟩ | rfl
    · exact hs.entries p hp
    · exact ⟨request.prompt, text, rfl⟩
  · by_cases hide : id = e.id
    · exact ⟨e, mem_upsert.2 (.inr rfl), hide.symm⟩
    · have hold : s.cachedFor id = some userId := by
        rw [← hid]
        exact (Function.update_of_ne hide _ _).symm
      obtain ⟨p, hp, rfl⟩ := hs.noted id userId hold
      exact ⟨p, mem_upsert.2 (.inl ⟨hp, hide⟩), rfl⟩

/-- The untainted entries of other ids, before and after an entry is stored in one of
the services or in both. -/
theorem filter_untainted {s' t' : ChatService V} {e : Point V}
    (hs : ∀ id, id ≠ e.id → s'.cachedFor id = s.cachedFor id)
    (ht : ∀ id, id ≠ e.id → t'.cachedFor id = t.cachedFor id) (points : List (Point V)) :
    points.filter (fun p => untainted a s' t' p && p.id ≠ e.id)
      = (points.filter (untainted a s t)).filter fun p => p.id ≠ e.id := by
  rw [List.filter_filter]
  refine List.filter_congr fun p _ => ?_
  by_cases hp : p.id = e.id
  · simp [hp]
  · simp [untainted, hs p.id hp, ht p.id hp, hp]

/-- The same answer is stored alike. -/
theorem Alike.remember_both (h : Alike w a s t) (text : String) :
    Alike w a (s.remember w.semanticCache request text)
      (t.remember w.semanticCache request text) := by
  set e := w.semanticCache.entry request.prompt text with he
  refine ⟨h.left.remember text, h.right.remember text, rfl, ?_, h.store, h.inFlight⟩
  have hs : (s.remember w.semanticCache request text).cache.getD [] = upsert e (s.cache.getD []) := rfl
  have ht : (t.remember w.semanticCache request text).cache.getD [] = upsert e (t.cache.getD []) := rfl
  have hothers := @filter_untainted _ a s t (s.remember w.semanticCache request text)
    (t.remember w.semanticCache request text) e (fun id hid => Function.update_of_ne hid _ _)
    (fun id hid => Function.update_of_ne hid _ _)
  rw [hs, ht, filter_upsert, filter_upsert, hothers, hothers, h.entries]

/-- An entry stored for `a` is not compared any more. -/
theorem Alike.remember_left (h : Alike w a s t) (ha : request.userId = a)
    (hsome : s.cache.isSome) (text : String) :
    Alike w a (s.remember w.semanticCache request text) t := by
  set e := w.semanticCache.entry request.prompt text with he
  refine ⟨h.left.remember text, h.right, h.created ▸ hsome.symm, ?_, h.store, h.inFlight⟩
  have hs : (s.remember w.semanticCache request text).cache.getD [] = upsert e (s.cache.getD []) := rfl
  have hothers := @filter_untainted _ a s t (s.remember w.semanticCache request text) t e
    (fun id hid => Function.update_of_ne hid _ _) (fun _ _ => rfl)
  have htainted : ∀ p : Point V, p.id = e.id →
      untainted a (s.remember w.semanticCache request text) t p = false := by
    intro p hp
    have hself : (s.remember w.semanticCache request text).cachedFor e.id = some a :=
      ha ▸ Function.update_self _ _ _
    simp [untainted, hp, hself]
  have ht : ∀ p ∈ t.cache.getD [], untainted a (s.remember w.semanticCache request text) t p
      = (untainted a (s.remember w.semanticCache request text) t p && p.id ≠ e.id) := by
    intro p _
    by_cases hp : p.id = e.id
    · simp [htainted p hp]
    · simp [hp]
  rw [hs, filter_upsert, htainted e rfl, hothers, List.filter_congr ht, hothers, h.entries]
  simp

end Updates

end Server
end CognitiveEngine
