/-
# What a reply can tell about another user's facts

Whatever the chat endpoints do about a call of one user is invisible to the others
(`leavesOwn_handle`), and what they do about a call of another user does not depend
on that user's facts (`Alike.handle_others`), unless the call finds something that was
stored for that user: an entry of the semantic cache names no user, and a thread can
be shared (`CognitiveEngine.Server.Threads`).

`replies_eq_of_unshared` says that these two are the only ways: when no other user's
call finds an eligible entry stored for that user, or starts on a thread that user's
turns have run on, every reply to another user is the same in both histories.
`reply_reveals_fact` is a pair of histories in which one is not.
-/

import CognitiveEngine.Server.TwoHistories

namespace CognitiveEngine
namespace Server

open CognitiveEngine.Graph Machine

variable {V : Type}

/-! ### One action -/

/-- The slot an action is about. -/
def Action.slot : Action V → ℕ
  | .request n _ | .enter n | .superstep n _ | .finish n => n

/-- The action is about a call of `a`, or about no call. -/
def OwnAction (a : String) (s : ChatService V) : Action V → Prop
  | .request _ x => x.request.userId = a
  | .enter n | .superstep n _ | .finish n => OwnedBy a (s.inFlight n)

theorem isSome_of_get {cache : SemanticCache V} {collection : Option (List (Point V))}
    {query : String} {found : Option String} (h : cache.get collection query = some found) :
    collection.isSome := by
  obtain ⟨points, rfl, -⟩ := Option.map_eq_some_iff.1 h
  rfl

section Actions

variable {w : World V} {a : String} {s t : ChatService V}

theorem fits_missed {x : Call} {found : Option String}
    (h : w.semanticCache.get s.cache x.request.prompt = some found) :
    Fits s (some (.missed x)) := by
  constructor
  · intro _ _
    exact isSome_of_get h
  · intro r hr
    exact absurd (Option.some.inj hr) nofun

theorem fits_running {r : Run} (hfound : s.cache.isSome)
    (huser : r.current.state.userId = some r.call.request.userId) :
    Fits s (some (.running r)) := by
  constructor
  · intro _ _
    exact hfound
  · intro r' hr
    cases hr
    exact huser

/-- A superstep of a run leaves its call and its user. -/
theorem next_some {o : Outside V} {r r' : Run} {node : Node} {chunks : List String}
    (h : w.next o s r node = (chunks, some r')) :
    r'.call = r.call ∧ r'.current.state.userId = r.current.state.userId := by
  obtain ⟨c, hc, rfl⟩ := Option.map_eq_some_iff.1 (congrArg Prod.snd h)
  have huser := userId_of_step (step_of_superstep hc)
  exact ⟨rfl, huser⟩

theorem put_self (s : ChatService V) (n : ℕ) : s.put n (s.inFlight n) = s := by
  simp only [ChatService.put, Function.update_eq_self]

/-- What an action leaves behind: a write to the cache or the thread, if any, and the
slot it is about; when the call is `a`'s, the write is one that is not compared. -/
structure LeavesOwn (w : World V) (a : String) (s : ChatService V) (n : ℕ)
    (result : Option Sent × ChatService V) : Prop where
  sent : ∀ sent, result.1 = some sent → sent.userId = a
  state : ∃ s₁ phase, result.2 = s₁.put n phase ∧ Fits s₁ phase ∧ OwnedBy a phase ∧
    ∀ t, Alike w a s t → Alike w a s₁ t

theorem leavesOwn_idle (hs : WellKept w s) {n : ℕ} (ho : OwnedBy a (s.inFlight n)) :
    LeavesOwn w a s n (none, s) :=
  ⟨nofun, s, s.inFlight n, (put_self s n).symm, hs.slots n, ho, fun _ h => h⟩

theorem leavesOwn_dropped (s : ChatService V) (n : ℕ) {x : Call} (ha : x.request.userId = a)
    (contents : List String) (failed : Bool) :
    LeavesOwn w a s n (some (x.sends contents failed), s.put n none) := by
  refine ⟨fun sent hsent => ?_, s, none, rfl, fits_none s, ownedBy_none a, fun _ h => h⟩
  rw [← Option.some.inj hsent]
  exact ha

/-- **An action about a call of `a`** sends to `a` only and changes nothing that is
compared. -/
theorem leavesOwn_handle (hs : WellKept w s) {act : Action V} (hact : OwnAction a s act) :
    LeavesOwn w a s act.slot (w.handle s act) := by
  cases act with
  | request n x =>
      simp only [World.handle]
      split
      · exact leavesOwn_dropped s n hact _ _
      · exact leavesOwn_dropped s n hact _ _
      · next hget =>
          exact ⟨nofun, s, _, rfl, fits_missed hget, ownedBy_some.2 hact, fun _ h => h⟩
  | enter n =>
      simp only [World.handle]
      split
      · next x hx =>
          have ha : x.request.userId = a := hact _ hx
          split
          · exact leavesOwn_dropped s n ha _ _
          · next config hconfig =>
              have hfound := (hs.slots n).found _ hx
              refine ⟨nofun, s.persist (s.openRun x config), _, rfl, ?_, ownedBy_some.2 ha,
                fun _ h => h.persist_left ha⟩
              exact fits_running (by rwa [cache_persist]) rfl
      · exact leavesOwn_idle hs hact
  | superstep n o =>
      simp only [World.handle]
      split
      · next r hr =>
          have ha : r.call.request.userId = a := hact _ hr
          split
          · exact leavesOwn_idle hs hact
          · next node hnode =>
              split
              · exact leavesOwn_dropped s n ha _ _
              · next chunks r' hnext =>
                  obtain ⟨hcall, huser⟩ := next_some hnext
                  have ha' : r'.call.request.userId = a := by rw [hcall]; exact ha
                  refine ⟨?_, s.persist r', _, rfl, ?_, ownedBy_some.2 ha',
                    fun _ h => h.persist_left ha'⟩
                  · intro sent hsent
                    rw [← Option.some.inj hsent]
                    exact ha
                  · refine fits_running ?_ ?_
                    · rw [cache_persist]
                      exact (hs.slots n).found _ hr
                    · rw [huser, hcall]
                      exact (hs.slots n).user r hr
      · exact leavesOwn_idle hs hact
  | finish n =>
      simp only [World.handle]
      split
      · next r hr =>
          have ha : r.call.request.userId = a := hact _ hr
          have hfound := (hs.slots n).found _ hr
          split_ifs
          · exact leavesOwn_idle hs hact
          · exact ⟨nofun, s, none, rfl, fits_none s, ownedBy_none a, fun _ h => h⟩
          · exact ⟨nofun, s.remember w.semanticCache r.call.request r.text, none, rfl, fits_none _,
              ownedBy_none a, fun _ h => h.remember_left ha hfound r.text⟩
      · exact leavesOwn_idle hs hact

/-! The lookup, the thread and the run of another user. -/

/-- The point ids of two stored texts are different: `sha256` and `uuid5` do not
collide. -/
def NoCollision (cache : SemanticCache V) : Prop :=
  Function.Injective fun text => cache.uuid5 (cache.sha256 text)

theorem query_of_id {cache : SemanticCache V} (hid : NoCollision cache)
    {query query' response response' : String}
    (h : (cache.entry query response).id = (cache.entry query' response').id) : query = query' := by
  have htext : cache.modelVersion ++ ":" ++ query = cache.modelVersion ++ ":" ++ query' := hid h
  exact (String.append_right_inj _).1 htext

/-- An eligible entry was not stored for `a`, as far as either service knows. -/
theorem untainted_of_eligible (hid : NoCollision w.semanticCache) (h : Alike w a s t) {x : Call}
    (hs : CacheUnshared w a s x) (ht : CacheUnshared w a t x) {p : Point V}
    (hp : p ∈ s.cache.getD []) (he : w.semanticCache.eligible x.request.prompt p) :
    untainted a s t p := by
  have hleft := hs p hp he
  have hright : t.cachedFor p.id ≠ some a := by
    intro htainted
    obtain ⟨p', hp', hpid⟩ := h.right.noted _ _ htainted
    obtain ⟨query, response, rfl⟩ := h.left.entries p hp
    obtain ⟨query', response', rfl⟩ := h.right.entries p' hp'
    -- the same id is the same query, so the other entry is eligible too
    obtain rfl := query_of_id hid hpid
    refine ht _ hp' ?_ (hpid ▸ htainted)
    rwa [w.semanticCache.eligible_entry _ query' response' response]
  simp [untainted, hleft, hright]

theorem Alike.filter_eligible (hid : NoCollision w.semanticCache) (h : Alike w a s t) {x : Call}
    (hs : CacheUnshared w a s x) (ht : CacheUnshared w a t x) :
    (s.cache.getD []).filter (w.semanticCache.eligible x.request.prompt)
      = ((s.cache.getD []).filter (untainted a s t)).filter
          (w.semanticCache.eligible x.request.prompt) := by
  rw [List.filter_filter]
  refine List.filter_congr fun p hp => ?_
  cases he : w.semanticCache.eligible x.request.prompt p with
  | false => rfl
  | true => rw [untainted_of_eligible hid h hs ht hp he]; rfl

/-- The lookup of another user's prompt finds the same in both services. -/
theorem Alike.get_eq (hid : NoCollision w.semanticCache) (h : Alike w a s t) {x : Call}
    (hs : CacheUnshared w a s x) (ht : CacheUnshared w a t x) :
    w.semanticCache.get s.cache x.request.prompt = w.semanticCache.get t.cache x.request.prompt := by
  have hfilter : (s.cache.getD []).filter (w.semanticCache.eligible x.request.prompt)
      = (t.cache.getD []).filter (w.semanticCache.eligible x.request.prompt) := by
    rw [h.filter_eligible hid hs ht, h.entries, h.symm.filter_eligible hid ht hs, untainted_comm]
  have hcreated := h.created
  cases hsc : s.cache with
  | none =>
      cases htc : t.cache with
      | none => rfl
      | some points' => simp [hsc, htc] at hcreated
  | some points =>
      cases htc : t.cache with
      | none => simp [hsc, htc] at hcreated
      | some points' =>
          rw [hsc, htc] at hfilter
          exact congrArg some (w.semanticCache.lookup_congr hfilter)

/-- Another user starts on the same thread in both services. -/
theorem Alike.thread_eq (h : Alike w a s t) {x : Call} (hs : ThreadUnshared a s x)
    (ht : ThreadUnshared a t x) : t.thread x.request = s.thread x.request := by
  unfold ThreadUnshared ChatService.thread at hs ht
  unfold ChatService.thread
  split_ifs with hanon
  · rfl
  · rw [if_neg hanon] at hs ht
    rcases h.store (conversationOf x.request).threadId with heq | ⟨p, hp, hpa⟩ | ⟨p, hp, hpa⟩
    · exact heq.symm
    · exact absurd hpa (hs p hp)
    · exact absurd hpa (ht p hp)

theorem Alike.proceed_both (h : Alike w a s t) (n : ℕ) {r : Run} (hfound : s.cache.isSome)
    (huser : r.current.state.userId = some r.call.request.userId) :
    Alike w a (s.proceed n r) (t.proceed n r) :=
  (h.persist_both r).put_both n (fits_running (by rwa [cache_persist]) huser)

/-- **An action about a call of another user** sends the same in both services and
keeps them alike. -/
theorem Alike.handle_others (hid : NoCollision w.semanticCache) (h : Alike w a s t)
    {act act' : Action V} (hsame : SameBut a act act') (hact : ¬ OwnAction a s act)
    (hs : Guarded w a s act) (ht : Guarded w a t act') :
    (w.handle s act).1 = (w.handle t act').1 ∧
      Alike w a (w.handle s act).2 (w.handle t act').2 := by
  cases hsame with
  | request n x =>
      have hget := h.get_eq hid (hs hact) (ht hact)
      simp only [World.handle, ← hget]
      split
      · exact ⟨rfl, h.put_both n (fits_none s)⟩
      · exact ⟨rfl, h.put_both n (fits_none s)⟩
      · next hmiss => exact ⟨rfl, h.put_both n (fits_missed hmiss)⟩
  | enter n =>
      have hn := h.inFlight_eq hact
      simp only [World.handle, ← hn]
      split
      · next x hx =>
          have hne : x.request.userId ≠ a := userId_ne hx hact
          simp only [Guarded, ← hn, hx] at hs ht
          have hopen : ∀ config, t.openRun x config = s.openRun x config := by
            intro config
            unfold ChatService.openRun
            rw [h.thread_eq (hs hne) (ht hne)]
          split
          · exact ⟨rfl, h.put_both n (fits_none s)⟩
          · next config hconfig =>
              rw [hopen]
              exact ⟨rfl, h.proceed_both n ((h.left.slots n).found _ hx) rfl⟩
      · exact ⟨rfl, h⟩
  | superstep n o o' htools hfacts =>
      have hn := h.inFlight_eq hact
      simp only [World.handle, ← hn]
      split
      · next r hr =>
          have hne : r.call.request.userId ≠ a := userId_ne hr hact
          have huser := (h.left.slots n).user r hr
          split
          · exact ⟨rfl, h⟩
          · next node hnode =>
              rw [next_eq_of_others h.left h.right htools hfacts huser hne node]
              split
              · exact ⟨rfl, h.put_both n (fits_none s)⟩
              · next chunks r' hnext =>
                  obtain ⟨hcall, huser'⟩ := next_some hnext
                  refine ⟨rfl, h.proceed_both n ((h.left.slots n).found _ hr) ?_⟩
                  rw [huser', hcall, huser]
      · exact ⟨rfl, h⟩
  | finish n =>
      have hn := h.inFlight_eq hact
      simp only [World.handle, ← hn]
      split
      · next r hr =>
          split_ifs
          · exact ⟨rfl, h⟩
          · exact ⟨rfl, h.put_both n (fits_none s)⟩
          · exact ⟨rfl, (h.remember_both r.text).put_both n (fits_none _)⟩
      · exact ⟨rfl, h⟩

theorem ownAction_of_alike (h : Alike w a s t) {act act' : Action V} (hsame : SameBut a act act')
    (hact : OwnAction a s act) : OwnAction a t act' := by
  have hslot : ∀ n, OwnedBy a (s.inFlight n) → OwnedBy a (t.inFlight n) := by
    intro n ho
    rcases h.inFlight n with heq | ⟨-, ho'⟩
    · exact heq ▸ ho
    · exact ho'
  cases hsame with
  | request n x => exact hact
  | enter n => exact hslot n hact
  | superstep n o o' htools hfacts => exact hslot n hact
  | finish n => exact hslot n hact

/-- **One action of both histories.** -/
theorem Alike.handles (hid : NoCollision w.semanticCache) {s' t' : ChatService V}
    {act act' : Action V} {o o' : Option Sent} (h : Alike w a s t) (hsame : SameBut a act act')
    (hs : Guarded w a s act) (ht : Guarded w a t act') (hhs : w.Handles s act o s')
    (hht : w.Handles t act' o' t') :
    (∀ b, b ≠ a → sentTo b o = sentTo b o') ∧ Alike w a s' t' := by
  unfold World.Handles at hhs hht
  by_cases hact : OwnAction a s act
  · have hl := leavesOwn_handle h.left hact
    have hr := leavesOwn_handle h.right (ownAction_of_alike h hsame hact)
    rw [hhs] at hl
    rw [hht] at hr
    obtain ⟨s₁, phase, rfl, hfits, hown, halike⟩ := hl.state
    obtain ⟨t₁, phase', rfl, hfits', hown', halike'⟩ := hr.state
    have hslot : act'.slot = act.slot := by
      cases hsame <;> rfl
    have hnone : ∀ {b : String} {output : Option Sent}, b ≠ a →
        (∀ sent, output = some sent → sent.userId = a) → sentTo b output = none := by
      intro b output hb hsent
      refine Option.filter_eq_none_iff.2 fun sent hmem => ?_
      simp [hsent sent hmem, hb.symm]
    refine ⟨fun b hb => by rw [hnone hb hl.sent, hnone hb hr.sent], ?_⟩
    rw [hslot]
    exact (halike' _ (halike _ h).symm).symm.put_own act.slot hfits hfits' hown hown'
  · obtain ⟨hsent, halike⟩ := h.handle_others hid hsame hact hs ht
    rw [hhs, hht] at hsent halike
    exact ⟨fun b _ => by rw [show o = o' from hsent], halike⟩

end Actions

/-! ### Two histories -/

theorem repliesTo_eq {userId : String} {es fs : List (ChatEvent V)}
    (h : List.Forall₂ (fun e f => sentTo userId e.output = sentTo userId f.output) es fs) :
    repliesTo userId es = repliesTo userId fs := by
  induction h with
  | nil => rfl
  | cons hef hrest ih =>
      unfold repliesTo at ih ⊢
      rw [List.filterMap_cons, List.filterMap_cons, hef, ih]

/-- **When replies to others tell nothing about a user's facts.**  In two histories of
the same actions, which differ in the facts stored under `a` only and in which no
other user's call finds anything stored for `a`, every other user is sent the same. -/
theorem replies_eq_of_unshared {w : World V} (hid : NoCollision w.semanticCache) {a : String}
    {s s₁ s₂ : ChatService V} (hs : WellKept w s) {es fs : List (ChatEvent V)}
    (hes : Trace w.Handles s es s₁) (hfs : Trace w.Handles s fs s₂)
    (hsame : List.Forall₂ (SameBut a) (es.map Event.input) (fs.map Event.input))
    (hge : ∀ e ∈ es, Guarded w a e.before e.input) (hgf : ∀ f ∈ fs, Guarded w a f.before f.input)
    {b : String} (hb : b ≠ a) : repliesTo b es = repliesTo b fs := by
  rw [List.forall₂_map_left_iff, List.forall₂_map_right_iff] at hsame
  have hsent := Trace.lockstep (Alike w a) (SameBut a) (Guarded w a)
    (fun _ o o' => ∀ b, b ≠ a → sentTo b o = sentTo b o') (Alike.handles hid) (Alike.refl hs a) hes
    hfs hsame hge hgf
  exact repliesTo_eq (hsent.imp fun _ _ h => h b hb)

/-! ### Computed histories -/

/-- The events of a list of actions. -/
def World.handleAll (w : World V) : List (Action V) → ChatService V → List (ChatEvent V) × ChatService V
  | [], s => ([], s)
  | act :: acts, s =>
      let r := w.handle s act
      let rest := w.handleAll acts r.2
      (⟨s, act, r.1⟩ :: rest.1, rest.2)

theorem trace_handleAll (w : World V) (acts : List (Action V)) (s : ChatService V) :
    Trace w.Handles s (w.handleAll acts s).1 (w.handleAll acts s).2 := by
  induction acts generalizing s with
  | nil => exact .nil s
  | cons act acts ih => exact .cons rfl (ih _)

theorem input_handleAll (w : World V) (acts : List (Action V)) (s : ChatService V) :
    (w.handleAll acts s).1.map Event.input = acts := by
  induction acts generalizing s with
  | nil => rfl
  | cons act acts ih => exact congrArg _ (ih _)

/-- A call served to its end, if it takes no more than eight supersteps. -/
def served (n : ℕ) (x : Call) (o : Outside V) : List (Action V) :=
  [.request n x, .enter n] ++ List.replicate 8 (.superstep n o) ++ [.finish n]

/-- A deployment whose executor tells a system prompt with something remembered from
one without by its length. -/
def tellingWorld : World String where
  runtime := { Runtime.plain with
    encode := fun _ _ => some [0]
    encodes := fun _ _ => rfl }
  chat _ messages :=
    match messages with
    | .system prompt :: _ =>
        if prompt.utf8ByteSize ≤ (visionSystem Runtime.plain.manifest
            "CURRENT ACTIVE TASK: Who am I?" "").utf8ByteSize then ⟨["I do not know you."], []⟩
        else ⟨["Your code is 4711."], []⟩
    | _ => ⟨[], []⟩
  router _ _ := ⟨[], some ⟨"vision_detection", "low", [], "Answer the question."⟩⟩
  planner _ _ := ⟨[], none⟩
  extractor _ _ := ⟨[], some ⟨"A summary.", []⟩⟩
  critic _ _ := ⟨[], none⟩
  reflection _ _ := ⟨[], none⟩
  retriever := ⟨.exhaustive fun a b => if a = b then 1 else 0, id, id⟩
  semanticCache := {
    vectorStore := .exhaustive fun a b => if a = b then 1 else 0
    embed := id
    modelVersion := "gpt-4o"
    threshold := 23 / 25
    topK := 5
    rerankAlpha := 4 / 5
    lower := id
    sha256 := listedSha256.value
    uuid5 := listedUuid5.value }

/-- A request at the REST endpoint by a user with a stored configuration. -/
def ask (userId prompt : String) : Call where
  endpoint := .chatStream
  request := ⟨userId, "s1", prompt⟩
  providerHeader := none
  keyHeader := none
  userConfig := .stored (some "openai") none true

/-- No facts, and no tools. -/
def nothingKnown : Outside String := ⟨fun _ => none, fun _ => ""⟩

/-- The code that `alice` has told. -/
def aliceKnown : Outside String where
  facts collection :=
    if collection = "vision_detection" then
      some [⟨"fact_1", "code", [("document", .str "Fact: the code is 4711."),
        ("user_id", .str "alice")]⟩]
    else none
  tools _ := ""

/-- `alice` asks who she is, then `bob` asks something. -/
def aliceThenBob (bobPrompt : String) (o : Outside String) : List (Action String) :=
  served 0 (ask "alice" "Who am I?") o ++ served 1 (ask "bob" bobPrompt) o

theorem sameBut_superstep (n : ℕ) :
    SameBut "alice" (.superstep n aliceKnown) (.superstep n nothingKnown) := by
  refine .superstep n _ _ rfl fun collection => ?_
  change ((aliceKnown.facts collection).getD []).filter _ = []
  unfold aliceKnown
  dsimp only
  split_ifs <;> rfl

theorem sameBut_served (n : ℕ) (x : Call) :
    List.Forall₂ (SameBut "alice") (served n x aliceKnown) (served n x nothingKnown) := by
  have h := sameBut_superstep n
  exact .cons (.request n x) (.cons (.enter n) (.cons h (.cons h (.cons h (.cons h (.cons h
    (.cons h (.cons h (.cons h (.cons (.finish n) .nil))))))))))

theorem sameBut_aliceThenBob (bobPrompt : String) :
    List.Forall₂ (SameBut "alice") (aliceThenBob bobPrompt aliceKnown)
      (aliceThenBob bobPrompt nothingKnown) :=
  List.rel_append (sameBut_served _ _) (sameBut_served _ _)

theorem wellKept_fresh (w : World V) : WellKept w .fresh := by
  refine ⟨fun p hp => absurd hp List.not_mem_nil, fun id userId hid => ?_, fun n => fits_none _⟩
  exact absurd hid.symm (Option.some_ne_none _)

/-- The history of `aliceThenBob`. -/
def aliceThenBobEvents (bobPrompt : String) (o : Outside String) : List (ChatEvent String) :=
  (tellingWorld.handleAll (aliceThenBob bobPrompt o) .fresh).1

/-- Whether an action is guarded can be computed. -/
instance decidableGuarded (w : World V) (a : String) (s : ChatService V) :
    ∀ act : Action V, Decidable (Guarded w a s act)
  | .request _ x => inferInstanceAs (Decidable (x.request.userId ≠ a →
      ∀ p ∈ s.cache.getD [], w.semanticCache.eligible x.request.prompt p →
        s.cachedFor p.id ≠ some a))
  | .enter n =>
      match hn : s.inFlight n with
      | some (.missed x) =>
          decidable_of_iff (x.request.userId ≠ a → ∀ p ∈ (s.thread x.request).hosts, p.userId ≠ a)
            (by simp only [Guarded, hn, ThreadUnshared])
      | some (.running _) => .isTrue (by simp only [Guarded, hn])
      | none => .isTrue (by simp only [Guarded, hn])
  | .superstep _ _ => .isTrue trivial
  | .finish _ => .isTrue trivial

/-- `bob` asks something else than `alice` has: what he is sent is the same whatever
is stored under her. -/
theorem replies_eq_other_prompt :
    repliesTo "bob" (aliceThenBobEvents "Who is Ada?" aliceKnown)
      = repliesTo "bob" (aliceThenBobEvents "Who is Ada?" nothingKnown) := by
  have hsame := sameBut_aliceThenBob "Who is Ada?"
  rw [← input_handleAll tellingWorld (aliceThenBob _ aliceKnown) .fresh,
    ← input_handleAll tellingWorld (aliceThenBob _ nothingKnown) .fresh] at hsame
  exact replies_eq_of_unshared
    (fun _ _ h => listedSha256.value_injective (listedUuid5.value_injective h))
    (wellKept_fresh _) (trace_handleAll _ _ _) (trace_handleAll _ _ _) hsame
    (by decide +kernel) (by decide +kernel) (by decide)

/-- **A cached reply reveals a fact.**  `bob` asks what `alice` has asked before him;
what he is sent depends on what is stored under her. -/
theorem reply_reveals_fact :
    ∃ es fs s₁ s₂, Trace tellingWorld.Handles .fresh es s₁ ∧ Trace tellingWorld.Handles .fresh fs s₂ ∧
      List.Forall₂ (SameBut "alice") (es.map Event.input) (fs.map Event.input) ∧
      repliesTo "bob" es = [⟨"bob", ["data: Your code is 4711.\n\n"], false⟩] ∧
      repliesTo "bob" fs = [⟨"bob", ["data: I do not know you.\n\n"], false⟩] := by
  refine ⟨_, _, _, _, trace_handleAll tellingWorld (aliceThenBob "Who am I?" aliceKnown) .fresh,
    trace_handleAll tellingWorld (aliceThenBob "Who am I?" nothingKnown) .fresh, ?_,
    by decide +kernel, by decide +kernel⟩
  rw [input_handleAll, input_handleAll]
  exact sameBut_aliceThenBob _

end Server
end CognitiveEngine
