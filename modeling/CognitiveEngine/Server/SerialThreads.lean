/-
# Calls on one thread

Chat calls on one conversation run on one thread, each from the checkpoint it found when it
came in, and each writes its own checkpoint after every superstep; nothing keeps two of them
apart.  What the checkpointer has for a thread is still never a mixture:
`threads_serial` says that it is always what some of the calls, in the order they came in,
leave on a thread one after the other (`Graph.Thread`).  If no call comes in while another is
in flight on the thread, it is what all of them leave.  Otherwise calls can be lost.

So what is proved of the turns of a thread holds of the threads of the endpoints, however
the calls of other conversations lie in between.
-/

import CognitiveEngine.Graph.TurnPrompt
import CognitiveEngine.Server.Privacy
import CognitiveEngine.Server.Refinement

namespace CognitiveEngine
namespace Server

open CognitiveEngine.Graph Machine

deriving instance DecidableEq for ChatRequest

variable {V : Type}

/-- The request an action starts on a thread of the checkpointer, if it does. -/
def entered (s : ChatService V) : Action V → Option ChatRequest
  | .enter n =>
      match s.inFlight n with
      | some (.missed x) =>
          if x.config.isSome ∧ isAnonymous x.request.userId = false then some x.request else none
      | _ => none
  | _ => none

/-- The requests of a list that are on a thread. -/
def onThread (key : String) (requests : List ChatRequest) : List ChatRequest :=
  requests.filter fun q => (conversationOf q).threadId = key

/-- The requests a history starts on a thread, in order. -/
def requestsOn (key : String) (es : List (ChatEvent V)) : List ChatRequest :=
  onThread key (es.filterMap fun e => entered e.before e.input)

/-- No turn is in flight on a thread. -/
def IdleOn (key : String) (s : Service) : Prop :=
  ∀ n t, s.live n = some t → t.conversation.threadId ≠ key

/-- A call that comes in on a thread finds none in flight on it. -/
def StartsAlone (key : String) (e : ChatEvent V) : Prop :=
  onThread key (entered e.before e.input).toList ≠ [] → IdleOn key e.before.conversations

/-! ### One action -/

/-- **What one action does** to the checkpointer and the turns in flight. -/
inductive ServiceMove (rt : Runtime) (s : Service) : Option ChatRequest → Service → Prop
  | quiet {s' : Service} (hstore : s'.store = s.store)
      (hlive : ∀ n t, s'.live n = some t → s.live n = some t) : ServiceMove rt s none s'
  | superstep (n : ℕ) (t : LiveTurn) (c' : Config) (hn : s.live n = some t)
      (h : Step rt t.config c') :
      ServiceMove rt s none ⟨s.store.save { t with config := c' },
        Function.update s.live n (some { t with config := c' })⟩
  | enters (n : ℕ) (request : ChatRequest) :
      ServiceMove rt s (some request) ⟨s.store.save (s.store.openTurn request),
        Function.update s.live n (some (s.store.openTurn request))⟩

theorem ServiceMove.of_runs {rt : Runtime} {s s' : Service} (h : Service.Runs rt s s') :
    ServiceMove rt s none s' := by
  cases h with
  | superstep n t c' hn h => exact .superstep n t c' hn h
  | ends n =>
      refine .quiet rfl fun m t hm => ?_
      dsimp only at hm
      by_cases hmn : m = n
      · rw [hmn, Function.update_self] at hm
        cases hm
      · rwa [Function.update_of_ne hmn] at hm

theorem opened_of_entered {s : ChatService V} {act : Action V} (h : entered s act = none) :
    opened s act = none := by
  cases act with
  | enter n =>
      unfold entered at h
      unfold opened
      dsimp only at h ⊢
      rcases hslot : s.inFlight n with _ | x | r
      · rfl
      · rw [hslot] at h
        dsimp only at h ⊢
        split_ifs at h with hx
        rw [if_neg hx]
      · rfl
  | _ => rfl

/-- **Every action of the endpoints** does one of these. -/
theorem handle_moves (w : World V) (s : ChatService V) (act : Action V) :
    ServiceMove w.runtime s.conversations (entered s act) (w.handle s act).2.conversations := by
  cases hentered : entered s act with
  | none =>
      have hrefines := handle_refines w s act
      rw [opened_of_entered hentered] at hrefines
      cases hrefines with
      | idle h => exact .quiet (congrArg Service.store h) fun n t hn => h ▸ hn
      | runs h => exact .of_runs h
  | some request =>
      cases act with
      | enter n =>
          unfold entered at hentered
          dsimp only at hentered
          split at hentered
          · next x hx =>
              split_ifs at hentered with hcall
              obtain ⟨hconfig, ha⟩ := hcall
              obtain ⟨config, hconfig⟩ := Option.isSome_iff_exists.1 hconfig
              obtain rfl := Option.some.inj hentered
              have hturn : (s.openRun x config).turn = s.store.openTurn x.request := by
                simp [ChatService.openRun, Run.turn, ChatService.thread, ha, Checkpointer.openTurn]
              have hproceed := conversations_proceed s n (r := s.openRun x config) ha
              rw [hturn] at hproceed
              simp only [World.handle, hx, hconfig]
              rw [hproceed]
              exact .enters n x.request
          · cases hentered
      | _ => cases hentered

/-! ### What is on a thread -/

/-- What the checkpointer has for a thread is what some requests leave on it one after the
other, and so is what each turn in flight on it writes. -/
structure Serial (rt : Runtime) (key : String) (admits : List ChatRequest → Prop) (s : Service) :
    Prop where
  stored : ∃ requests, admits requests ∧ Thread rt requests (s.store key).state
  live : ∀ n t, s.live n = some t → t.conversation.threadId = key →
    ∃ requests request h, admits (requests ++ [request]) ∧ Thread rt requests t.thread.state ∧
      TurnHistory rt t.thread.state request (t.config :: h)

variable {rt : Runtime} {key : String} {admits : List ChatRequest → Prop} {s s' : Service}

theorem Serial.mono {admits' : List ChatRequest → Prop} (h : Serial rt key admits s)
    (hle : ∀ requests, admits requests → admits' requests) : Serial rt key admits' s := by
  obtain ⟨requests, hadmits, ht⟩ := h.stored
  refine ⟨⟨requests, hle _ hadmits, ht⟩, fun n t hn hkey => ?_⟩
  obtain ⟨requests, request, hist, hadmits, ht, hh⟩ := h.live n t hn hkey
  exact ⟨requests, request, hist, hle _ hadmits, ht, hh⟩

/-- A turn that is written under its thread id. -/
theorem Serial.save (n : ℕ) (t : LiveTurn)
    (hother : t.conversation.threadId ≠ key → Serial rt key admits s)
    (hothers : ∀ m t', m ≠ n → s.live m = some t' → t'.conversation.threadId = key →
      ∃ requests request h, admits (requests ++ [request]) ∧ Thread rt requests t'.thread.state ∧
        TurnHistory rt t'.thread.state request (t'.config :: h))
    (hturn : t.conversation.threadId = key → ∃ requests request h,
      admits (requests ++ [request]) ∧ Thread rt requests t.thread.state ∧
        TurnHistory rt t.thread.state request (t.config :: h)) :
    Serial rt key admits ⟨s.store.save t, Function.update s.live n (some t)⟩ := by
  refine ⟨?_, fun m t' hm hkey => ?_⟩
  · by_cases hkey : t.conversation.threadId = key
    · obtain ⟨requests, request, h, hadmits, ht, hh⟩ := hturn hkey
      have hstore : s.store.save t key = t.checkpoint := hkey ▸ Function.update_self ..
      have hthread : Thread rt (requests ++ [request]) (s.store.save t key).state := by
        rw [hstore]
        exact .turn ht hh
      exact ⟨requests ++ [request], hadmits, hthread⟩
    · have hstore : s.store.save t key = s.store key := Function.update_of_ne (Ne.symm hkey) ..
      obtain ⟨requests, hadmits, ht⟩ := (hother hkey).stored
      rw [← hstore] at ht
      exact ⟨requests, hadmits, ht⟩
  · dsimp only at hm
    by_cases hmn : m = n
    · rw [hmn, Function.update_self, Option.some_inj] at hm
      subst hm
      exact hturn hkey
    · rw [Function.update_of_ne hmn] at hm
      exact hothers m t' hmn hm hkey

/-- A move that starts nothing on the thread. -/
theorem Serial.move {request : Option ChatRequest} (h : Serial rt key admits s)
    (hm : ServiceMove rt s request s') (hnone : onThread key request.toList = []) :
    Serial rt key admits s' := by
  cases hm with
  | quiet hstore hlive =>
      refine ⟨by rw [hstore]; exact h.stored, fun n t hn hkey => ?_⟩
      exact h.live n t (hlive n t hn) hkey
  | superstep n t c' hn hstep =>
      refine .save n _ (fun _ => h) (fun m t' _ hm hkey => h.live m t' hm hkey) fun hkey => ?_
      obtain ⟨requests, request, hist, hadmits, ht, hh⟩ := h.live n t hn hkey
      exact ⟨requests, request, _, hadmits, ht, .next hh hstep⟩
  | enters n request =>
      refine .save n _ (fun _ => h) (fun m t' _ hm hkey => h.live m t' hm hkey) fun hkey => ?_
      have hne : onThread key [request] = [request] :=
        List.filter_cons_of_pos (decide_eq_true hkey)
      exact absurd (hne.symm.trans hnone) (List.cons_ne_nil _ _)

/-- A move that starts a request on the thread. -/
theorem Serial.enter {admits' : List ChatRequest → Prop} {request : ChatRequest}
    (h : Serial rt key admits s) (hm : ServiceMove rt s (some request) s')
    (hkey : (conversationOf request).threadId = key)
    (hnew : ∀ requests, admits requests → admits' (requests ++ [request]))
    (hold : (∀ requests, admits requests → admits' requests) ∨ IdleOn key s) :
    Serial rt key admits' s' := by
  cases hm with
  | enters n _ =>
      refine .save n _ (fun hne => absurd hkey hne) (fun m t' _ hm hkey' => ?_) fun _ => ?_
      · rcases hold with hle | hidle
        · exact (h.mono hle).live m t' hm hkey'
        · exact absurd hkey' (hidle m t' hm)
      · obtain ⟨requests, hadmits, ht⟩ := h.stored
        subst hkey
        exact ⟨requests, request, [], hnew _ hadmits, ht, .start rfl⟩

/-! ### Histories -/

theorem requestsOn_concat (key : String) (es : List (ChatEvent V)) (e : ChatEvent V) :
    requestsOn key (es ++ [e]) = requestsOn key es ++ onThread key (entered e.before e.input).toList := by
  rw [requestsOn, onThread, List.filterMap_append, List.filter_append, List.filterMap_cons]
  cases entered e.before e.input <;> rfl

theorem serial_fresh (rt : Runtime) (key : String) {admits : List ChatRequest → Prop}
    (hnil : admits []) : Serial rt key admits (ChatService.fresh : ChatService V).conversations :=
  ⟨⟨[], hnil, .fresh⟩, fun _ _ hn _ => by cases hn⟩

/-- **One action more**, with a relation between the requests a thread has and those that
were started on it. -/
theorem Serial.handle {w : World V} {s s' : ChatService V} {act : Action V} {sent : Option Sent}
    {R : List ChatRequest → List ChatRequest → Prop} {requests : List ChatRequest}
    (hnew : ∀ xs request, R xs requests → R (xs ++ [request]) (requests ++ [request]))
    (hold : (∀ xs request, R xs requests → R xs (requests ++ [request])) ∨
      (onThread key (entered s act).toList ≠ [] → IdleOn key s.conversations))
    (h : Serial w.runtime key (R · requests) s.conversations) (hstep : w.Handles s act sent s') :
    Serial w.runtime key (R · (requests ++ onThread key (entered s act).toList))
      s'.conversations := by
  have hafter : (w.handle s act).2 = s' := congrArg Prod.snd hstep
  have hmove := handle_moves w s act
  rw [hafter] at hmove
  cases hentered : entered s act with
  | none =>
      rw [hentered] at hmove
      rw [Option.toList_none, onThread, List.filter_nil, List.append_nil]
      exact h.move hmove rfl
  | some request =>
      rw [hentered] at hmove hold
      by_cases hkey : (conversationOf request).threadId = key
      · have hstarts : onThread key (some request).toList = [request] :=
          List.filter_cons_of_pos (decide_eq_true hkey)
        rw [hstarts] at hold ⊢
        refine h.enter hmove hkey (fun xs => hnew xs request) ?_
        exact hold.imp (fun hle xs => hle xs request) fun hidle => hidle (List.cons_ne_nil _ _)
      · have hnone : onThread key (some request).toList = [] :=
          List.filter_cons_of_neg (by simpa using hkey)
        rw [hnone, List.append_nil]
        exact h.move hmove hnone

/-- **Threads are serial.**  In every history of the endpoints, what the checkpointer has for
a thread is what some of the calls started on it leave one after the other, in the order they
came in; it is what all of them leave, if none came in while another was in flight there. -/
theorem threads_serial {w : World V} {es : List (ChatEvent V)} {s : ChatService V}
    (ht : Trace w.Handles .fresh es s) (key : String) :
    (∃ served, served.Sublist (requestsOn key es) ∧
      Thread w.runtime served (s.store key).state) ∧
    ((∀ e ∈ es, StartsAlone key e) → Thread w.runtime (requestsOn key es) (s.store key).state) := by
  constructor
  · have hserial : Serial w.runtime key (·.Sublist (requestsOn key ([] ++ es))) s.conversations := by
      refine ht.history (P := fun es s =>
        Serial w.runtime key (·.Sublist (requestsOn key es)) s.conversations)
        (fun hs hstep => ?_) (serial_fresh _ _ (List.Sublist.refl _))
      rw [requestsOn_concat]
      exact hs.handle (fun xs request hsub => hsub.append (List.Sublist.refl _))
        (.inl fun xs request hsub => hsub.trans (List.sublist_append_left _ _)) hstep
    exact hserial.stored
  · intro halone
    have hserial : (∀ e ∈ [] ++ es, StartsAlone key e) →
        Serial w.runtime key (· = requestsOn key ([] ++ es)) s.conversations := by
      refine ht.history (P := fun es s => (∀ e ∈ es, StartsAlone key e) →
        Serial w.runtime key (· = requestsOn key es) s.conversations)
        (fun hs hstep halone => ?_) fun _ => serial_fresh _ _ rfl
      obtain ⟨hbefore, hlast⟩ := List.forall_mem_append.1 halone
      rw [requestsOn_concat]
      exact (hs hbefore).handle (R := (· = ·)) (fun xs request heq => by rw [heq])
        (.inr (hlast _ (List.mem_singleton_self _))) hstep
    obtain ⟨requests, heq, hthread⟩ := (hserial halone).stored
    exact heq ▸ hthread

/-! ### Calls one after the other -/

/-- An action leaves the slots of other calls alone. -/
theorem inFlight_handle (w : World V) (s : ChatService V) (act : Action V) {m : ℕ}
    (hm : act.slot ≠ m) : (w.handle s act).2.inFlight m = s.inFlight m := by
  have hput (s : ChatService V) (n : ℕ) (phase : Option Phase) (hn : n ≠ m) :
      (s.put n phase).inFlight m = s.inFlight m := Function.update_of_ne (Ne.symm hn) ..
  have hproceed (s : ChatService V) (n : ℕ) (r : Run) (hn : n ≠ m) :
      (s.proceed n r).inFlight m = s.inFlight m := by
    rw [ChatService.proceed, hput _ _ _ hn, ChatService.persist]
    split_ifs <;> rfl
  cases act with
  | request n x =>
      simp only [World.handle]
      split <;> exact hput s n _ hm
  | enter n =>
      simp only [World.handle]
      split
      · split
        · exact hput s n _ hm
        · exact hproceed s n _ hm
      · rfl
  | superstep n o =>
      simp only [World.handle]
      split
      · split
        · rfl
        · split
          · exact hput s n _ hm
          · exact hproceed s n _ hm
      · rfl
  | finish n =>
      simp only [World.handle]
      split
      · split_ifs
        · rfl
        · exact hput s n _ hm
        · exact hput _ n _ hm
      · rfl

/-- A slot that no action has been about is free. -/
theorem inFlight_of_trace {w : World V} {es : List (ChatEvent V)} {s : ChatService V}
    (ht : Trace w.Handles .fresh es s) {m : ℕ} (hm : ∀ e ∈ es, e.input.slot ≠ m) :
    s.inFlight m = none := by
  have hfree : (∀ e ∈ [] ++ es, e.input.slot ≠ m) → s.inFlight m = none := by
    refine ht.history (P := fun es s => (∀ e ∈ es, e.input.slot ≠ m) → s.inFlight m = none)
      (fun {es s s' act sent} hs hstep hall => ?_) fun _ => rfl
    obtain ⟨hbefore, hlast⟩ := List.forall_mem_append.1 hall
    have hafter : (w.handle s act).2 = s' := congrArg Prod.snd hstep
    rw [← hafter, inFlight_handle w s act (hlast _ (List.mem_singleton_self _))]
    exact hs hbefore
  exact hfree hm

/-- A check of the slots in use that says whether a call starts alone. -/
def startsAloneBelow (N : ℕ) (key : String) (e : ChatEvent V) : Bool :=
  (onThread key (entered e.before e.input).toList).isEmpty ||
    (List.range N).all fun n =>
      (e.before.conversations.live n).all fun t => t.conversation.threadId ≠ key

theorem startsAlone_of_check {w : World V} {es : List (ChatEvent V)} {s : ChatService V}
    (ht : Trace w.Handles .fresh es s) {key : String} {N : ℕ}
    (hslots : ∀ e ∈ es, e.input.slot < N)
    (hcheck : es.all (startsAloneBelow N key) = true) : ∀ e ∈ es, StartsAlone key e := by
  intro e he hne n t hn
  have hbelow := List.all_eq_true.1 hcheck e he
  rw [startsAloneBelow, Bool.or_eq_true, List.isEmpty_iff, List.all_eq_true] at hbelow
  by_cases hlt : n < N
  · have hall := (hbelow.resolve_left hne) n (List.mem_range.2 hlt)
    rw [hn] at hall
    exact of_decide_eq_true hall
  · obtain ⟨before, after, rfl⟩ := List.append_of_mem he
    have hfree := inFlight_of_trace ht.split.1 (m := n) fun x hx => by
      have hx' := hslots x (List.mem_append_left _ hx)
      omega
    simp [ChatService.conversations, hfree] at hn

/-- Alice asks twice, and bob in between. -/
def threeCalls : List (Action String) :=
  served 0 (ask "alice" "Who am I?") aliceKnown ++ [.request 1 (ask "bob" "Who is Ada?")] ++
    served 2 (ask "alice" "Who was I?") aliceKnown ++ [.enter 1, .superstep 1 aliceKnown]

/-- Both of alice's turns are on her thread. -/
theorem threeCalls_serial :
    Thread tellingWorld.runtime [⟨"alice", "s1", "Who am I?"⟩, ⟨"alice", "s1", "Who was I?"⟩]
      ((tellingWorld.handleAll threeCalls .fresh).2.store "alice_s1").state := by
  have ht := trace_handleAll tellingWorld threeCalls .fresh
  have hrequests : (requestsOn "alice_s1" (tellingWorld.handleAll threeCalls .fresh).1)
      = [⟨"alice", "s1", "Who am I?"⟩, ⟨"alice", "s1", "Who was I?"⟩] := by
    decide +kernel
  rw [← hrequests]
  exact (threads_serial ht "alice_s1").2
    (startsAlone_of_check (N := 3) ht (by decide +kernel) (by decide +kernel))

/-- A second turn on a thread, begun and ended while the first is in flight: when the first
goes on, nothing is left of it. -/
example :
    let acts : List (Action String) :=
      [.request 0 (ask "alice" "Who am I?"), .enter 0] ++
        served 1 (ask "alice" "Who was I?") aliceKnown ++ [.superstep 0 aliceKnown]
    ((tellingWorld.handleAll acts .fresh).2.store "alice_s1").state.messages.messages.map
      Message.content = ["Who am I?"] := by
  decide +kernel

end Server
end CognitiveEngine
