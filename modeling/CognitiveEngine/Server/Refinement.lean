/-
# The endpoints as a service of conversations

The handlers of `CognitiveEngine.Server.Chat` are one way to run the service of
`CognitiveEngine.Server.Conversations`: `conversations` forgets the cache and the
calls without a checkpointer, and `handle_refines` says that every action of the
endpoints is then a move of a turn in flight, a request that comes in, or nothing.

So every history of the endpoints is a run of the service (`history_refines`), and what
holds of the runs holds of the histories: requests whose conversations do not cross
read their own messages only (`reads_own_of_history`).
-/

import CognitiveEngine.Server.Chat

namespace CognitiveEngine
namespace Server

open CognitiveEngine.Graph Machine

variable {V : Type}

/-- The turn of a call in flight that runs with the checkpointer. -/
def Phase.live? : Phase → Option LiveTurn
  | .missed _ => none
  | .running r => if isAnonymous r.call.request.userId then none else some r.turn

/-- The checkpointer and the turns in flight of the endpoints. -/
def ChatService.conversations (s : ChatService V) : Service :=
  ⟨s.store, fun n => (s.inFlight n).bind Phase.live?⟩

/-- A slot written is a slot of the service written. -/
theorem conversations_put (s : ChatService V) (n : ℕ) (phase : Option Phase) :
    (s.put n phase).conversations
      = ⟨s.store, Function.update s.conversations.live n (phase.bind Phase.live?)⟩ := by
  have hlive : (fun m => (Function.update s.inFlight n phase m).bind Phase.live?)
      = Function.update s.conversations.live n (phase.bind Phase.live?) := by
    funext m
    by_cases hm : m = n
    · rw [hm, Function.update_self, Function.update_self]
    · rw [Function.update_of_ne hm, Function.update_of_ne hm]
      rfl
  exact congrArg (Service.mk s.store) hlive

/-- A slot that holds no turn with a checkpointer any more. -/
theorem runs_put {rt : Runtime} (s : ChatService V) (n : ℕ) {phase : Option Phase}
    (hphase : phase.bind Phase.live? = none) :
    Service.Runs rt s.conversations (s.put n phase).conversations := by
  rw [conversations_put, hphase]
  exact .ends n

/-- A run that goes on writes its checkpoint and its slot; an anonymous one has
neither. -/
theorem conversations_proceed (s : ChatService V) (n : ℕ) {r : Run}
    (ha : isAnonymous r.call.request.userId = false) :
    (s.proceed n r).conversations
      = ⟨s.store.save r.turn, Function.update s.conversations.live n (some r.turn)⟩ := by
  have hpersist : s.persist r = { s with store := s.store.save r.turn } := by
    simp [ChatService.persist, ha]
  rw [ChatService.proceed, hpersist, conversations_put]
  simp only [Option.bind_some, Phase.live?, ha, Bool.false_eq_true, if_false]
  rfl

theorem runs_proceed_anonymous {rt : Runtime} (s : ChatService V) (n : ℕ) {r : Run}
    (ha : isAnonymous r.call.request.userId = true) :
    Service.Runs rt s.conversations (s.proceed n r).conversations := by
  have hpersist : s.persist r = s := by
    simp [ChatService.persist, ha]
  rw [ChatService.proceed, hpersist]
  exact runs_put s n (by simp [Phase.live?, ha])

/-- The request an action starts on a thread of the checkpointer, if it does, and what
it reads there. -/
def opened (s : ChatService V) : Action V → Option (Incoming × List (Message × Option Conversation))
  | .enter n =>
      match s.inFlight n with
      | some (.missed x) =>
          if x.config.isSome ∧ isAnonymous x.request.userId = false then
            some (.chat x.endpoint x.request,
              (s.store (conversationOf x.request).threadId).authored)
          else none
      | _ => none
  | _ => none

/-- What an action of the endpoints is to the service of conversations. -/
inductive Refines (rt : Runtime) (s s' : Service) :
    Option (Incoming × List (Message × Option Conversation)) → Prop
  | idle (h : s' = s) : Refines rt s s' none
  | runs (h : Service.Runs rt s s') : Refines rt s s' none
  | receives {i : Incoming} {reads : List (Message × Option Conversation)}
      (h : s.Receives i reads s') : Refines rt s s' (some (i, reads))

/-- **The endpoints refine the service of conversations**, action by action. -/
theorem handle_refines (w : World V) (s : ChatService V) (act : Action V) :
    Refines w.runtime s.conversations (w.handle s act).2.conversations (opened s act) := by
  cases act with
  | request n x =>
      simp only [World.handle]
      split <;> exact .runs (runs_put s n rfl)
  | enter n =>
      rcases hx : s.inFlight n with _ | x | r <;> simp only [World.handle, opened, hx]
      · exact .idle rfl
      · cases hconfig : x.config with
        | none => exact .runs (runs_put s n rfl)
        | some config =>
            cases ha : isAnonymous x.request.userId with
            | true => exact .runs (runs_proceed_anonymous s n ha)
            | false =>
                have hturn : (s.openRun x config).turn = s.store.openTurn x.request := by
                  simp [ChatService.openRun, Run.turn, ChatService.thread, ha,
                    Checkpointer.openTurn]
                have hproceed := conversations_proceed s n (r := s.openRun x config) ha
                rw [hturn] at hproceed
                change Refines _ _ (s.proceed n (s.openRun x config)).conversations (some _)
                rw [hproceed]
                exact .receives (.turn s.conversations n x.endpoint x.request ha)
      · exact .idle rfl
  | superstep n o =>
      simp only [World.handle]
      split
      · next r hr =>
          split
          · exact .idle rfl
          · next node hnode =>
              split
              · exact .runs (runs_put s n rfl)
              · next chunks r' hnext =>
                  obtain ⟨c, hc, rfl⟩ := Option.map_eq_some_iff.1 (congrArg Prod.snd hnext)
                  change Refines _ _ (s.proceed n (r.advance _ c)).conversations none
                  cases ha : isAnonymous r.call.request.userId with
                  | true => exact .runs (runs_proceed_anonymous s n ha)
                  | false =>
                      have hlive : s.conversations.live n = some r.turn := by
                        simp [ChatService.conversations, hr, Phase.live?, ha]
                      have hstep : Step w.runtime r.turn.config c := by
                        have h := step_of_superstep hc
                        rw [← hnode] at h
                        exact h
                      rw [conversations_proceed s n (r := r.advance _ c) ha]
                      exact .runs (.superstep n r.turn c hlive hstep)
      · exact .idle rfl
  | finish n =>
      simp only [World.handle]
      split
      · split_ifs
        · exact .idle rfl
        · exact .runs (runs_put s n rfl)
        · exact .runs (runs_put (s.remember _ _ _) n rfl)
      · exact .idle rfl

/-! ### Histories -/

/-- A run of the service that ends with turns in flight going on. -/
def Service.Leads (rt : Runtime) (s : Service)
    (fs : List (Incoming × List (Message × Option Conversation))) (s' : Service) : Prop :=
  ∃ es s₁, Trace (Service.Serves rt) s es s₁ ∧ Relation.ReflTransGen (Service.Runs rt) s₁ s' ∧
    es.map (fun e => (e.input, e.output)) = fs

/-- A turn that goes on before a run is part of the run. -/
theorem Service.Leads.of_runs {rt : Runtime} {s s₁ s' : Service}
    {fs : List (Incoming × List (Message × Option Conversation))} (h : Service.Runs rt s s₁)
    (hl : s₁.Leads rt fs s') : s.Leads rt fs s' := by
  obtain ⟨es, s₂, ht, hrest, hes⟩ := hl
  cases ht with
  | nil => exact ⟨[], s, .nil s, .head h hrest, hes⟩
  | @cons _ s₃ _ i o es hstep ht =>
      obtain ⟨s₄, hruns, hreceives⟩ := hstep
      exact ⟨_, s₂, .cons ⟨s₄, .head h hruns, hreceives⟩ ht, hrest, hes⟩

/-- What comes in first is served before the rest. -/
theorem Service.Leads.of_receives {rt : Runtime} {s s₁ s' : Service} {i : Incoming}
    {reads : List (Message × Option Conversation)}
    {fs : List (Incoming × List (Message × Option Conversation))} (h : s.Receives i reads s₁)
    (hl : s₁.Leads rt fs s') : s.Leads rt ((i, reads) :: fs) s' := by
  obtain ⟨es, s₂, ht, hrest, hes⟩ := hl
  exact ⟨_, s₂, .cons ⟨s, .refl, h⟩ ht, hrest, by rw [List.map_cons, hes]⟩

/-- **Every history of the endpoints is a run of the service** on the requests it
starts on a thread, which read there what they read in the history. -/
theorem history_refines {w : World V} {s s' : ChatService V} {es : List (ChatEvent V)}
    (h : Trace w.Handles s es s') :
    s.conversations.Leads w.runtime (es.filterMap fun e => opened e.before e.input)
      s'.conversations := by
  induction h with
  | nil s => exact ⟨[], _, .nil _, .refl, rfl⟩
  | @cons s s₁ s' act sent es hstep _ ih =>
      have hrefines := handle_refines w s act
      rw [show w.handle s act = (sent, s₁) from hstep] at hrefines
      rw [List.filterMap_cons]
      revert hrefines
      generalize opened s act = found
      rintro (heq | hruns | hreceives)
      · rw [← heq]
        exact ih
      · exact ih.of_runs hruns
      · exact ih.of_receives hreceives

/-- **Requests whose conversations do not cross read their own messages.**  In a
history of the endpoints in which no request is started on the thread of an earlier
one's conversation other than its own, everything read at a start was written for the
conversation that reads it. -/
theorem reads_own_of_history {w : World V} {s : ChatService V} {es : List (ChatEvent V)}
    (h : Trace w.Handles .fresh es s)
    (hpw : (es.filterMap fun e => opened e.before e.input).Pairwise fun a b => ¬ a.1.Exposes b.1) :
    ∀ p ∈ es.filterMap (fun e => opened e.before e.input), ∀ a ∈ p.2,
      a.2 = some p.1.conversation := by
  obtain ⟨fs, s₁, ht, -, hfs⟩ := history_refines h
  have hinputs : fs.map Event.input
      = (es.filterMap fun e => opened e.before e.input).map Prod.fst := by
    rw [← hfs, List.map_map]
    rfl
  have hown : ∀ f ∈ fs, ReadsOwn f := by
    refine readsOwn_of_trace (confined_fresh fun _ => False) ht (fun _ _ _ _ hq => hq.elim) ?_
    rw [hinputs]
    exact List.pairwise_map.2 hpw
  rw [← hfs]
  intro p hp a ha
  obtain ⟨f, hf, rfl⟩ := List.mem_map.1 hp
  exact hown f hf a ha

end Server
end CognitiveEngine
