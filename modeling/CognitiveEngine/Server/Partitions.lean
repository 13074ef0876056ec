/-
# The collection a fact ends up in

The supervisor's `target_agent` is any text.  It becomes `current_domain`, the routers
mend it for themselves only, and at the end of the run it is published with the
extraction task, whose worker takes it for the name of a collection.
`run_pruning_policy` sweeps three collections, those of the executors' lanes.

`published_in_partition_iff` says for which answers of the supervisor the facts of a
turn are stored in one of these.
-/

import CognitiveEngine.Graph.DomainIsolation
import CognitiveEngine.Graph.TurnPrompt
import CognitiveEngine.Memory.Pruning
import CognitiveEngine.Memory.Worker
import CognitiveEngine.Server.StreamEvents

namespace CognitiveEngine
namespace Server

open CognitiveEngine.Graph CognitiveEngine.Machine CognitiveEngine.Memory

variable {C V : Type}

/-! ### The domain of a run -/

/-- The domain `node_supervisor_router` returns for the answer of its structured call. -/
def decidedDomain : Option SupervisorRouterOutput → String
  | some decision => decision.targetAgent
  | none => "general_memory"

/-- The answer the supervisor got in a run; `none` when its structured call raised. -/
def SupervisorAnswer (rt : Runtime) (h : List Config) (answer : Option SupervisorRouterOutput) :
    Prop :=
  ∃ t ∈ steps h, t.1.next = some .supervisorRouter ∧
    ∃ env last, t.1.state.messages.last? = some last ∧ step rt env t.1 = .ok t.2 ∧
      (env.router (getLlmInstance 1 (some env.config)) (supervisorPrompt rt last)).output = answer

/-- The supervisor leaves its decision in `current_domain`. -/
theorem currentDomain_of_step {rt : Runtime} {env : Env} {c c' : Config} {last : Message}
    (hnext : c.next = some .supervisorRouter) (hlast : c.state.messages.last? = some last)
    (hstep : step rt env c = .ok c') :
    c'.state.currentDomain = some (decidedDomain
      (env.router (getLlmInstance 1 (some env.config)) (supervisorPrompt rt last)).output) := by
  obtain ⟨next, s⟩ := c
  obtain rfl : next = some .supervisorRouter := hnext
  obtain ⟨u, hu, nx, -, rfl⟩ := step_eq_ok_iff.1 hstep
  obtain ⟨last', hlast', hu⟩ := bind_eq_ok_iff.1 hu
  rw [lastMessage_eq_ok_iff] at hlast'
  obtain rfl : last = last' := Option.some.inj (hlast.symm.trans hlast')
  obtain rfl := Except.ok.inj hu
  cases (env.router (getLlmInstance 1 (some env.config)) (supervisorPrompt rt last)).output <;> rfl

/-- The supervisor is only run at the start of a turn. -/
theorem next_ne_supervisorRouter {rt : Runtime} {c c' : Config} (h : Transition rt c c') :
    c'.next ≠ some .supervisorRouter := by
  cases h with
  | supervise s domain complexity =>
      by_cases hlow : complexity = "low" <;> simp [hlow]
  | plan | initDirect | dispatch | conclude | track | callTools | extract | criticize | rework
  | exhaust | accept | dismiss | advance | finish | synthesize => simp

/-- No other node touches `current_domain`. -/
theorem currentDomain_of_transition {rt : Runtime} {c c' : Config} (h : Transition rt c c')
    (hnext : c.next ≠ some .supervisorRouter) :
    c'.state.currentDomain = c.state.currentDomain := by
  cases h with
  | supervise => exact absurd rfl hnext
  | plan | initDirect | dispatch | conclude | track | callTools | extract | criticize | rework
  | exhaust | accept | dismiss | advance | finish | synthesize => rfl

/-- **A run keeps the domain the supervisor decided on.** -/
theorem currentDomain_of_answer {rt : Runtime} {thread : AgentState} {request : ChatRequest}
    {c : Config} {h : List Config} (hh : TurnHistory rt thread request (c :: h)) :
    (c.next = some .supervisorRouter ∧ h = []) ∨
      (c.next ≠ some .supervisorRouter ∧ ∀ answer, SupervisorAnswer rt (c :: h) answer →
        c.state.currentDomain = some (decidedDomain answer)) := by
  refine hh.rec_head (P := fun c h => (c.next = some .supervisorRouter ∧ h = []) ∨
    (c.next ≠ some .supervisorRouter ∧ ∀ answer, SupervisorAnswer rt (c :: h) answer →
      c.state.currentDomain = some (decidedDomain answer))) ?_ ?_
  · rintro c rfl
    exact .inl ⟨rfl, rfl⟩
  · intro c c' h _ hc hstep
    refine .inr ⟨next_ne_supervisorRouter hstep.transition, ?_⟩
    rintro answer ⟨t, ht, hnext, env, last, hlast, hok, rfl⟩
    rw [steps_cons_cons, List.mem_cons] at ht
    rcases ht with rfl | ht
    · exact currentDomain_of_step hnext hlast hok
    · rcases hc with ⟨-, rfl⟩ | ⟨hne, hkept⟩
      · exact absurd ht List.not_mem_nil
      · rw [currentDomain_of_transition hstep.transition hne]
        exact hkept _ ⟨t, ht, hnext, env, last, hlast, hok, rfl⟩

/-! ### What is published -/

/-- The output of a run in its final event. -/
def finalOutput (c : Config) : FinalOutput := ⟨c.state.messages.messages, c.state.currentDomain⟩

/-- A domain heard of in the final event stays. -/
theorem hearAll_domain {thread : Option String} {domain : String} {p : Progress}
    {events : List (GraphEvent C)}
    (h : ∀ output, .chainEnd "compiled_graph" output ∈ events →
      output.currentDomain = some domain)
    (hp : p.finalMessages ≠ [] → p.domain = domain) :
    (p.hearAll thread events).2.finalMessages ≠ [] →
      (p.hearAll thread events).2.domain = domain := by
  induction events generalizing p with
  | nil => exact hp
  | cons event events ih =>
      refine ih (fun output houtput => h output (List.mem_cons_of_mem _ houtput)) ?_
      cases event with
      | chatModelStream node content =>
          by_cases hsilent : node = "supervisor_router" ∨ content = "" <;>
            simpa [Progress.hear, hsilent] using hp
      | chainEnd name output =>
          by_cases hname : name = "compiled_graph"
          · subst hname
            intro _
            simp [h output List.mem_cons_self]
          · simpa [Progress.hear, hname] using hp
      | other | checkpoint => exact hp

variable {cache : SemanticCache V} {x : Call} {e : Encounter C V}

/-- What a call publishes, it publishes for the domain its loop has heard of. -/
theorem publish_mem_serve {q : QueueMessage} (h : .publish q ∈ (serve cache x e).1) :
    (progress x e).finalMessages ≠ [] ∧
      q = ⟨x.request.userId, x.request.sessionId,
        firstTruthy (some (progress x e).domain) (some "general_memory")⟩ := by
  have hloop : (.publish q : Deed C) ∉ loopDeeds x e := fun h => loopDeeds_ofLoop x e _ h
  have hpublication : .publish q ∈ x.publication (C := C) (progress x e) →
      (progress x e).finalMessages ≠ [] ∧
        q = ⟨x.request.userId, x.request.sessionId,
          firstTruthy (some (progress x e).domain) (some "general_memory")⟩ := by
    intro hq
    unfold Call.publication at hq
    split at hq
    · next hpublishes =>
        rw [Bool.and_eq_true] at hpublishes
        refine ⟨fun hnil => ?_, Deed.publish.inj (List.mem_singleton.1 hq)⟩
        rw [hnil] at hpublishes
        exact absurd hpublishes.1 (by decide)
    · exact absurd hq List.not_mem_nil
  rcases serve_cases cache x e with ⟨-, heq⟩ | ⟨cachedReply, -, heq⟩ | ⟨-, -, hdeeds⟩
  · rw [heq, List.mem_append, or_iff_right hloop] at h
    rcases mem_finish cache x e h with hpublish | hcache | ⟨receipt, hsend⟩
    · exact hpublication hpublish
    · exact absurd hcache (by simp)
    · exact absurd hsend (by simp)
  · rw [heq, List.mem_singleton] at h
    exact absurd h (by simp)
  · exact absurd (hdeeds.subset h) hloop

/-! ### Partitions -/

/-- The policy sweeps the collection, and it is that of an executor's lane. -/
def InPartition (collection : String) : Prop :=
  collection ∈ targetCollections ∧ ∃ l : Lane, l.name = collection

/-- The body of a message of the extraction queue. -/
def payloadOf (q : QueueMessage) : Json :=
  .obj [("codename_process", .str "FactExtractionProcess"), ("user_id", .str q.userId),
    ("session_id", .str q.sessionId),
    ("target_rag_domain", (q.targetRagDomain.map Json.str).getD .null)]

/-- **A message keeps its facts in the partitions:** the domain in it is one of them, and
so is every collection a delivery of it writes into. -/
def WritesInPartition (store : MemoryStore V) (q : QueueMessage) : Prop :=
  (∃ domain ∈ q.targetRagDomain, InPartition domain) ∧
    ∀ o : Memory.Outside, o.body = some (payloadOf q) →
      ∀ w ∈ (o.processMessage store).1.writes, InPartition w.1

/-- The lanes' collections are those that are swept. -/
theorem inPartition_iff {collection : String} : InPartition collection ↔ collection ∈ laneNames := by
  constructor
  · rintro ⟨-, l, rfl⟩
    exact l.name_mem_laneNames
  · intro h
    obtain ⟨l, rfl⟩ := exists_lane_of_mem_laneNames h
    refine ⟨?_, l, rfl⟩
    cases l <;> decide

/-- **A delivery writes into the collection its message names.** -/
theorem collection_of_write {store : MemoryStore V} {q : QueueMessage} {domain : String}
    (hq : q.targetRagDomain = some domain) {o : Memory.Outside} (hbody : o.body = some (payloadOf q))
    {w : String × Point V} (hw : w ∈ (o.processMessage store).1.writes) : w.1 = domain := by
  rcases o.processMessage_cases store with ⟨-, -, heq⟩ | ⟨-, -, heq⟩ |
    ⟨userId, target, messages, hinput, -, heq⟩
  · rw [heq] at hw
    exact absurd hw List.not_mem_nil
  · rw [heq] at hw
    exact absurd hw List.not_mem_nil
  · have htarget : target = .str domain := by
      unfold Memory.Outside.workerInput at hinput
      rw [hbody, payloadOf] at hinput
      dsimp only at hinput
      split at hinput
      · rw [Option.some.injEq, Prod.mk.injEq, Prod.mk.injEq] at hinput
        rw [← hinput.2.1, hq]
        rfl
      · exact absurd hinput nofun
    rw [heq, htarget] at hw
    dsimp only [Memory.Outside.processExtractionTask] at hw
    split at hw
    · rcases (o.mem_addFacts store).1 hw with hnil | ⟨n, item, -, -, rfl⟩
      · exact absurd hnil List.not_mem_nil
      · rfl
    · exact absurd hw List.not_mem_nil

theorem general_mem_laneNames : "general_memory" ∈ laneNames := List.mem_cons_self

/-- The facts of a message with a domain stay in the partitions when the domain does. -/
theorem writesInPartition_iff {store : MemoryStore V} {q : QueueMessage} {domain : String}
    (hq : q.targetRagDomain = firstTruthy (some domain) (some "general_memory")) :
    WritesInPartition store q ↔ (if domain = "" then "general_memory" else domain) ∈ laneNames := by
  have htarget : q.targetRagDomain = some (if domain = "" then "general_memory" else domain) := by
    rw [hq, firstTruthy]
    split <;> rfl
  constructor
  · rintro ⟨⟨domain', hdomain', hin⟩, -⟩
    rw [htarget, Option.mem_def, Option.some.injEq] at hdomain'
    rw [hdomain']
    exact inPartition_iff.1 hin
  · intro hin
    refine ⟨⟨_, htarget, inPartition_iff.2 hin⟩, fun o hbody w hw => ?_⟩
    rw [collection_of_write htarget hbody hw]
    exact inPartition_iff.2 hin

/-- **When stored facts stay within the swept partitions.**  For whatever is published
after a run of the graph: exactly when the supervisor's structured call raised, or its
`target_agent` is the name of a lane or the empty text. -/
theorem published_in_partition_iff {rt : Runtime} {thread : AgentState} {request : ChatRequest}
    {c : Config} {h : List Config} (hh : TurnHistory rt thread request (c :: h))
    (hend : c.next = none) {answer : Option SupervisorRouterOutput}
    (hanswer : SupervisorAnswer rt (c :: h) answer)
    (hevents : ∀ output, .chainEnd "compiled_graph" output ∈ heard x e → output = finalOutput c)
    {q : QueueMessage} (hq : .publish q ∈ (serve cache x e).1) (store : MemoryStore V) :
    WritesInPartition store q ↔
      ∀ decision, answer = some decision →
        decision.targetAgent ∈ laneNames ∨ decision.targetAgent = "" := by
  have hdomain : c.state.currentDomain = some (decidedDomain answer) := by
    rcases currentDomain_of_answer hh with ⟨hnext, -⟩ | ⟨-, hkept⟩
    · exact absurd (hend.symm.trans hnext) nofun
    · exact hkept answer hanswer
  obtain ⟨hfinal, rfl⟩ := publish_mem_serve hq
  have hheard : (progress x e).domain = decidedDomain answer := by
    refine hearAll_domain (fun output houtput => ?_) (fun hnot => absurd rfl hnot) hfinal
    rw [hevents output houtput]
    exact hdomain
  rw [hheard, writesInPartition_iff rfl]
  cases answer with
  | none => exact iff_of_true general_mem_laneNames (fun decision h => absurd h nofun)
  | some decision =>
      by_cases hempty : decision.targetAgent = ""
      · simp [decidedDomain, hempty, general_mem_laneNames]
      · simp [decidedDomain, hempty]

/-! ### A target of the supervisor's own -/

/-- The question of the turn. -/
def tidesRequest : ChatRequest := ⟨"alice", "s1", "What makes the tides?"⟩

/-- The answer of a supervisor that decides on a domain. -/
def decisionFor (domain : String) : SupervisorRouterOutput := ⟨domain, "low", [domain], "Tides"⟩

/-- A turn with that answer, to its end. -/
def turnTo (domain : String) : List Config :=
  replayTurn .plain tidesRequest
    ([.routing (decisionFor domain), .silent] ++ doneOnce ++ [.saying "The moon." []])

/-- Where the turn ends. -/
def endOfTurnTo (domain : String) : Config :=
  (turnTo domain).head?.getD (startTurn .empty tidesRequest)

/-- The turn is a run that ends there. -/
theorem turnHistory_turnTo (domain : String) : TurnHistory .plain .empty tidesRequest
    (endOfTurnTo domain :: (turnTo domain).tail) := by
  have hh : TurnHistory .plain .empty tidesRequest (turnTo domain) :=
    history_replay id _ (.start rfl)
  unfold endOfTurnTo
  cases hturn : turnTo domain with
  | nil => exact absurd hturn hh.ne_nil
  | cons c h => exact hturn ▸ hh

/-- A call that hears of nothing but the end of a run. -/
def encounterOf (c : Config) : Encounter Unit Unit :=
  { smoothEncounter [] [] with
    events := [(.chainEnd "compiled_graph" (finalOutput c), false)]
    final_last := final_last_of_dropLast fun _ hevent => absurd hevent List.not_mem_nil }

/-- What is published for a domain. -/
def publishedFor (domain : String) : QueueMessage := ⟨"alice", "s1", some domain⟩

/-- The answer of its supervisor. -/
theorem supervisorAnswer_turnTo {domain : String} {c : Config}
    (hsteps : (steps (turnTo domain))[7]? = some (startTurn .empty tidesRequest, c))
    (hstep : step .plain (.routing (decisionFor domain)) (startTurn .empty tidesRequest) = .ok c) :
    SupervisorAnswer .plain (turnTo domain) (some (decisionFor domain)) :=
  ⟨_, List.mem_of_getElem? hsteps, rfl, _, .human "What makes the tides?", rfl, hstep, rfl⟩

/-- The call hears of the end of the run. -/
theorem eq_finalOutput_of_mem {c : Config} {output : FinalOutput}
    (h : .chainEnd "compiled_graph" output
      ∈ heard (tidesCall .streamChat "alice") (encounterOf c)) : output = finalOutput c :=
  (GraphEvent.chainEnd.inj (List.mem_singleton.1 h)).2

/-- The facts of a turn for the research lane are in its collection. -/
theorem research_in_partition : WritesInPartition listedStore (publishedFor "research_papers") := by
  have hanswer : SupervisorAnswer .plain
      (endOfTurnTo "research_papers" :: (turnTo "research_papers").tail)
      (some (decisionFor "research_papers")) := by
    have hturn : SupervisorAnswer .plain (turnTo "research_papers")
        (some (decisionFor "research_papers")) := supervisorAnswer_turnTo rfl rfl
    exact hturn
  have hq : .publish (publishedFor "research_papers") ∈ (serve plainCache
      (tidesCall .streamChat "alice") (encounterOf (endOfTurnTo "research_papers"))).1 :=
    .tail _ (.head _)
  refine (published_in_partition_iff (turnHistory_turnTo _) rfl hanswer
    (fun _ => eq_finalOutput_of_mem) hq _).2 ?_
  rintro decision hdecision
  obtain rfl := Option.some.inj hdecision
  exact .inl (by decide)

/-- Facts for a domain of the supervisor's own are out of reach of the policy. -/
theorem oceanography_not_swept :
    ¬ ∀ (rt : Runtime) (thread : AgentState) (request : ChatRequest) (c : Config)
      (h : List Config) (x : Call) (e : Encounter Unit Unit) (q : QueueMessage),
      TurnHistory rt thread request (c :: h) → c.next = none →
      (∀ output, .chainEnd "compiled_graph" output ∈ heard x e → output = finalOutput c) →
      .publish q ∈ (serve plainCache x e).1 → WritesInPartition listedStore q := by
  intro hall
  obtain ⟨⟨domain, hdomain, hin⟩, -⟩ := hall _ _ _ _ _ _ _ (publishedFor "oceanography")
    (turnHistory_turnTo "oceanography") rfl (fun _ => eq_finalOutput_of_mem) (.tail _ (.head _))
  obtain rfl := Option.some.inj hdomain
  exact absurd (inPartition_iff.1 hin) (by decide)

end Server
end CognitiveEngine
