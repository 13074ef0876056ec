/-
# What a rework is told

A verdict that demands rework comes with an advice, "strict, actionable instructions
for the executor" by its schema.  `node_reflection_agent` stores it in
`reflection_notes`, and the router sends the run back to an executor.

No prompt builder reads `reflection_notes`.  Take a run at an executor visit of a
rework and let the verdict have given any other advice: the run goes through the same
nodes (`threadHistory_readvised`), and the executor compiles the same messages
(`compiledMessages_advised`).  So whatever the run, its messages do not depend on the
advice (`not_instructed`), in every lane and on every visit of the tool loop.
-/

import CognitiveEngine.Graph.DomainIsolation
import CognitiveEngine.Graph.PendingTasks
import CognitiveEngine.Machine.Occurrence

namespace CognitiveEngine
namespace Graph

open Machine

namespace Config

/-- An executor, or its tool loop, is about to run. -/
def inToolLoop (c : Config) : Bool :=
  c.atExecutor || c.next = some .actionTracker || c.next = some .tools

/-- The configuration with another advice in `reflection_notes`. -/
def advised (advice : String) (c : Config) : Config where
  next := c.next
  state := { c.state with reflectionNotes := some advice }

end Config

/-- The run is at an executor visit of a rework: the reflection sent it back to an
executor, and since then it has been in the tool loop. -/
def ReworkVisit (h : List Config) : Prop :=
  (∃ c ∈ h.head?, c.atExecutor) ∧
    ∃ c ∈ (h.dropWhile Config.inToolLoop).head?, c.next = some .reflectionAgent

/-- The run in which the verdict of the present rework came with another advice. -/
def readvised (advice : String) (h : List Config) : List Config :=
  (h.takeWhile Config.inToolLoop).map (Config.advised advice) ++ h.dropWhile Config.inToolLoop

/-- One of the messages the executor compiles has the advice in `reflection_notes`. -/
def CarriesAdvice (rt : Runtime) (env : Env) (c : Config) : Prop :=
  ∀ l ∈ c.lane?, ∀ advice ∈ c.state.reflectionNotes,
    ∃ m ∈ l.profile.compiledMessages rt env c.state, Occurs advice m.content

/-- The messages of the visit depend on the verdict: whatever advice it came with,
they have it. -/
def Instructed (rt : Runtime) (env : Env) (h : List Config) : Prop :=
  ∀ advice, ThreadHistory rt (readvised advice h) →
    ∀ c ∈ (readvised advice h).head?, CarriesAdvice rt env c

/-! ### Another advice -/

/-- **An executor compiles the same messages whatever the advice.** -/
theorem compiledMessages_advised (rt : Runtime) (env : Env) (l : Lane) (c : Config)
    (advice : String) :
    l.profile.compiledMessages rt env (c.advised advice).state =
      l.profile.compiledMessages rt env c.state := by
  cases l <;> rfl

/-- A superstep of the tool loop does not look at the advice. -/
theorem Transition.advised {rt : Runtime} {c c' : Config} (h : Transition rt c c')
    (hc : c.inToolLoop) (hc' : c'.inToolLoop) (advice : String) :
    Transition rt (c.advised advice) (c'.advised advice) := by
  cases h with
  | dispatch l s content calls hd =>
      exact .dispatch l { s with reflectionNotes := some advice } content calls hd
  | track s last hlast => exact .track { s with reflectionNotes := some advice } last hlast
  | callTools s content calls hlast result =>
      exact .callTools { s with reflectionNotes := some advice } content calls hlast result
  | conclude | synthesize => exact absurd hc' Bool.false_ne_true
  | supervise | plan | initDirect | extract | criticize | rework | exhaust | accept | dismiss
  | advance | finish => exact absurd hc Bool.false_ne_true

/-- The reflection can come with any advice. -/
theorem Transition.readvised {rt : Runtime} {c c' : Config} (h : Transition rt c c')
    (hc : c.next = some .reflectionAgent) (hc' : c'.inToolLoop) (advice : String) :
    Transition rt c (c'.advised advice) := by
  cases h with
  | rework s payload hp _ hr => exact .rework s payload hp advice hr
  | exhaust | accept => exact absurd hc' Bool.false_ne_true
  | supervise | plan | initDirect | dispatch | conclude | track | callTools | extract | criticize
  | dismiss | advance | finish | synthesize => cases hc

theorem readvised_cons {c : Config} (hc : c.inToolLoop) (advice : String) (h : List Config) :
    readvised advice (c :: h) = c.advised advice :: readvised advice h := by
  rw [readvised, List.takeWhile_cons_of_pos hc, List.dropWhile_cons_of_pos hc]
  rfl

theorem readvised_of_not_inToolLoop {c : Config} (hc : ¬ c.inToolLoop) (advice : String)
    (h : List Config) : readvised advice (c :: h) = c :: h := by
  rw [readvised, List.takeWhile_cons_of_neg hc, List.dropWhile_cons_of_neg hc]
  rfl

/-- **The run with another advice is a run.** -/
theorem threadHistory_readvised {rt : Runtime} {c : Config} {h : List Config}
    (hh : ThreadHistory rt (c :: h)) (advice : String) :
    c.inToolLoop →
      (∃ r ∈ ((c :: h).dropWhile Config.inToolLoop).head?, r.next = some .reflectionAgent) →
        ThreadHistory rt (readvised advice (c :: h)) := by
  refine hh.rec_head (P := fun c h => c.inToolLoop →
    (∃ r ∈ ((c :: h).dropWhile Config.inToolLoop).head?, r.next = some .reflectionAgent) →
      ThreadHistory rt (readvised advice (c :: h))) ?_ ?_
  · rintro _ ⟨request, rfl⟩ hc
    exact absurd hc Bool.false_ne_true
  · intro c c' h hh ih hR hc' hr
    cases hR with
    | turn request => exact absurd hc' Bool.false_ne_true
    | step hs =>
        rw [List.dropWhile_cons_of_pos hc'] at hr
        rw [readvised_cons hc']
        by_cases hc : c.inToolLoop
        · have hrun := ih hc hr
          rw [readvised_cons hc] at hrun ⊢
          exact .next hrun (.step (hs.transition.advised hc hc' advice).step)
        · rw [List.dropWhile_cons_of_neg hc] at hr
          obtain ⟨r, hr, hn⟩ := hr
          obtain rfl := Option.some.inj hr
          rw [readvised_of_not_inToolLoop hc]
          exact .next hh (.step (hs.transition.readvised hn hc' advice).step)

/-- **No rework is instructed.**  At every executor visit of a rework, in every run of
a thread, the messages the executor compiles are the same for every advice, so they
miss one the verdict could have come with. -/
theorem not_instructed {rt : Runtime} {h : List Config} (hh : ThreadHistory rt h)
    (hv : ReworkVisit h) (env : Env) : ¬ Instructed rt env h := by
  intro hall
  obtain ⟨⟨c, hc, he⟩, hreflection⟩ := hv
  obtain ⟨rest, rfl⟩ : ∃ rest, h = c :: rest := List.head?_eq_some_iff.1 hc
  have hloop : c.inToolLoop := by simp [Config.inToolLoop, he]
  obtain ⟨l, s, rfl⟩ := Config.exists_of_atExecutor he
  obtain ⟨advice, hadvice⟩ :=
    exists_not_occurs ((l.profile.compiledMessages rt env s).map Message.content)
  have hrun := threadHistory_readvised hh advice hloop hreflection
  rw [readvised_cons hloop] at hrun
  have hcarries := hall advice (by rwa [readvised_cons hloop])
    (Config.advised advice ⟨some (.executor l), s⟩) (by rw [readvised_cons hloop]; rfl)
  obtain ⟨m, hm, hocc⟩ := hcarries l rfl advice rfl
  rw [compiledMessages_advised] at hm
  exact hadvice m.content (List.mem_map_of_mem hm) hocc

/-- A run whose first answer is sent back with an advice. -/
def sentBackRun (advice : String) : List Config :=
  plannedTurn [⟨1, "Find the news.", .generalMemory⟩]
    [.saying "An answer." [], .extracting "A summary." [], .criticizing "Fine.",
      .reflecting true advice]

theorem threadHistory_sentBackRun (advice : String) :
    ThreadHistory .plain (sentBackRun advice) :=
  threadHistory_replayTurn _ _ _

theorem reworkVisit_sentBackRun : ReworkVisit (sentBackRun "§") := by
  constructor <;> decide

theorem not_instructed_sentBack : ¬ Instructed .plain .silent (sentBackRun "§") :=
  not_instructed (threadHistory_sentBackRun "§") reworkVisit_sentBackRun .silent

/-- **The advice "§" is in none of the messages** of the rework it demanded. -/
theorem not_carriesAdvice_sentBack :
    ¬ ∀ rt env h, ThreadHistory rt h → ReworkVisit h →
      ∀ c ∈ h.head?, CarriesAdvice rt env c := by
  intro hall
  obtain ⟨c, hc, hlane, hnotes, hnone⟩ : ∃ c ∈ (sentBackRun "§").head?,
      c.lane? = some .generalMemory ∧ c.state.reflectionNotes = some "§" ∧
        ∀ m ∈ generalProfile.compiledMessages .plain .silent c.state,
          0xC2 ∉ m.content.toByteArray.data.toList := by
    -- The mark is looked for by its first byte: the texts are long.
    decide +kernel
  obtain ⟨m, hm, hocc⟩ := hall .plain .silent _ (threadHistory_sentBackRun "§")
    reworkVisit_sentBackRun c hc .generalMemory hlane "§" hnotes
  exact hnone m hm (hocc.bytes_subset (by decide +kernel))

end Graph
end CognitiveEngine
