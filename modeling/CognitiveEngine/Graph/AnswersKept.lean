/-
# From the extractor to the synthesis prompt

`node_finding_extractor` writes a summary and findings into the state,
`task_manager` copies them into the record of the current task, and
`node_final_synthesizer` reads the records.  `Closed` says that a stint has its
record: a completed task with the findings of the stint's last extraction, and with
its summary unless that is empty.  A closed stint stays closed, because no later task
has the id of a completed one (`Pointed`), so nothing overwrites the record.

`answersKept_of_recorded` is what the synthesizer gets: in every run that reaches it,
each stint's last non-empty summary and last findings stand in the synthesis prompt,
as long as there is a record to copy them to and the last summary is not empty after
an earlier one was not.  A run whose planner returned no task has no record.
-/

import CognitiveEngine.Graph.PendingTasks
import CognitiveEngine.Graph.TaskRegistry
import CognitiveEngine.Machine.Occurrence

namespace CognitiveEngine
namespace Graph

open Machine

/-- The last summary the extractor wrote in a stint that is not empty. -/
def lastAnswer (visits : List Config) : Option String :=
  (visits.find? fun c =>
    c.next = some .criticAgent ∧ c.state.rawExecutorOutput ≠ some "").bind fun c =>
      c.state.rawExecutorOutput

/-- A text has the last answer of a stint and the statements of its last findings. -/
structure KeptIn (text : String) (visits : List Config) : Prop where
  answer : ∀ a, lastAnswer visits = some a → Occurs a text
  findings : ∀ raw fs, lastExtraction visits = some (raw, fs) → ∀ f ∈ fs, Occurs f.statement text

/-- The synthesis prompt of the latest state has what every stint of the run found. -/
def AnswersKept (h : List Config) : Prop :=
  ∀ c ∈ h.head?, ∃ text, synthesisPrompt c.state = [.human text] ∧
    ∀ visits ∈ stints h, KeptIn text visits

/-- `task_manager` had a task to record the stint with, and the last summary of the
stint is not empty, unless all of them are. -/
structure Recorded (visits : List Config) : Prop where
  registered : ∀ c ∈ visits, c.next = some .taskManager → c.state.tasks ≠ []
  answered : ∀ e ∈ lastExtraction visits, e.1 = some "" → lastAnswer visits = none

/-- The stint has its record among the tasks. -/
def Closed (tasks : List Task) (visits : List Config) : Prop :=
  ∀ raw fs, lastExtraction visits = some (raw, fs) → ∃ t ∈ tasks, t.status = .completed ∧
    t.findings = fs ∧ ∀ a, raw = some a → a ≠ "" → t.result = some a

/-! ### The synthesis prompt -/

theorem mem_allFindings {tasks : List Task} {t : Task} (ht : t ∈ tasks) {f : Finding}
    (hf : f ∈ t.findings) : "- " ++ f.statement ∈ allFindings tasks :=
  List.mem_flatMap.2 ⟨t, ht, List.mem_map_of_mem hf⟩

theorem mem_allResults {tasks : List Task} {t : Task} (ht : t ∈ tasks) {r : String}
    (hr : t.result = some r) (hne : r ≠ "") :
    "### Task: " ++ t.desc ++ "\n" ++ r ∈ allResults tasks := by
  refine List.mem_flatMap.2 ⟨t, ht, ?_⟩
  simp only [hr, if_pos hne, List.mem_singleton]

/-- **The synthesis prompt has the findings and the results of all tasks.** -/
theorem exists_synthesisText (s : AgentState) :
    ∃ text, synthesisPrompt s = [.human text] ∧
      (∀ t ∈ s.tasks, ∀ f ∈ t.findings, Occurs f.statement text) ∧
      ∀ t ∈ s.tasks, ∀ r, t.result = some r → r ≠ "" → Occurs r text := by
  refine ⟨_, rfl, ?_, ?_⟩
  · intro t ht f hf
    have hmem := mem_allFindings ht hf
    have hline := Occurs.intercalate hmem "\n"
    refine Occurs.append_right (Occurs.append_right (Occurs.append_right (Occurs.append_right
      (Occurs.append_left ?_ _) _) _) _) _
    rw [if_pos (List.ne_nil_of_mem hmem)]
    exact ((Occurs.refl f.statement).append_left "- ").trans hline
  · intro t ht r hr hne
    have hmem := mem_allResults ht hr hne
    have hline := Occurs.intercalate hmem "\n\n"
    refine Occurs.append_right (Occurs.append_left ?_ _) _
    rw [if_pos (List.ne_nil_of_mem hmem)]
    exact ((Occurs.refl r).append_left _).trans hline

/-- With the last summary not empty the last answer is the one last written. -/
theorem Recorded.lastExtraction {visits : List Config} (hr : Recorded visits) {a : String}
    (ha : lastAnswer visits = some a) : ∃ fs, lastExtraction visits = some (some a, fs) := by
  cases hf : visits.find? fun c => c.next = some .criticAgent with
  | none =>
      rw [List.find?_eq_none] at hf
      have hnone : visits.find? (fun c => decide (c.next = some .criticAgent ∧
          c.state.rawExecutorOutput ≠ some "")) = none := by
        refine List.find?_eq_none.2 fun c hc h => hf c hc ?_
        rw [decide_eq_true_eq] at h ⊢
        exact h.1
      rw [lastAnswer, hnone] at ha
      cases ha
  | some c =>
      have hlast : Graph.lastExtraction visits =
          some (c.state.rawExecutorOutput, c.state.extractedFindings) := by
        rw [Graph.lastExtraction, hf]
        rfl
      by_cases hempty : c.state.rawExecutorOutput = some ""
      · rw [hr.answered _ hlast hempty] at ha
        cases ha
      · obtain ⟨hc, before, after, hvisits, hbefore⟩ := List.find?_eq_some_iff_append.1 hf
        have hfind : visits.find? (fun c => decide (c.next = some .criticAgent ∧
            c.state.rawExecutorOutput ≠ some "")) = some c := by
          refine List.find?_eq_some_iff_append.2 ⟨?_, before, after, hvisits, fun b hb => ?_⟩
          · simpa using ⟨by simpa using hc, hempty⟩
          · have := hbefore b hb
            simp only [Bool.not_eq_eq_eq_not, Bool.not_true, decide_eq_false_iff_not] at this ⊢
            exact fun h => this h.1
        rw [lastAnswer, hfind, Option.bind_some] at ha
        exact ⟨c.state.extractedFindings, by rw [hlast, ha]⟩

/-- A stint with its record among the tasks is in the synthesis prompt. -/
theorem keptIn_of_closed {s : AgentState} {text : String}
    (hfindings : ∀ t ∈ s.tasks, ∀ f ∈ t.findings, Occurs f.statement text)
    (hresults : ∀ t ∈ s.tasks, ∀ r, t.result = some r → r ≠ "" → Occurs r text)
    {visits : List Config} (hr : Recorded visits) (hc : Closed s.tasks visits) :
    KeptIn text visits where
  answer a ha := by
    obtain ⟨fs, hlast⟩ := hr.lastExtraction ha
    obtain ⟨t, ht, -, -, hresult⟩ := hc _ _ hlast
    have hne : a ≠ "" := by
      rintro rfl
      rw [hr.answered _ hlast rfl] at ha
      cases ha
    exact hresults t ht a (hresult a rfl hne) hne
  findings raw fs hlast f hf := by
    obtain ⟨t, ht, -, rfl, -⟩ := hc _ _ hlast
    exact hfindings t ht f hf

/-! ### Closed stints -/

/-- A stint without an extraction has nothing to record. -/
theorem closed_of_forall_ne {visits : List Config}
    (h : ∀ c ∈ visits, c.next ≠ some .criticAgent) (tasks : List Task) : Closed tasks visits := by
  intro raw fs hlast
  have hnone : visits.find? (fun c => decide (c.next = some .criticAgent)) = none :=
    List.find?_eq_none.2 fun c hc => by simpa using h c hc
  rw [lastExtraction, hnone] at hlast
  cases hlast

/-- What `task_manager` stores when the summary is not empty. -/
theorem eq_of_rawOrLast {s : AgentState} {result a : String} (hr : rawOrLast s = .ok result)
    (hs : s.rawExecutorOutput = some a) (ha : a ≠ "") : result = a := by
  unfold rawOrLast at hr
  simp only [hs, if_pos ha] at hr
  exact (Except.ok.inj hr).symm

/-- **`task_manager` records the stint it closes.** -/
theorem Pointed.closed_current {s : AgentState} (h : Pointed s) (hne : s.tasks ≠ [])
    {result : String} (hr : rawOrLast s = .ok result) {seg : List Config}
    (hlast : lastExtraction seg = some (s.rawExecutorOutput, s.extractedFindings)) :
    Closed (completeCurrent s result) seg := by
  obtain ⟨t, hnext, hcur⟩ := h.exists_next hne
  intro raw fs hraw
  obtain ⟨rfl, rfl⟩ := Prod.mk.inj (Option.some.inj (hlast.symm.trans hraw))
  refine ⟨t.complete result s.extractedFindings, ?_, rfl, rfl, ?_⟩
  · refine List.mem_map.2 ⟨t, List.mem_of_find?_eq_some hnext, ?_⟩
    rw [if_pos hcur.symm]
  · intro a ha hane
    exact congrArg some (eq_of_rawOrLast hr ha hane)

/-- **Closing a stint leaves the records of the others alone**: their ids are not the
current one. -/
theorem Pointed.closed_completeCurrent {s : AgentState} (h : Pointed s) (hne : s.tasks ≠ [])
    (result : String) {visits : List Config} (hc : Closed s.tasks visits) :
    Closed (completeCurrent s result) visits := by
  obtain ⟨t₀, hnext, hcur⟩ := h.exists_next hne
  intro raw fs hlast
  obtain ⟨t, ht, hdone, hstored⟩ := hc raw fs hlast
  refine ⟨t, List.mem_map.2 ⟨t, ht, if_neg ?_⟩, hdone, hstored⟩
  rw [hcur, Option.some_inj]
  exact h.apart t ht t₀ (List.mem_of_find?_eq_some hnext) hdone (nextTask_eq_some_iff.1 hnext).1

/-! ### Along a run -/

/-- The run is in the stint `seg`, and the stints before it are closed. -/
structure InStint (c : Config) (h : List Config) (seg : List Config)
    (rest : List (List Config)) : Prop where
  cut : segments TaskStart (c :: h) = seg :: rest
  extracted : c.next = some .criticAgent ∨ c.next = some .reflectionAgent ∨
      c.next = some .taskManager →
    lastExtraction seg = some (c.state.rawExecutorOutput, c.state.extractedFindings)
  closed : c.state.tasks ≠ [] → ∀ visits ∈ rest, Closed c.state.tasks visits

/-- What a run has filed of its stints so far. -/
structure Filed (c : Config) (h : List Config) : Prop where
  opening : c.opening → ∀ v ∈ c :: h, v.next ≠ some .criticAgent
  working : ∀ n, c.next = some n → n.working → ∃ seg rest, InStint c h seg rest
  done : c.next = some .finalSynthesizer → c.state.tasks ≠ [] →
    ∀ visits ∈ segments TaskStart (c :: h), Closed c.state.tasks visits

/-- A run in a stint has filed what it says. -/
theorem InStint.filed {n : Node} {s : AgentState} {h seg : List Config}
    {rest : List (List Config)} (hw : n.working) (hs : InStint ⟨some n, s⟩ h seg rest) :
    Filed ⟨some n, s⟩ h where
  opening ho := by
    rw [Config.opening_of_working rfl hw] at ho
    cases ho
  working _ _ _ := ⟨seg, rest, hs⟩
  done hc := by
    obtain rfl := Option.some.inj hc
    cases hw

/-- Before the tasks are set up there is no stint to file. -/
theorem filed_of_opening {c : Config} {h : List Config} (ho : c.opening)
    (hv : ∀ v ∈ c :: h, v.next ≠ some .criticAgent) : Filed c h where
  opening _ := hv
  working n hn hw := by
    rw [Config.opening_of_working hn hw] at ho
    cases ho
  done hn := by
    rw [Config.opening, hn] at ho
    cases ho

/-- After the last task every stint is closed. -/
theorem filed_of_done {n : Option Node} {s : AgentState} {h : List Config}
    (hn : n = some .finalSynthesizer ∨ n = none) (hdone : n = some .finalSynthesizer →
      s.tasks ≠ [] → ∀ visits ∈ segments TaskStart (⟨n, s⟩ :: h), Closed s.tasks visits) :
    Filed ⟨n, s⟩ h where
  opening ho := by rcases hn with rfl | rfl <;> cases ho
  working m hm hw := by
    rcases hn with rfl | rfl
    · obtain rfl := Option.some.inj hm
      cases hw
    · cases hm
  done := hdone

/-- A superstep inside a stint goes on with it. -/
theorem InStint.keep {c c' : Config} {h seg : List Config} {rest : List (List Config)}
    (w : InStint c h seg rest) (hm : ¬ TaskStart c c') (ht : c'.state.tasks = c.state.tasks)
    (hex : c'.next = some .criticAgent ∨ c'.next = some .reflectionAgent ∨
        c'.next = some .taskManager →
      lastExtraction (c' :: seg) = some (c'.state.rawExecutorOutput, c'.state.extractedFindings)) :
    InStint c' (c :: h) (c' :: seg) rest where
  cut := segments_cons_of_not_mark hm w.cut
  extracted := hex
  closed := by
    rw [ht]
    exact w.closed

/-- After the extractor a stint keeps its last extraction, up to its end. -/
theorem InStint.carry {c c' : Config} {h seg : List Config} {rest : List (List Config)}
    (w : InStint c h seg rest) (hm : ¬ TaskStart c c') (ht : c'.state.tasks = c.state.tasks)
    (hc : c.next = some .criticAgent ∨ c.next = some .reflectionAgent ∨
      c.next = some .taskManager) (hc' : c'.next ≠ some .criticAgent)
    (hraw : c'.state.rawExecutorOutput = c.state.rawExecutorOutput)
    (hfindings : c'.state.extractedFindings = c.state.extractedFindings) :
    InStint c' (c :: h) (c' :: seg) rest := by
  refine w.keep hm ht fun _ => ?_
  rw [lastExtraction_cons hc', w.extracted hc, hraw, hfindings]

/-- **At the end of a stint its record is made,** beside those of the stints before. -/
theorem InStint.close {s : AgentState} {h seg : List Config} {rest : List (List Config)}
    (w : InStint ⟨some .taskManager, s⟩ h seg rest) (hp : Pointed s) (hne : s.tasks ≠ [])
    {result : String} (hr : rawOrLast s = .ok result) :
    Closed (completeCurrent s result) seg ∧
      ∀ visits ∈ rest, Closed (completeCurrent s result) visits :=
  ⟨hp.closed_current hne hr (w.extracted (.inr (.inr rfl))),
    fun visits hv => hp.closed_completeCurrent hne result (w.closed hne visits hv)⟩

/-- A visit that is no extraction records nothing more. -/
theorem Closed.cons {tasks : List Task} {seg : List Config} (hc : Closed tasks seg) {c : Config}
    (hn : c.next ≠ some .criticAgent) : Closed tasks (c :: seg) := by
  intro raw fs hlast
  rw [lastExtraction_cons hn] at hlast
  exact hc raw fs hlast

/-- The first stint starts: there was no extraction before it. -/
theorem Filed.start {c c' : Config} {h : List Config} (hf : Filed c h) (ho : c.opening)
    (hm : TaskStart c c') : InStint c' (c :: h) [c'] (segments TaskStart (c :: h)) where
  cut := segments_cons_of_mark hm h
  extracted hn := by
    have he := hm.2
    rcases hn with hn | hn | hn <;> simp [Config.atExecutor, Config.lane?, hn, Node.lane?] at he
  closed _ visits hv := by
    refine closed_of_forall_ne (fun v hvis => hf.opening ho v ?_) _
    rw [← flatten_segments TaskStart (c :: h)]
    exact List.mem_flatten.2 ⟨visits, hv, hvis⟩

/-- **Each superstep files what it closes.** -/
theorem Filed.transition {rt : Runtime} {c c' : Config} {h : List Config} (hf : Filed c h)
    (hreg : c.Registered) (ht : Transition rt c c') : Filed c' (c :: h) := by
  cases ht with
  | supervise s domain complexity agents last hlast =>
      refine filed_of_opening ?_ (List.forall_mem_cons.2 ⟨?_, hf.opening rfl⟩)
      · split_ifs <;> rfl
      · split_ifs <;> simp
  | plan => exact (hf.start rfl ⟨rfl, rfl⟩).filed rfl
  | initDirect => exact (hf.start rfl ⟨rfl, rfl⟩).filed rfl
  | dispatch | conclude | track | callTools | rework =>
      obtain ⟨seg, rest, w⟩ := hf.working _ rfl rfl
      refine InStint.filed rfl (w.keep (fun h => Bool.false_ne_true h.1) rfl ?_)
      rintro (h | h | h) <;> cases h
  | extract s last hlast summary findings =>
      obtain ⟨seg, rest, w⟩ := hf.working _ rfl rfl
      exact InStint.filed rfl (w.keep (fun h => Bool.false_ne_true h.1) rfl fun _ => rfl)
  | criticize =>
      obtain ⟨seg, rest, w⟩ := hf.working _ rfl rfl
      exact InStint.filed rfl
        (w.carry (fun h => Bool.false_ne_true h.1) rfl (.inl rfl) (by simp) rfl rfl)
  | exhaust | accept =>
      obtain ⟨seg, rest, w⟩ := hf.working _ rfl rfl
      exact InStint.filed rfl
        (w.carry (fun h => Bool.false_ne_true h.1) rfl (.inr (.inl rfl)) (by simp) rfl rfl)
  | dismiss s hnil => exact filed_of_done (.inl rfl) fun _ hne => absurd hnil hne
  | advance s hne result hr next hn =>
      obtain ⟨seg, rest, w⟩ := hf.working _ rfl rfl
      have hp : Pointed s := hreg.pointed _ rfl rfl
      have hm : TaskStart ⟨some .taskManager, s⟩
          ⟨some (.executor (managerLane (s.advanced result next) next.id)),
            s.advanced result next⟩ := ⟨rfl, rfl⟩
      have hcut := segments_cons_of_mark hm h
      rw [w.cut] at hcut
      refine InStint.filed rfl ⟨hcut, ?_, fun _ => ?_⟩
      · rintro (h | h | h) <;> cases h
      · exact List.forall_mem_cons.2 (w.close hp hne hr)
  | finish s hne result hr hn =>
      obtain ⟨seg, rest, w⟩ := hf.working _ rfl rfl
      have hp : Pointed s := hreg.pointed _ rfl rfl
      have hm : ¬ TaskStart ⟨some .taskManager, s⟩ ⟨some .finalSynthesizer, s.finished result⟩ :=
        fun h => Bool.false_ne_true h.2
      obtain ⟨hseg, hrest⟩ := w.close hp hne hr
      refine filed_of_done (.inl rfl) fun _ _ => ?_
      rw [segments_cons_of_not_mark hm w.cut]
      exact List.forall_mem_cons.2 ⟨hseg.cons (by simp), hrest⟩
  | synthesize => exact filed_of_done (.inr rfl) nofun

theorem filed_of_history {rt : Runtime} {thread : AgentState} {request : ChatRequest}
    {c : Config} {h : List Config} (hh : TurnHistory rt thread request (c :: h)) : Filed c h := by
  refine hh.rec_head (P := Filed) ?_ ?_
  · rintro _ rfl
    exact filed_of_opening rfl (by simp [startTurn])
  · intro c c' h hh hf hs
    exact hf.transition (registered_of_history hh c List.mem_cons_self) hs.transition

/-- A recorded run gets to the synthesizer with a task on the list. -/
theorem tasks_ne_nil_of_recorded {rt : Runtime} {thread : AgentState} {request : ChatRequest}
    {c : Config} {h : List Config} (hh : TurnHistory rt thread request (c :: h))
    (hn : c.next = some .finalSynthesizer) (hr : ∀ visits ∈ stints (c :: h), Recorded visits) :
    c.state.tasks ≠ [] := by
  cases hh with
  | start hs =>
      rw [hs] at hn
      cases hn
  | @next c₀ _ h₀ _ hs =>
      have ht := hs.transition
      generalize hc₀ : c₀ = d at ht
      cases ht with
      | supervise => split_ifs at hn <;> cases hn
      | plan | initDirect | dispatch | conclude | track | callTools | extract | criticize | rework
      | exhaust | accept | advance | synthesize => cases hn
      | dismiss s hnil =>
          have hmem : c₀ ∈ ⟨some .finalSynthesizer, s.dismissed⟩ :: c₀ :: h₀ :=
            List.mem_cons_of_mem _ List.mem_cons_self
          obtain ⟨visits, hv, hc⟩ := exists_stint_of_mem hmem
          exact absurd (hc₀ ▸ hnil) ((hr visits hv).registered c₀ hc (by rw [hc₀]))
      | finish s hne result _ _ =>
          show completeCurrent s result ≠ []
          exact fun hnil => hne (List.map_eq_nil_iff.1 hnil)

/-- **No answer is dropped between the extractor and the synthesis prompt.**  In every
run of a turn that reaches `final_synthesizer`, whatever the plan and its ids, as long
as each stint can be recorded. -/
theorem answersKept_of_recorded {rt : Runtime} {thread : AgentState} {request : ChatRequest}
    {h : List Config} (hh : TurnHistory rt thread request h)
    (hn : currentNode h = some .finalSynthesizer) (hr : ∀ visits ∈ stints h, Recorded visits) :
    AnswersKept h := by
  obtain ⟨c, rest, rfl⟩ := List.exists_cons_of_ne_nil hh.ne_nil
  intro c' hc'
  obtain rfl := Option.some.inj hc'
  obtain ⟨text, htext, hfindings, hresults⟩ := exists_synthesisText c.state
  refine ⟨text, htext, fun visits hv => keptIn_of_closed hfindings hresults (hr visits hv) ?_⟩
  exact (filed_of_history hh).done hn (tasks_ne_nil_of_recorded hh hn hr) visits
    (List.mem_reverse.1 hv)

instance : DecidablePred Recorded := fun visits =>
  decidable_of_iff
    ((∀ c ∈ visits, c.next = some .taskManager → c.state.tasks ≠ []) ∧
      ∀ e ∈ lastExtraction visits, e.1 = some "" → lastAnswer visits = none)
    ⟨fun h => ⟨h.1, h.2⟩, fun h => ⟨h.registered, h.answered⟩⟩

/-- Two tasks, one of them done twice over. -/
def reworkedRun : List Config :=
  plannedTurn [⟨1, "Find the news.", .generalMemory⟩, ⟨2, "Sum them up.", .generalMemory⟩]
    (answerThenJudge "A first summary." true ++ doneOnce ++ doneOnce)

theorem answersKept_reworked : AnswersKept reworkedRun :=
  answersKept_of_recorded (turnHistory_plannedTurn _ _) (by decide) (by decide)

/-- A run whose planner returned no task, and whose extractor marked its summary. -/
def unplannedRun : List Config :=
  plannedTurn [] [.saying "An answer." [], .extracting "§" [], .criticizing "Fine.",
    .reflecting false "Say more.", .silent]

/-- **Without a task the answer is dropped.**  The executor was run all the same. -/
theorem not_answersKept_unplanned :
    ¬ ∀ rt thread request h, TurnHistory rt thread request h →
      currentNode h = some .finalSynthesizer → AnswersKept h := by
  intro hall
  obtain ⟨c, hc, hcur⟩ : ∃ c ∈ unplannedRun.head?, currentNode unplannedRun =
      some .finalSynthesizer ∧ ∀ m ∈ synthesisPrompt c.state,
        0xC2 ∉ m.content.toByteArray.data.toList := by
    -- The mark is looked for by its first byte: the texts are long.
    decide +kernel
  obtain ⟨text, htext, hkept⟩ := hall .plain .empty ⟨"alice", "s1", "What is new?"⟩ unplannedRun
    (turnHistory_plannedTurn _ _) hcur.1 c hc
  obtain ⟨visits, hv, hanswer⟩ : ∃ visits ∈ stints unplannedRun, lastAnswer visits = some "§" := by
    decide
  have hin : Message.human text ∈ synthesisPrompt c.state := by
    rw [htext]
    exact List.mem_singleton_self _
  have hocc : Occurs "§" text := (hkept visits hv).answer "§" hanswer
  exact hcur.2 _ hin (hocc.bytes_subset (by decide +kernel))

end Graph
end CognitiveEngine
