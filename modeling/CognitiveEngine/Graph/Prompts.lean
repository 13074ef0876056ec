/-
# The prompts of the nodes

The utility functions at the head of `app/graph/nodes.py`, `transform_user_query`
(`app/services/query_transformer.py`), and for every node that calls a chat model
the list of messages it sends.  The nodes themselves are in
`CognitiveEngine.Graph.Nodes`.
-/

import Mathlib.Data.List.TakeWhile
import CognitiveEngine.Graph.Environment
import Mathlib.Algebra.Order.Ring.Abs
import Mathlib.Algebra.Order.Ring.Unbundled.Rat

namespace CognitiveEngine
namespace Graph

/-! ### Python text functions -/

/-- `str.isspace` of one character. -/
def pyIsSpace (c : Char) : Bool :=
  let n := c.toNat
  (9 ≤ n && n ≤ 13) || (28 ≤ n && n ≤ 32) || n == 0x85 || n == 0xa0 || n == 0x1680 ||
    (0x2000 ≤ n && n ≤ 0x200a) || n == 0x2028 || n == 0x2029 || n == 0x202f || n == 0x205f ||
    n == 0x3000

/-- The text without the characters of `p` at its two ends. -/
def stripChars (p : Char → Bool) (s : String) : String :=
  String.ofList ((s.toList.dropWhile p).reverse.dropWhile p).reverse

/-- `s.strip()`. -/
def pyStrip (s : String) : String := stripChars pyIsSpace s

/-- A text with a character that is not of `p` is not stripped empty. -/
theorem stripChars_ne_empty {p : Char → Bool} {s : String} {c : Char} (hc : c ∈ s.toList)
    (hp : p c = false) : stripChars p s ≠ "" := by
  intro h
  rw [stripChars, String.ofList_eq_empty_iff, List.reverse_eq_nil_iff,
    List.dropWhile_eq_nil_iff] at h
  rw [← List.takeWhile_append_dropWhile (p := p) (l := s.toList)] at hc
  rcases List.mem_append.1 hc with hc | hc
  · exact absurd (List.mem_takeWhile_imp hc) (by simp [hp])
  · exact absurd (h c (List.mem_reverse.2 hc)) (by simp [hp])

/-- Rounding to the nearest integer, ties to the even one. -/
def roundHalfEven (x : ℚ) : ℤ :=
  let n := x.floor
  let d := x - n
  if d < 1 / 2 then n else if 1 / 2 < d then n + 1 else if n % 2 = 0 then n else n + 1

/-- `f"{x:.2f}"`. -/
def formatTwoDigits (x : ℚ) : String :=
  let n := (roundHalfEven (|x| * 100)).toNat
  (if x < 0 then "-" else "") ++ toString (n / 100) ++ "." ++
    toString (n % 100 / 10) ++ toString (n % 10)

/-! ### Utility functions -/

/-- The loop of `prune_messages_by_token_limit`, over the messages from the last
to the first; `keep` is `keep_messages`. -/
def pruneLoop (count : String → ℕ) (maxTokens : ℕ) :
    List Message → ℕ → List Message → List Message
  | [], _, keep => keep
  | m :: rest, total, keep =>
      if total + count m.content > maxTokens then keep
      else pruneLoop count maxTokens rest (total + count m.content) (m :: keep)

/-- `prune_messages_by_token_limit`. -/
def pruneMessagesByTokenLimit (rt : Runtime) (messages : List Message) (maxTokens : ℕ)
    (modelName : String) : List Message :=
  pruneLoop (rt.tokenCount modelName) maxTokens messages.reverse 0 []

/-- The line of one finding in the task context. -/
def findingLine (t : Task) (f : Finding) : String :=
  "  - Task " ++ toString t.id ++ ": " ++ f.statement ++ " (confidence: " ++
    formatTwoDigits f.confidence ++ ")"

/-- The lines of the findings of the completed tasks, in plan order. -/
def completedFindings (tasks : List Task) : List String :=
  tasks.flatMap fun t => if t.status = .completed then t.findings.map (findingLine t) else []

/-- `active_task`: the first task with the current id; the id is tested for
truth, so `0` names no task here. -/
def activeTask (s : AgentState) : Option Task :=
  match s.currentTaskId with
  | some id => if id ≠ 0 then s.tasks.find? fun t => t.id = id else none
  | none => none

/-- `_build_task_context`. -/
def buildTaskContext (s : AgentState) : String :=
  let findings := completedFindings s.tasks
  let parts :=
    (match activeTask s with
      | some t => ["CURRENT ACTIVE TASK: " ++ t.desc]
      | none => []) ++
    (if findings ≠ [] then
      ["PRIOR TASK FINDINGS (for context):\n" ++ String.intercalate "\n" findings]
    else [])
  String.intercalate "\n\n" parts

/-- The messages `transform_user_query` sends; the graph passes no history. -/
def transformPrompt (latestMessage : String) : List Message :=
  [.system ("You are an information retrieval optimizer. Convert the user's latest message and " ++
      "short context into a single, clean, highly effective search query for vector search or " ++
      "search engines. Output ONLY the query, no explanations."),
    .human ("Context: " ++ "" ++ "\nLatest Message: " ++ latestMessage)]

/-- The model of `transform_user_query`: tier 1, without the run's configuration. -/
def transformModel : ChatModel := getLlmInstance 1 none

/-- `transform_user_query`. -/
def transformUserQuery (env : Env) (latestMessage : String) : String :=
  stripChars (· == '"') (pyStrip (env.chat transformModel (transformPrompt latestMessage)).content)

/-! ### Supervisor and planner -/

/-- `state["messages"][-1]`. -/
def lastMessage (s : AgentState) : Except PyError Message :=
  match s.messages.last? with
  | some m => .ok m
  | none => .error .indexError

/-- The messages of `node_supervisor_router`; it reads the latest message. -/
def supervisorPrompt (rt : Runtime) (latest : Message) : List Message :=
  [.system (rt.manifest ++ "\n\nAnalyze the current human message and extract the absolute " ++
      "routing domain."),
    .human latest.content]

/-- `agents_str`. -/
def agentsStr (s : AgentState) : String :=
  match s.requiredAgents.getD ["general_memory"] with
  | [] => "general_memory"
  | agents => String.intercalate ", " agents

/-- The messages of `node_planner_agent`; it reads the first message. -/
def plannerPrompt (s : AgentState) : List Message :=
  [.system ("You are the Master Planner. Break down the user's request into 2-4 " ++
      "concrete, sequential sub-tasks. Focus on logical progression.\n\n" ++
      "Overarching Objective: " ++ s.getObjective s.userInitialPrompt ++ "\n" ++
      "Available Agent Domains: " ++ agentsStr s ++ "\n" ++
      "Assign the most appropriate agent domain to each task.\n" ++
      "CRITICAL ROUTING RULES:\n" ++
      "- 'general_memory': Default for web searches, weather forecasts, itineraries, coding, " ++
      "and standard data gathering.\n" ++
      "- 'research_papers': STRICTLY for reading academic literature, scientific papers, or " ++
      "PDFs. Do NOT use for regular web searches.\n" ++
      "- 'vision_detection': STRICTLY for image processing."),
    .human s.userInitialPrompt]

/-! ### Executors -/

/-- `<current_task>` block, when there is a task context. -/
def currentTaskBlock (taskContext : String) : String :=
  if taskContext ≠ "" then "<current_task>\n" ++ taskContext ++ "\n</current_task>\n\n" else ""

/-- `system_content` of `node_general_agent`. -/
def generalSystem (manifest taskContext context : String) : String :=
  manifest ++ "\n\n" ++
  "You are the CORE_ENGINE_AGENT operating in a Reason-and-Act (ReAct) loop.\n" ++
  "Follow this execution cycle:\n" ++
  "1. THOUGHT: Think step-by-step about the user's request and current state.\n" ++
  "2. ACTION: If you need external data, invoke the appropriate tool.\n" ++
  "3. OBSERVATION: The system will execute your tool and append a ToolMessage.\n" ++
  "4. EVALUATION: If the observation is insufficient, form a new THOUGHT and ACTION.\n" ++
  "5. FINAL ANSWER: Once you have sufficient information, write a complete, well-structured " ++
  "Markdown response. Do NOT format your answer as JSON.\n\n" ++
  currentTaskBlock taskContext ++
  "<long_term_memory>\n" ++ context ++ "\n</long_term_memory>"

/-- `system_content` of `node_research_paper_agent`; it does not use the
manifest. -/
def researchSystem (_manifest taskContext context : String) : String :=
  "You are the DEEP_RESEARCH_AGENT, a highly autonomous Reasoning AI.\n" ++
  "You operate in a strict loop to complete your CURRENT ACTIVE TASK.\n\n" ++
  "CRITICAL RULES FOR EXECUTION:\n" ++
  "1. CRITIC BEFORE TOOL: Before calling any tool, internally ask: 'Do I actually need " ++
  "external data for this, or can I deduce it from the existing context?' Only call tools if " ++
  "strictly necessary.\n" ++
  "2. CONFIDENCE-BASED STOPPING: If you have gathered sufficient high-quality information, " ++
  "DO NOT call any more tools. Output your final synthesized answer for this task.\n" ++
  "3. AVOID DUPLICATES: Review the message history. Do not repeat a search query you have " ++
  "already executed.\n" ++
  "4. FINAL ANSWER FORMAT: Write a complete, well-structured Markdown response. " ++
  "Do NOT format your answer as JSON.\n\n" ++
  currentTaskBlock taskContext ++
  "<research_context>\n" ++ context ++ "\n</research_context>"

/-- `system_content` of `node_vision_detection_agent`. -/
def visionSystem (manifest taskContext context : String) : String :=
  manifest ++ "\n\n" ++
  "You are the VISION_DETECTION_AGENT.\n" ++
  "Resolve tasks regarding object detection, bounding box configurations, or YOLO model " ++
  "variations.\n" ++
  "Write a complete, well-structured Markdown response. Do NOT format your answer as JSON.\n\n" ++
  currentTaskBlock taskContext ++
  "<vision_knowledge_base>\n" ++ context ++ "\n</vision_knowledge_base>"

/-- What distinguishes one executor node from another. -/
structure ExecutorProfile where
  /-- The default its `state.get("current_domain", default)` passes. -/
  defaultDomain : String
  /-- The tier of its model. -/
  tier : ℕ
  /-- The model name whose encoding prunes the history. -/
  pruneModel : GraphSettings → String
  /-- The text it searches long-term memory for. -/
  query : Env → AgentState → String
  /-- Its system prompt, from the manifest, the task context and the memory. -/
  system : String → String → String → String

/-- `node_general_agent`: tier 2, the prompt itself as the query. -/
def generalProfile : ExecutorProfile where
  defaultDomain := "general_memory"
  tier := 2
  pruneModel := GraphSettings.tier2BalancedModel
  query := fun _ s => s.userInitialPrompt
  system := generalSystem

/-- `node_research_paper_agent`: tier 3, the transformed prompt as the query. -/
def researchProfile : ExecutorProfile where
  defaultDomain := "research_papers"
  tier := 3
  pruneModel := GraphSettings.tier3ReasoningModel
  query := fun env s => transformUserQuery env s.userInitialPrompt
  system := researchSystem

/-- `node_vision_detection_agent`: tier 1, the prompt itself as the query. -/
def visionProfile : ExecutorProfile where
  defaultDomain := "vision_detection"
  tier := 1
  pruneModel := GraphSettings.tier1FastModel
  query := fun _ s => s.userInitialPrompt
  system := visionSystem

namespace ExecutorProfile

/-- `current_domain` as the executor reads it. -/
def domain (p : ExecutorProfile) (s : AgentState) : String := s.currentDomain.getD p.defaultDomain

/-- The context retrieved from long-term memory for the user of the state. -/
def context (p : ExecutorProfile) (env : Env) (s : AgentState) : String :=
  env.retrieve (s.userId.getD "UNKNOWN_USER") (p.query env s) (p.domain s)

/-- The messages the executor compiles: the system prompt, then the whole message
channel. -/
def compiledMessages (p : ExecutorProfile) (rt : Runtime) (env : Env) (s : AgentState) :
    List Message :=
  .system (p.system rt.manifest (buildTaskContext s) (p.context env s)) :: s.messages.messages

/-- The messages the executor sends: the compiled ones, pruned. -/
def prompt (p : ExecutorProfile) (rt : Runtime) (env : Env) (s : AgentState) : List Message :=
  pruneMessagesByTokenLimit rt (p.compiledMessages rt env s) rt.settings.maxContextTokens
    (p.pruneModel rt.settings)

/-- The model the executor calls, with the tools of `current_domain`. -/
def model (p : ExecutorProfile) (env : Env) (s : AgentState) : ChatModel :=
  getCachedBoundLlm (p.domain s) (getLlmInstance p.tier (some env.config))

end ExecutorProfile

/-! ### Extraction, evaluation and synthesis -/

/-- The messages of `node_finding_extractor`. -/
def extractionPrompt (executorRaw : String) : List Message :=
  [.human ("You are a precise Information Extraction engine. Your ONLY job is to read the " ++
      "following executor response and extract structured data.\n\n" ++
      "Extract:\n" ++
      "1. result_summary — a concise 1-3 sentence digest capturing the main answer or " ++
      "conclusion.\n" ++
      "2. findings — a list of key factual claims, each with:\n" ++
      "   - statement: a single, self-contained factual sentence\n" ++
      "   - evidence: a quote or citation from the text (optional)\n" ++
      "   - confidence: a float from 0.0 (uncertain) to 1.0 (certain)\n\n" ++
      "<executor_output>\n" ++ executorRaw ++ "\n</executor_output>")]

/-- `state.get("raw_executor_output") or state["messages"][-1].content`. -/
def rawOrLast (s : AgentState) : Except PyError String :=
  match s.rawExecutorOutput with
  | some raw => if raw ≠ "" then .ok raw else (lastMessage s).map Message.content
  | none => (lastMessage s).map Message.content

/-- The messages of `node_critic_agent`. -/
def criticPrompt (rt : Runtime) (s : AgentState) (executorPayload : String) : List Message :=
  [.human ("You are the strict CRITIC_AGENT.\n" ++
      "MASTER OBJECTIVE: " ++ s.getObjective "Provide a comprehensive answer." ++ "\n\n" ++
      "Critically analyze if the Executor fulfilled the objective.\n" ++
      "Provide integer scores (1-10) for tool_quality_score, evidence_quality_score, " ++
      "citation_quality_score, and freshness_score.\n" ++
      "Expose missing data or hallucinated parameters in your feedback.\n\n" ++
      "<executor_payload>\n" ++ executorPayload ++ "\n</executor_payload>\n\n" ++
      "<extracted_findings>\n" ++ rt.strFindings s.extractedFindings ++
      "\n</extracted_findings>\n\n" ++
      "<action_history>\n" ++ rt.strStrings s.actionHistory ++ "\n</action_history>")]

/-- The messages of `node_reflection_agent`. -/
def reflectionPrompt (s : AgentState) (executorPayload : String) : List Message :=
  [.human ("You are the REFLECTION_AGENT.\n" ++
      "Determine if rework is absolutely required. If yes, generate strict instructions. " ++
      "If no, draft a synthesis memo.\n\n" ++
      "<critic_audit>\n" ++ s.criticFeedback.getD "No anomalies detected." ++
      "\n</critic_audit>\n\n" ++
      "<executor_payload>\n" ++ executorPayload ++ "\n</executor_payload>")]

/-- `all_findings`. -/
def allFindings (tasks : List Task) : List String :=
  tasks.flatMap fun t => t.findings.map fun f => "- " ++ f.statement

/-- `all_results`; an empty result counts as none. -/
def allResults (tasks : List Task) : List String :=
  tasks.flatMap fun t =>
    match t.result with
    | some r => if r ≠ "" then ["### Task: " ++ t.desc ++ "\n" ++ r] else []
    | none => []

/-- The messages of `node_final_synthesizer`. -/
def synthesisPrompt (s : AgentState) : List Message :=
  let objective := s.getObjective ((s.messages.last?.map Message.content).getD "")
  let findingsText :=
    if allFindings s.tasks ≠ [] then String.intercalate "\n" (allFindings s.tasks)
    else "No key findings extracted."
  let resultsText :=
    if allResults s.tasks ≠ [] then String.intercalate "\n\n" (allResults s.tasks)
    else "No detailed results available."
  [.human ("You are the FINAL_SYNTHESIZER. Create a highly polished, professional Markdown " ++
      "response that directly addresses the user's request.\n" ++
      "Synthesize the outputs from the completed tasks into a coherent and unified answer. " ++
      "Do not artificially separate the response into 'Key Findings' and 'Detailed Analysis' " ++
      "unless appropriate.\n" ++
      "Extract, deduplicate, and compile any sources/citations into a 'Bibliography' at the " ++
      "end if applicable.\n\n" ++
      "<user_objective>\n" ++ objective ++ "\n</user_objective>\n\n" ++
      "<task_findings>\n" ++ findingsText ++ "\n</task_findings>\n\n" ++
      "<task_results>\n" ++ resultsText ++ "\n</task_results>\n")]

end Graph
end CognitiveEngine
