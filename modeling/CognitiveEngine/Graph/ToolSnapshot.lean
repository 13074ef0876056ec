/-
# The tools of the tools node

`DynamicMcpClientManager` (`app/mcp/mcp_client.py`) starts with an empty list of tools
and gets its list when `initialize_all_servers` has connected to the configured
servers.  `get_tools_by_domain` asks for the list each time.  The tools node of the
graph is built when the module `workflow` is imported, of the list there is then, and
the initialization does not change that list but puts another in its place.

So the tools node has no tool for as long as the process lives.
`tools_executable_iff` says when that makes no difference: no tool the servers return
is registered for a domain.

What connecting to a server comes to is given: its tools, or the exception that is
logged.  An exception outside the `try` ends the initialization.
-/

import Mathlib.Data.List.Induction
import CognitiveEngine.Graph.DomainIsolation

namespace CognitiveEngine
namespace Graph

/-! ### Configuration values -/

/-- The characters of a text, each a text. -/
def charTexts (s : String) : List Json := s.toList.map fun c => .str (String.ofList [c])

/-- What a `for` loop gets of a value; `none` when it cannot be iterated. -/
def Json.iterated : Json → Option (List Json)
  | .arr items => some items
  | .obj members => some (members.map fun member => .str member.1)
  | .str s => some (charTexts s)
  | _ => none

/-- `bool(value)`. -/
def Json.truthy : Json → Bool
  | .null => false
  | .bool b => b
  | .int n => n ≠ 0
  | .float x => x ≠ 0
  | .str s => s ≠ ""
  | .arr items => items ≠ []
  | .obj members => members ≠ []

/-- The value can be the key of a dictionary. -/
def Json.hashable : Json → Bool
  | .arr _ | .obj _ => false
  | _ => true

/-- An element `dict.update` takes for a key and its value. -/
def Json.isEntry (value : Json) : Bool :=
  match value.iterated with
  | some [key, _] => key.hashable
  | _ => false

/-- `env.update(value)` does not raise. -/
def Json.updatesEnv : Json → Bool
  | .obj _ => true
  | value => (value.iterated.map fun items => items.all Json.isEntry).getD false

/-! ### The manager -/

/-- What there is under `CONFIG_PATH`: no file, a file `json.load` raises on, or a
value. -/
inductive ConfigFile where
  | missing
  | unparsable
  | content (value : Json)

/-- `DynamicMcpClientManager`, without its sessions. -/
structure McpManager where
  langchainTools : List BaseTool
  isInitialized : Bool

/-- `mcp_manager` when its module has been imported. -/
def McpManager.new : McpManager := ⟨[], false⟩

/-- `get_mcp_tools`. -/
def getMcpTools (manager : McpManager) : List BaseTool := manager.langchainTools

/-- One round of the loop over `servers_config`: the tools the server adds, none if
connecting to it failed; `none` when the round raises, as `config` is no object or its
`env` no dictionary. -/
def loadServer (config : Json) (connected : Option (List BaseTool)) : Option (List BaseTool) :=
  match config with
  | .obj members =>
      match members.lookup "env" with
      | some env =>
          if env.truthy && !env.updatesEnv then none else some (connected.getD [])
      | none => some (connected.getD [])
  | _ => none

/-- The loop over `servers_config`, from the `i`-th entry on: `all_converted_tools`.
`connect` says what connecting to the server of each entry comes to. -/
def loadServers (connect : ℕ → Option (List BaseTool)) : ℕ → List Json → Option (List BaseTool)
  | _, [] => some []
  | i, config :: configs => do
      let tools ← loadServer config (connect i)
      let more ← loadServers connect (i + 1) configs
      return tools ++ more

/-- The tools an initialization loads; `none` when it ends before, with an empty list
or an exception. -/
def ConfigFile.load (file : ConfigFile) (connect : ℕ → Option (List BaseTool)) :
    Option (List BaseTool) :=
  match file with
  | .missing | .unparsable => none
  | .content value => value.iterated.bind (loadServers connect 0)

/-- `initialize_all_servers`: what it returns, `none` when it raises, and the manager
afterwards. -/
def initializeAllServers (file : ConfigFile) (connect : ℕ → Option (List BaseTool))
    (manager : McpManager) : Option (List BaseTool) × McpManager :=
  if manager.isInitialized then (some manager.langchainTools, manager)
  else
    match file with
    | .missing | .unparsable => (some [], manager)
    | .content _ =>
        match file.load connect with
        | some tools => (some tools, ⟨tools, true⟩)
        | none => (none, manager)

/-! ### The process -/

/-- A process: the manager, and the tools its tools node was built with. -/
structure Process where
  manager : McpManager
  toolNode : List BaseTool

/-- The module `workflow` has been imported. -/
def Process.imported : Process := ⟨.new, getMcpTools .new⟩

/-- What happens in a process: an initialization, or a chat request, which leaves the
manager and the graph as they are. -/
inductive ProcessStep where
  | startServers (file : ConfigFile) (connect : ℕ → Option (List BaseTool))
  | request (request : ChatRequest)

/-- The process after a step. -/
def Process.step (p : Process) : ProcessStep → Process
  | .startServers file connect => { p with manager := (initializeAllServers file connect p.manager).2 }
  | .request _ => p

/-- The process after some steps. -/
def Process.after (steps : List ProcessStep) : Process := steps.foldl Process.step .imported

/-- Every tool an agent can be given can be executed. -/
def Process.Executable (p : Process) : Prop :=
  ∀ domain, ∀ tool ∈ getToolsByDomain (getMcpTools p.manager) domain, tool ∈ p.toolNode

/-- The tools a step loads if none has before. -/
def ProcessStep.loaded : ProcessStep → Option (List BaseTool)
  | .startServers file connect => file.load connect
  | .request _ => none

/-! ### What the manager has loaded -/

/-- An initialization has an effect when it loads something and none has before. -/
theorem initializeAllServers_snd (file : ConfigFile) (connect : ℕ → Option (List BaseTool))
    (manager : McpManager) :
    (initializeAllServers file connect manager).2
      = if manager.isInitialized then manager
        else ((file.load connect).map fun tools => ⟨tools, true⟩).getD manager := by
  unfold initializeAllServers
  split
  · rfl
  · cases file with
    | missing => rfl
    | unparsable => rfl
    | content value =>
        cases (ConfigFile.content value).load connect with
        | none => rfl
        | some tools => rfl

/-- The manager after the first tools have been loaded. -/
def McpManager.ofLoaded : Option (List BaseTool) → McpManager
  | some tools => ⟨tools, true⟩
  | none => .new

/-- **What a process has:** the tools of the first initialization that loaded some, and
a tools node without any. -/
theorem after_eq (steps : List ProcessStep) :
    Process.after steps = ⟨.ofLoaded (steps.findSome? ProcessStep.loaded), []⟩ := by
  induction steps using List.reverseRecOn with
  | nil => rfl
  | append_singleton steps s ih =>
      have hafter : Process.after (steps ++ [s]) = (Process.after steps).step s := by
        rw [Process.after, List.foldl_append]
        rfl
      rw [hafter, ih, List.findSome?_append, List.findSome?_singleton]
      cases s with
      | request request =>
          rw [ProcessStep.loaded, Option.or_none]
          rfl
      | startServers file connect =>
          rw [Process.step, initializeAllServers_snd, ProcessStep.loaded]
          cases steps.findSome? ProcessStep.loaded with
          | some tools => rfl
          | none =>
              cases file.load connect with
              | none => rfl
              | some tools => rfl

/-- A process without a tools node of its own can execute what no domain has. -/
theorem executable_after_iff (steps : List ProcessStep) :
    (Process.after steps).Executable ↔
      ∀ tools, steps.findSome? ProcessStep.loaded = some tools →
        ∀ tool ∈ tools, ∀ domain, tool.name ∉ allowedToolNames domain := by
  have hnode : (Process.after steps).Executable ↔
      ∀ domain, getToolsByDomain
        (McpManager.ofLoaded (steps.findSome? ProcessStep.loaded)).langchainTools domain = [] := by
    rw [Process.Executable, after_eq]
    exact forall_congr' fun domain => List.subset_nil
  rw [hnode]
  cases steps.findSome? ProcessStep.loaded with
  | none => exact iff_of_true (fun _ => rfl) fun tools h => absurd h.symm (Option.some_ne_none tools)
  | some tools =>
      have hnil : ∀ domain, getToolsByDomain tools domain = [] ↔
          ∀ tool ∈ tools, tool.name ∉ allowedToolNames domain := by
        intro domain
        rw [getToolsByDomain, List.filter_eq_nil_iff]
        simp only [decide_eq_true_iff]
      constructor
      · intro h tools' heq tool htool domain
        obtain rfl := Option.some.inj heq
        exact (hnil domain).1 (h domain) tool htool
      · intro h domain
        exact (hnil domain).2 fun tool htool => h tools rfl tool htool domain

/-- **When every tool an agent can be given can be executed**, at every moment of a
process: the first tools that are loaded are registered for no domain. -/
theorem tools_executable_iff (steps : List ProcessStep) :
    (∀ ran, ran <+: steps → (Process.after ran).Executable) ↔
      ∀ tools, steps.findSome? ProcessStep.loaded = some tools →
        ∀ tool ∈ tools, ∀ domain, tool.name ∉ allowedToolNames domain := by
  constructor
  · intro h
    exact (executable_after_iff steps).1 (h steps (List.prefix_refl steps))
  · rintro h ran ⟨rest, rfl⟩
    refine (executable_after_iff ran).2 fun tools htools => h tools ?_
    rw [List.findSome?_append, htools, Option.some_or]

/-- The configuration in the repository, and what its server returns. -/
def shippedConfig : ConfigFile :=
  .content (.arr [.obj [("name", .str "internal-custom-tools"), ("command", .str "python"),
    ("args", .arr [.str "-m", .str "app.mcp.server"])]])

/-- The server of `app/mcp/server.py` is reached. -/
def shippedServer : ℕ → Option (List BaseTool) :=
  fun _ => some [⟨"calculate_execution_time"⟩, ⟨"search_web"⟩]

/-- With the shipped configuration the agents get tools that cannot be executed. -/
theorem shipped_tools_missing :
    ¬ ∀ steps : List ProcessStep, ∀ ran, ran <+: steps → (Process.after ran).Executable := by
  intro h
  have hloaded : (Process.after [.startServers shippedConfig shippedServer]).manager.langchainTools
      = [⟨"calculate_execution_time"⟩, ⟨"search_web"⟩] := rfl
  have hallowed : "search_web" ∈ allowedToolNames "research_papers" := by decide
  have hgiven : ⟨"search_web"⟩ ∈ getToolsByDomain (getMcpTools
      (Process.after [.startServers shippedConfig shippedServer]).manager) "research_papers" := by
    rw [getMcpTools, hloaded]
    exact List.mem_filter.2 ⟨by simp, decide_eq_true hallowed⟩
  exact absurd (h _ _ (List.prefix_refl _) "research_papers" _ hgiven) List.not_mem_nil

end Graph
end CognitiveEngine
