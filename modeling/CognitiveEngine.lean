import CognitiveEngine.Graph.Termination
import CognitiveEngine.Graph.Independence
import CognitiveEngine.Graph.ReworkCap
import CognitiveEngine.Graph.Lanes
import CognitiveEngine.Graph.ToolMessages
import CognitiveEngine.Graph.TaskRegistry
import CognitiveEngine.Machine.JoinedKey
import CognitiveEngine.Machine.Trace
import CognitiveEngine.Server.Threads
import CognitiveEngine.Server.Conversations
import CognitiveEngine.Server.SemanticCache
import CognitiveEngine.Server.Streaming
import CognitiveEngine.Server.Chat
import CognitiveEngine.Server.Privacy
import CognitiveEngine.Server.Refinement
import CognitiveEngine.Graph.DomainIsolation
import CognitiveEngine.Graph.TurnFields
import CognitiveEngine.Graph.TurnPrompt
import CognitiveEngine.Machine.LastWrite
import CognitiveEngine.Memory.FactStore
import CognitiveEngine.Memory.Worker
import CognitiveEngine.Machine.Pieces
import CognitiveEngine.Server.StreamEvents
import CognitiveEngine.Server.CachedAnswers
import CognitiveEngine.Server.Receipts
import CognitiveEngine.Server.AnonymousCalls
import CognitiveEngine.Web.ChatController
import CognitiveEngine.Machine.Reads
import CognitiveEngine.Machine.Utf8
import CognitiveEngine.Web.ChatStream
import CognitiveEngine.Server.CacheRoundTrip
import CognitiveEngine.Server.CacheVersions
import CognitiveEngine.Memory.Recall
import CognitiveEngine.Graph.ToolSnapshot
import CognitiveEngine.Llm.Resolution
import CognitiveEngine.Server.CacheModelVersion
import CognitiveEngine.Server.ConfigReading
import CognitiveEngine.Llm.Caches
import CognitiveEngine.Llm.TenantIsolation
import CognitiveEngine.Llm.Freshness
import CognitiveEngine.Server.KeyDestination
import CognitiveEngine.Web.Accounts
import CognitiveEngine.Web.Sessions
import CognitiveEngine.Memory.Pruning
import CognitiveEngine.Server.FreshDeployment
import CognitiveEngine.Server.Partitions
import CognitiveEngine.Memory.Redelivery
import CognitiveEngine.Machine.Tokenizer
import CognitiveEngine.Mcp.WebSearch
import CognitiveEngine.Mcp.SearchBudget
import CognitiveEngine.Machine.JsonLiterals
import CognitiveEngine.Mcp.JsonText
import CognitiveEngine.Mcp.Handshake
import CognitiveEngine.Memory.SeenPrompts
import CognitiveEngine.Graph.TokenPruning
import CognitiveEngine.Graph.ActiveTask
import CognitiveEngine.Graph.AnswersKept
import CognitiveEngine.Graph.ReworkAdvice
import CognitiveEngine.Graph.ToolFingerprints
import CognitiveEngine.Mcp.TokenExpiry
import CognitiveEngine.Memory.PruningExact
import CognitiveEngine.Machine.EventStream
import CognitiveEngine.Server.ReceiptEvents
import CognitiveEngine.Machine.Dict
import CognitiveEngine.Machine.StableSort
import CognitiveEngine.Retrieval.RankFusion
import CognitiveEngine.Web.SessionCap
import CognitiveEngine.Llm.ProcessRuns
import CognitiveEngine.Llm.BoundTools
import CognitiveEngine.Llm.CallerConfiguration
import CognitiveEngine.Machine.Unwinding
import CognitiveEngine.Server.StreamGauges
import CognitiveEngine.Bootstrap.Container
import CognitiveEngine.Memory.StoreMap
import CognitiveEngine.Graph.Counters
import CognitiveEngine.Graph.SafeguardMetrics
import CognitiveEngine.Graph.Sandboxing
import CognitiveEngine.Machine.WorkQueue
import CognitiveEngine.Server.ExtractionQueue
import CognitiveEngine.Server.FrontEnds
import CognitiveEngine.Web.ConcurrentSessions
import CognitiveEngine.Web.Continuity
import CognitiveEngine.Machine.TopK
import CognitiveEngine.Server.BestMatch
import CognitiveEngine.Server.SerialThreads
import CognitiveEngine.Machine.RelyGuarantee
import CognitiveEngine.Retrieval.Bm25
import CognitiveEngine.Server.CollectionSetup
import CognitiveEngine.Server.MemoryLoop
import CognitiveEngine.Server.StreamCounters
import CognitiveEngine.Memory.ConcurrentPruning
