import HyprlandAgent.Coroutine.Loop
import HyprlandAgent.Transition
import HyprlandAgent.Schemas
import HyprlandAgent.Safety.Allowlist
import HyprlandAgent.Store
import HyprlandAgent.Store.WriteOrder
import HyprlandAgent.Store.Cache
import HyprlandAgent.Sql.Session
import HyprlandAgent.Store.Recovery
import HyprlandAgent.Store.VecTables
import HyprlandAgent.Store.References
import HyprlandAgent.Effects
import HyprlandAgent.Tools.Terminal
import HyprlandAgent.Awareness
import HyprlandAgent.Orchestrator.Outline
import HyprlandAgent.Daemon.FocusGate
import HyprlandAgent.Daemon.RowLifecycle
import HyprlandAgent.Daemon.Completion
import HyprlandAgent.Daemon.Feedback
import HyprlandAgent.Daemon.KillSwitch
import HyprlandAgent.Ipc.RoundTrip
import HyprlandAgent.Daemon.Delivery
import HyprlandAgent.Daemon.TopicTables
import HyprlandAgent.Client.Connection
import HyprlandAgent.Learning.Grants
import HyprlandAgent.Voice.RingBuffer
import HyprlandAgent.Safety.RateLimit
import HyprlandAgent.Brain.Clicks
import HyprlandAgent.Brain.Rounds
import HyprlandAgent.Brain.Pairing
import HyprlandAgent.Tools.Filesystem
import HyprlandAgent.Memory.Episodic
import HyprlandAgent.Integrations.Idle
import HyprlandAgent.Voice.Pipeline
import HyprlandAgent.Daemon.DropOldest
import HyprlandAgent.Brain.Compaction
import HyprlandAgent.Daemon.RuleRunner
import HyprlandAgent.Learning.Lookup
import HyprlandAgent.Learning.RuleApproval
import HyprlandAgent.Learning.Reflection
import HyprlandAgent.Memory.Ingest
import HyprlandAgent.Safety.Sanitize
import HyprlandAgent.Ipc.Decoding
import HyprlandAgent.Orchestrator.ProcessTree
import HyprlandAgent.Tools.ReadFile
import HyprlandAgent.Daemon.EventMatching
import HyprlandAgent.Tools.EventStream
import HyprlandAgent.Config.Ranges
import HyprlandAgent.Brain.Router
import HyprlandAgent.Learning.AllowlistMining
import HyprlandAgent.Learning.RuleMining
import HyprlandAgent.Voice.Redact
import HyprlandAgent.Reconnect
import HyprlandAgent.Consumers.RunTopic
import HyprlandAgent.Consumers.Waybar
import HyprlandAgent.Consumers.Sidecar
import HyprlandAgent.Semaphore
import HyprlandAgent.Learning.Consumer
import HyprlandAgent.Coroutine.Monitor
import HyprlandAgent.Orchestrator.Guard
import HyprlandAgent.Orchestrator.Mediation
import HyprlandAgent.JsonText
import HyprlandAgent.JsonUtf8
import HyprlandAgent.Ipc.Inverse
import HyprlandAgent.Daemon.Replies
import HyprlandAgent.Client.Session
import HyprlandAgent.Places
import HyprlandAgent.AsyncLock
import HyprlandAgent.Dumps
import HyprlandAgent.Daemon.AuditLog
import HyprlandAgent.Sql.Keyed
import HyprlandAgent.Store.Tables
import HyprlandAgent.Sql.Grouped
import HyprlandAgent.Store.Analytics
import HyprlandAgent.Memory.Recall
import HyprlandAgent.Daemon.Handshake
import HyprlandAgent.Orchestrator.Children
import HyprlandAgent.Integrations.Registry
