import Yantra.Lib.CodePoints
import Yantra.Lib.Decimal
import Yantra.Lib.Fifo
import Yantra.Lib.Filling
import Yantra.Lib.Holes
import Yantra.Lib.JsText
import Yantra.Lib.Json
import Yantra.Lib.JsonSize
import Yantra.Lib.Ladder
import Yantra.Lib.Machine
import Yantra.Lib.OrderedMap
import Yantra.Lib.Places
import Yantra.Lib.Recurrence
import Yantra.Lib.Regex
import Yantra.Lib.Rows
import Yantra.Lib.Threaded
import Yantra.Lib.Tokens
import Yantra.Lib.Utf16
import Yantra.Lib.Utf8
import Yantra.Lib.Words
import Yantra.Protocol.Refs
import Yantra.Protocol.Schema
import Yantra.Protocol.Semantic
import Yantra.Protocol.Steps
import Yantra.Protocol.Value
import Yantra.Executor.ConsentGate
import Yantra.Executor.EventBus
import Yantra.Executor.EventLog
import Yantra.Executor.EvidenceLedger
import Yantra.Executor.Handlers
import Yantra.Executor.LoopSemantics
import Yantra.Executor.References
import Yantra.Executor.Run
import Yantra.Executor.Stores
import Yantra.Executor.Substitution
import Yantra.Executor.Termination
import Yantra.Executor.ValueResolver
import Yantra.Workflow.Expressions
import Yantra.Workflow.File
import Yantra.Workflow.Outputs
import Yantra.Workflow.ParamsResolver
import Yantra.Workflow.Resume
import Yantra.Workflow.RoundTrip
import Yantra.Workflow.Yaml
import Yantra.Scheduler.Daemon
import Yantra.Scheduler.Gaps
import Yantra.Scheduler.HumanConsent
import Yantra.Scheduler.Lifecycle
import Yantra.Scheduler.Overlap
import Yantra.Scheduler.ParkedRuns
import Yantra.Extraction.Anchors
import Yantra.Extraction.DocumentStore
import Yantra.Extraction.PageLinks
import Yantra.Extraction.PageTables
import Yantra.Extraction.ReadOnce
import Yantra.Extraction.SearchRuns
import Yantra.Extraction.SearchService
import Yantra.Sanitizer.Keywords
import Yantra.Sanitizer.Lossless
import Yantra.Sanitizer.MarkerRoundTrip
import Yantra.Sanitizer.Markers
import Yantra.Sanitizer.MaskScan
import Yantra.Sanitizer.MaskSound
import Yantra.Sanitizer.Noninterference
import Yantra.Sanitizer.Placeholders
import Yantra.Sanitizer.Redaction
import Yantra.Sanitizer.Strippers
import Yantra.Sanitizer.Structured
import Yantra.Sanitizer.UserInput
import Yantra.Agent.ActionTerms
import Yantra.Agent.BriefComposer
import Yantra.Agent.BriefRules
import Yantra.Agent.Budget
import Yantra.Agent.Captures
import Yantra.Agent.Contract
import Yantra.Agent.ContractDelivery
import Yantra.Agent.DeclareQueue
import Yantra.Agent.Delivery
import Yantra.Agent.DeliveryGaps
import Yantra.Agent.EvidenceMarkers
import Yantra.Agent.EvidenceRefs
import Yantra.Agent.FillUnits
import Yantra.Agent.Filters
import Yantra.Agent.Fulfillment
import Yantra.Agent.Ledger
import Yantra.Agent.ListedFill
import Yantra.Agent.MarkdownTables
import Yantra.Agent.MarkerRewrite
import Yantra.Agent.Normalize
import Yantra.Agent.Progress
import Yantra.Agent.Publication
import Yantra.Agent.Recovery
import Yantra.Agent.Requirements
import Yantra.Agent.RunEvents
import Yantra.Agent.RunOutcome
import Yantra.Agent.StallWindow
import Yantra.Agent.StuckLoop
import Yantra.Agent.SubmitPolicy
import Yantra.Agent.ToolCalls
import Yantra.Agent.ToolGuards
import Yantra.Agent.UrlPolicy
import Yantra.Agent.UrlProvenance
import Yantra.Browser.Coordination
import Yantra.Browser.Exclusion
import Yantra.Browser.PageLaunches
import Yantra.Browser.PagePool
import Yantra.Browser.PagePoolSafety
import Yantra.Browser.PageSlots
import Yantra.Commands.Format
import Yantra.Commands.PowerShell
import Yantra.Commands.Shells
import Yantra.Ethics.Gate
import Yantra.Ethics.RateLimiter
import Yantra.IndexDb.FaithfulCache
import Yantra.IndexDb.History
import Yantra.IndexDb.PreferenceStore
import Yantra.Interaction.Choice
import Yantra.Interaction.DeltaBound
import Yantra.Interaction.DeltaExactness
import Yantra.Interaction.Differ
import Yantra.Interaction.DistinguishingPrefix
import Yantra.Interaction.Escalation
import Yantra.Interaction.EscalationLedger
import Yantra.Interaction.PageDelta
import Yantra.Interaction.Resolution
import Yantra.Interaction.Text
import Yantra.Interaction.TypedText
import Yantra.Interaction.TypingPlan
import Yantra.Interaction.WholeWords
import Yantra.Locator.AutoWait
import Yantra.Locator.Resolver
import Yantra.ReportTemplate.Body
import Yantra.ReportTemplate.Parse
import Yantra.ReportTemplate.Render
import Yantra.ReportTemplate.Slots
import Yantra.Research.Admission
import Yantra.Research.Corpus
import Yantra.Research.Loop
import Yantra.Research.Queries
import Yantra.Secrets.HostBinding
import Yantra.Synthesis.Anchoring
import Yantra.Synthesis.CitationValidator
import Yantra.Synthesis.ClusterOrder
import Yantra.Synthesis.Clustering
import Yantra.Widgets.Calendar
import Yantra.Widgets.CalendarSafety
import Yantra.Widgets.CandidateClick
import Yantra.Widgets.FillIntent
import Yantra.Widgets.RenderedDates
import Yantra.Widgets.Verify
import Yantra.Widgets.VirtualList
import Yantra.Research.Novelty
