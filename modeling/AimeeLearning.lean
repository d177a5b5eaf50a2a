import AimeeLearning.Bus.Attach
import AimeeLearning.Bus.AttachCalls
import AimeeLearning.Bus.AttachCustody
import AimeeLearning.Bus.AttachGeometry
import AimeeLearning.Bus.CallCleanup
import AimeeLearning.Bus.CallDeadline
import AimeeLearning.Bus.CallSession
import AimeeLearning.Bus.CallerReply
import AimeeLearning.Bus.CallerWait
import AimeeLearning.Bus.Cancellation
import AimeeLearning.Bus.ChannelFifo
import AimeeLearning.Bus.ClientLifetime
import AimeeLearning.Bus.ClientPlacement
import AimeeLearning.Bus.ClientRelay
import AimeeLearning.Bus.Codecs
import AimeeLearning.Bus.HeartbeatGap
import AimeeLearning.Bus.JobTable
import AimeeLearning.Bus.ModuleCaller
import AimeeLearning.Bus.ModuleFrames
import AimeeLearning.Bus.ModuleProtocol
import AimeeLearning.Bus.ModuleRuntime
import AimeeLearning.Bus.ModuleRuntimeInvariants
import AimeeLearning.Bus.ModuleRuntimeSteps
import AimeeLearning.Bus.OrderlyStop
import AimeeLearning.Bus.PairRegions
import AimeeLearning.Bus.RemoteCall
import AimeeLearning.Bus.RemoteProcess
import AimeeLearning.Bus.RequestAtomicity
import AimeeLearning.Bus.RequestLimit
import AimeeLearning.Bus.RingProperties
import AimeeLearning.Bus.SlotGeometry
import AimeeLearning.Bus.StageCompletion
import AimeeLearning.Bus.StageProcess
import AimeeLearning.Bus.StageService
import AimeeLearning.Bus.Timeliness
import AimeeLearning.Bus.Wire
import AimeeLearning.Learning.Actions
import AimeeLearning.Learning.Bundle
import AimeeLearning.Learning.CallEvents
import AimeeLearning.Learning.CandidateLifecycle
import AimeeLearning.Learning.CapturedPayload
import AimeeLearning.Learning.Corroboration
import AimeeLearning.Learning.DispatchExact
import AimeeLearning.Learning.DispatchTrace
import AimeeLearning.Learning.EscapeBuffer
import AimeeLearning.Learning.Evidence
import AimeeLearning.Learning.EvidenceCapture
import AimeeLearning.Learning.EvidenceKeys
import AimeeLearning.Learning.Implicit
import AimeeLearning.Learning.IntegrityGate
import AimeeLearning.Learning.JsonText
import AimeeLearning.Learning.Lifecycle
import AimeeLearning.Learning.ProcessRuns
import AimeeLearning.Learning.PromotionAtomicity
import AimeeLearning.Learning.PromotionDecision
import AimeeLearning.Learning.ProposalJson
import AimeeLearning.Learning.Router
import AimeeLearning.Learning.RouterCommit
import AimeeLearning.Learning.RouterQueue
import AimeeLearning.Learning.SignalRefusal
import AimeeLearning.Learning.SinkCaps
import AimeeLearning.Learning.SinkEffects
import AimeeLearning.Learning.SnapshotScan
import AimeeLearning.Learning.Store
import AimeeLearning.Learning.TouchedRows
import AimeeLearning.Learning.WeeklyCap
import AimeeLearning.Library.Assoc
import AimeeLearning.Library.Attempt
import AimeeLearning.Library.Bytes
import AimeeLearning.Library.Custody
import AimeeLearning.Library.Emissions
import AimeeLearning.Library.Fragments
import AimeeLearning.Library.JsonGrammar
import AimeeLearning.Library.Machine
import AimeeLearning.Library.Ranking
import AimeeLearning.Library.Spacing
import AimeeLearning.Library.StepHash
import AimeeLearning.Library.Table
import AimeeLearning.Library.Traced
import AimeeLearning.Library.Utf8
import AimeeLearning.Observe.Classification
import AimeeLearning.Observe.LearningProcess
import AimeeLearning.Observe.Parity
