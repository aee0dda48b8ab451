import ControlCenter.Session
import ControlCenter.ActionLogic
import ControlCenter.JournalView
import ControlCenter.JournalRefinement
import ControlCenter.SessionRuns
import ControlCenter.OverflowCrash
import ControlCenter.OverAcknowledgement
import ControlCenter.EventBatches
import ControlCenter.Db
import ControlCenter.DbReviews
import ControlCenter.Dialogue
import ControlCenter.Reliance
import ControlCenter.Ports
import ControlCenter.Coordinator
import ControlCenter.Execution
import ControlCenter.Operations
import ControlCenter.System
import ControlCenter.Admission
import ControlCenter.EpochFencing
import ControlCenter.ReplayProtection
import ControlCenter.DurableRecords
import ControlCenter.SealedEnvelopes
import ControlCenter.OfferLedger
import ControlCenter.OfferAgreement
import ControlCenter.OfferIdentity
import ControlCenter.WriteThrough
import ControlCenter.FlowControl
import ControlCenter.LeaseQueue
import ControlCenter.CoordinatorBridge
import ControlCenter.LeaseRecovery
import ControlCenter.DbRuns
import ControlCenter.TaskClaims
import ControlCenter.Transactions
import ControlCenter.TaskRecovery
import ControlCenter.WriteLane
import ControlCenter.IdempotentRequests
import ControlCenter.DaemonLeases
import ControlCenter.Interference
import ControlCenter.AcceptedExecution
import ControlCenter.AcceptedProgress
import ControlCenter.SessionReports
import ControlCenter.CompletionDelivery
import ControlCenter.ArtifactFiles
import ControlCenter.CompletionEvidence
import ControlCenter.MigrationRuns
import ControlCenter.JsonText
import ControlCenter.LeaseExclusion
import ControlCenter.CanonicalForm
import ControlCenter.LeaseCrashes
import ControlCenter.EventStream
import ControlCenter.ArtifactRecords
import ControlCenter.ImmutableEvidence
import ControlCenter.EnvelopeAcceptance
import ControlCenter.CanonicalTexts
import ControlCenter.SealRoundTrip
import ControlCenter.StatusMachines
import ControlCenter.ReviewDecisions
import ControlCenter.StepOrder
import ControlCenter.VerificationCommand
import ControlCenter.IndependentWrites
import ControlCenter.OpenClawLog
import ControlCenter.OpenClawRuns
import ControlCenter.ProcessSupervisor
import ControlCenter.ApiErrors
import ControlCenter.Interruptions
import ControlCenter.Redelivery
import ControlCenter.ApiProjections
import ControlCenter.CliOutput
import ControlCenter.StoreEquivalence
import ControlCenter.EvidenceRevisions
import ControlCenter.CallSources
import ControlCenter.Guarantees
import ControlCenter.OwnerFencing
import ControlCenter.SingleRunner
import ControlCenter.Attempts
import ControlCenter.HumanGate
import ControlCenter.RemoteCalls
import ControlCenter.AttemptProgress
import ControlCenter.StepReferences
import ControlCenter.ReviewCaptures
import ControlCenter.ProcessRuns
