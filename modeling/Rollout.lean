import Rollout.Codec.Offer
import Rollout.Json.Reader
import Rollout.Main
import Rollout.Milestone
import Rollout.Proofs.Plan.Locations
import Rollout.Proofs.Statuses
import Rollout.Proofs.Step.Actions
import Rollout.Proofs.TaskIds
import Rollout.Proofs.Broadcast
import Rollout.Proofs.Plan.Evolution
import Rollout.Proofs.Plan.Passes
import Rollout.Proofs.Plan.Operations
import Rollout.Proofs.Plan.Built
import Rollout.Proofs.SerialOrder
import Rollout.Proofs.LaunchedTasks
import Rollout.Proofs.Arrangements
import Rollout.Proofs.Rehearsal.Answers
import Rollout.Proofs.Rehearsal.Launching
import Rollout.Proofs.Rehearsal.Rounds
import Rollout.Proofs.Convergence
import Rollout.Proofs.Step.Coherence
import Rollout.Proofs.DerivedStatus
import Rollout.Proofs.LatestReport
import Rollout.Proofs.Redeployment
import Rollout.Proofs.Negotiation
import Rollout.Proofs.PodNames
import Rollout.Proofs.CandidateSteps
import Rollout.Proofs.InvalidPods
import Rollout.Proofs.AwaitedReports
import Rollout.Proofs.Addressees
import Rollout.Proofs.ReportOrder
import Rollout.Proofs.StepNames
import Rollout.Proofs.Restarts
import Rollout.Proofs.Progress
import Rollout.Proofs.Delivery
import Rollout.Proofs.PassOutcomes
import Rollout.Proofs.LaunchReports
import Rollout.Proofs.OfferOutcomes
import Rollout.Proofs.SlotBalance
import Rollout.Proofs.PlanStatus
import Rollout.Proofs.BuiltPlans
import Rollout.Proofs.Service.RoundTrip
import Rollout.Proofs.Strategies
import Rollout.Proofs.Parameters
import Rollout.Proofs.RehearsalLimits
import Rollout.Proofs.ReportedOnce
import Rollout.Proofs.TaskIdGrammar
import Rollout.Proofs.Snapshot.Lines
import Rollout.Proofs.JsonTexts
