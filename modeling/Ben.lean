import Ben.Orchestrator.RecoverTable
import Ben.Orchestrator.CycleEvents
import Ben.Orchestrator.TakeTurns
import Ben.Orchestrator.Budgets
import Ben.Orchestrator.Scanning
import Ben.Orchestrator.Baselines
import Ben.Orchestrator.Arbitration
import Ben.Review.Reapproval
import Ben.Review.Order
import Ben.Review.Once
import Ben.ReviewRun.Starting
import Ben.ReviewRun.Output
import Ben.Tracker.Announce
import Ben.Tracker.Rates
import Ben.Remote.Replaying
import Ben.Remotews.Rollback
import Ben.Reviewctl.Pacing
import Ben.Harness.Redact
import Ben.State.Jsonl
import Ben.Airlock.Chunks
import Ben.Orchestrator.Backoff
import Ben.Template.Shell
import Ben.Remote.Lines
