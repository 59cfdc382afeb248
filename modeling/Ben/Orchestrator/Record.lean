import Ben.Orchestrator.State
import Ben.Orchestrator.RecoverClassify

/-!
# What the authority loop owns

The loop is the only writer of the run records, the retained claims, the ended-cycle obligations
and the pending marker removals.  This module has their types and the configuration the loop
reads.  A record is addressed by its tenure token, which is never reused, so a token plays the
part of the source's pointer: a record that was removed from the table is still there to be
read by code that holds it.
-/

namespace Ben

/-- A tenure token. -/
abbrev Token := Nat

/-- A run handle of a tenure, named by the generation of the attempt it was returned for. -/
abbrev Handle := Nat

/-- A workspace provider: its root, and which of the optional interfaces it implements. -/
structure Workspaces where
  root : String := ""
  afterRunner : Bool := false
  lifecycleCompleter : Bool := false
  endedCycleSource : Bool := false
  cycleApprovalSource : Bool := false
  deriving DecidableEq, Repr

variable [Platform]

/-- The limits of the workflow definition. -/
structure Limits where
  maxConcurrentAgents : Int := 1
  maxAttempts : Int := 1
  maxTurns : Int := 1
  maxCostUSD : Option Cost := none
  stallTimeoutMS : Int := 0
  attemptTimeoutMS : Int := 0

/-- A workflow definition. -/
structure Definition where
  prompt : String := ""
  requiredLabels : List String := []
  activeStates : List String := []
  root : String := ""
  limits : Limits := {}

/-- The adapters built from a definition. -/
structure Bundle where
  definition : Definition := {}
  workspaces : Workspaces := {}
  agent : AgentDescriptor := {}
  claimPrincipal : String := ""
  remoteURL : String := ""
  /-- The bundle can resolve a run by its evidence. -/
  resolveRun : Bool := false

/-- What work must not outlive a change of. -/
structure Identity where
  principal : String
  remoteURL : String
  root : String
  deriving DecidableEq, Repr

/-- The identity a bundle acts under. -/
def Bundle.identity (b : Bundle) : Identity := ⟨b.claimPrincipal, b.remoteURL, b.definition.root⟩

/-- The configuration in force. -/
structure Snapshot where
  definition : Definition := {}
  runtime : Bundle := {}
  blocked : Option Err := none
  revision : Nat := 1

/-! ## Effects -/

/-- What an owed effect does when it runs. -/
inductive Effect where
  | setStateLabels (issue : Issue) (label : StateLabel)
  | comment (issue : Issue) (comment : MilestoneComment)
  | release (issue : Issue)
  | afterRun (ws : Workspace)
  | disposePublished (ws : Workspace)
  | disposeRevoked (ws : Workspace) (keep : Bool)
  | completeFailure (ws : Workspace)
  | completeShutdown (ws : Workspace)
  | abandonPendingClaimBase (issue : Issue)
  | forget
  deriving DecidableEq, Repr

/-- Whether an effect writes to the tracker or locally. -/
inductive EffectTarget where
  | tracker
  | localSide
  deriving DecidableEq, Repr

/-- An effect a record owes: what it is called, where it writes, whether it projects a state
label, and what it does. -/
structure OwedEffect where
  what : String
  target : EffectTarget
  projection : Bool := false
  does : Effect
  deriving DecidableEq, Repr

/-- The name of the effect that projects a fresh claim. -/
def effectClaimLabel : String := "project ben:claimed"

/-- The name of the effect that abandons a pending claim base. -/
def effectAbandonClaimBase : String := "abandon pending claim base"

/-- The name of the effect that releases the claim. -/
def effectRelease : String := "release claim"

/-- The name of the effect that drops a record whose issue is gone. -/
def effectForget : String := "forget the gone issue"

/-- The two effects that remove the record. -/
def isExit (what : String) : Bool := what == effectRelease || what == effectForget

/-! ## Records -/

/-- The kinds of timer. -/
inductive TimerKind where
  | backoff
  | continuation
  deriving DecidableEq, Repr

/-- An outcome held until the run is known to be quiet. -/
structure RunOutcome where
  event : RunEvent
  detail : String

/-- An exit ordered while workers were still out. -/
structure FinishRequest where
  keepWorkspace : Bool
  why : String
  deriving DecidableEq, Repr

/-- One tenure of one issue. -/
structure Record where
  issue : Issue := { identifier := "" }
  state : State := .queued
  approvedAt : Time := 0
  claimVerified : Bool := false
  approvalInFlight : Bool := false
  claimEpoch : Int := 0
  claimBaseInFlight : Bool := false
  epochFaulted : Bool := false
  epochFaultDetail : String := ""
  claimBaseDispatch : Bool := false
  attempt : Int := 0
  turns : Int := 0
  attemptBase : Int := 0
  failureReason : FailureReason := .none
  lastOutcome : String := ""
  previousAttempt : String := ""
  outputTail : String := ""
  outputTotal : Nat := 0
  attemptFacts : AttemptFacts := {}
  attemptFactsRead : Bool := false
  summarizing : Bool := false
  summarized : Bool := false
  parkOnBudgetPending : Bool := false
  workspace : Workspace := {}
  continuation : String := ""
  sessionID : String := ""
  prURL : String := ""
  definition : Definition := {}
  handle : Option Handle := none
  costUSD : Cost := 0
  attemptStartedAt : Time := 0
  attemptUsage : Usage := {}
  attemptAgent : AgentDescriptor := {}
  attemptRecorded : Bool := false
  stopping : Bool := false
  budgetStop : Bool := false
  finishAfterStop : Bool := false
  keepOnStop : Bool := false
  stopReason : String := ""
  gone : Bool := false
  claimLost : Bool := false
  absenceInFlight : Bool := false
  owedWriteFailed : Bool := false
  pending : Int := 0
  finish : Option FinishRequest := none
  suspended : Bool := false
  verifyRetry : Bool := false
  releasing : Bool := false
  stopInFlight : Bool := false
  probeInFlight : Bool := false
  owed : List OwedEffect := []
  owedInFlight : Bool := false
  disposalOwed : Bool := false
  claimBaseAbandonOwed : Bool := false
  ranThisAttempt : Bool := false
  afterRunFired : Bool := false
  eventsClosed : Bool := false
  handleDone : Bool := false
  domainQuiet : Bool := false
  outcome : Option RunOutcome := none
  convertInFlight : Bool := false
  generation : Nat := 0
  /-- The daemon instance of a record this process claimed; empty for a recovered one. -/
  daemonInstance : String := ""
  token : Token := 0
  recovered : Bool := false
  unclassified : Bool := false
  recoverInFlight : Bool := false

/-- An identifier with every character a run ID may not hold replaced by a dash. -/
def sanitizeRunID (s : String) : String :=
  String.ofList (s.toList.map fun c =>
    if ('a' ≤ c ∧ c ≤ 'z') ∨ ('A' ≤ c ∧ c ≤ 'Z') ∨ ('0' ≤ c ∧ c ≤ '9') ∨ c = '-' ∨ c = '_'
    then c else '-')

namespace Record

/-- The ID of the record's current attempt. -/
def runID (r : Record) : String :=
  let tail := toString r.token ++ "." ++ toString r.generation
  if r.daemonInstance = "" then sanitizeRunID r.issue.identifier ++ "-" ++ tail
  else sanitizeRunID r.issue.identifier ++ "-" ++ r.daemonInstance ++ "-" ++ tail

/-- An exit of this record has been ordered. -/
def orderedExit (r : Record) : Bool :=
  r.releasing || r.stopping || r.finish.isSome || r.gone || r.claimLost

/-- The record is on its way out, or suspended by shutdown. -/
def exiting (r : Record) : Bool := r.orderedExit || r.suspended

/-- A workspace has been prepared. -/
def hasWorkspace (r : Record) : Bool := r.workspace.path != ""

/-- The fields of a fresh read that decide routing; title and body are not among them. -/
def adoptRouting (r : Record) (fresh : Issue) : Record :=
  { r with issue := { r.issue with
      state := fresh.state, labels := fresh.labels, assignees := fresh.assignees
      url := fresh.url, revision := fresh.revision, dispatchable := fresh.dispatchable } }

/-- Pin approved content as what the prompt is rendered from. -/
def pin (r : Record) (a : ApprovedContent) : Record :=
  { r with
    issue := { r.issue with title := a.content.title, body := a.content.body }
    approvedAt := a.at_ }

/-- Something is owed. -/
def owesAnything (r : Record) : Bool := !r.owed.isEmpty

/-- Something is owed before the record's exit. -/
def owesBeforeExit (r : Record) : Bool :=
  match r.owed with
  | [] => false
  | eff :: _ => !isExit eff.what

/-- The record already owes being forgotten. -/
def owesForget (r : Record) : Bool := r.owed.any fun eff => eff.what == effectForget

/-- A state-label projection is owed. -/
def owesProjection (r : Record) : Bool := r.owed.any fun eff => eff.projection

/-- A human re-queued the record: turns, cost and attempts start again. -/
def restoreBudgets (r : Record) : Record :=
  { r with turns := 0, costUSD := 0, attemptBase := r.attempt }

/-- Keep the account of the finished attempt for the next prompt. -/
def recordAccount (r : Record) (outcome : String) : Record :=
  { r with
    previousAttempt := renderAccount ⟨r.attempt, outcome, r.attemptFacts, r.attemptFactsRead,
      r.outputTail, r.outputTotal⟩ }

/-- Drop the account of the finished attempt. -/
def forgetAccount (r : Record) : Record := { r with previousAttempt := "" }

/-- Keep the tail of what the agent said. -/
def retainOutput (r : Record) (text : String) : Record :=
  let joined := if r.outputTail ≠ "" ∧ ¬ r.outputTail.endsWith "\n" then "\n" ++ text else text
  { r with
    outputTotal := r.outputTotal + joined.utf8ByteSize
    outputTail := tailRunes (r.outputTail ++ joined) 16384 }

/-- The configured cost cap, zero meaning none. -/
def maxCost (r : Record) : Cost := r.definition.limits.maxCostUSD.getD 0

end Record

/-! ## Retained claims, ended cycles, pending marker removals -/

/-- A claim retained while its pull request awaits review. -/
structure HeldClaim where
  issue : Issue
  prURL : String := ""
  workspace : Workspace := {}
  revision : String := ""
  cycleAnchor : Int := 0
  token : Token := 0
  releasing : Bool := false
  releaseFailed : Bool := false
  why : String := ""
  inFlight : Bool := false
  deriving DecidableEq, Repr

/-- A workspace cycle that has ended and owes its disposal, kept under its address. -/
structure EndedCycle where
  issue : String
  workspace : Workspace
  workspaces : Workspaces
  why : String
  inFlight : Bool := false
  deferredCandidate : Bool := false
  deriving DecidableEq, Repr

/-- A run marker to be removed, named by the serial it was ordered under. -/
structure PendingClear where
  serial : Nat
  issue : Issue
  root : String
  inFlight : Bool := false
  abandoned : Bool := false
  deriving DecidableEq, Repr

/-- The removal concerns this issue in this store. -/
def PendingClear.matches (p : PendingClear) (identifier root : String) : Bool :=
  p.issue.identifier == identifier && p.root == root

/-- What a launch is started with. -/
structure RunSpec where
  workspace : WorkspacePaths
  prompt : String
  continuation : String
  issue : String
  attempt : Int
  runID : String
  branch : String
  stallTimeoutMS : Int
  attemptTimeoutMS : Int
  maxTurns : Int
  maxCostUSD : Cost

/-- The answer of the publish verifier. -/
structure VerifyResult where
  verdict : Verdict := .unknown
  prURL : String := ""
  detail : String := ""
  deriving DecidableEq, Repr

/-- The facts recovery reads about one candidate. -/
structure RecoveryFacts where
  candidate : RecoveryCandidate
  events : List ClaimEvent := []
  marker : RecoveryMarkerState := .unresolved
  claimBase : ClaimBase := {}
  preclassified : Option RecoveryVerdict := none
  verify : VerifyResult := {}
  workspace : Workspace := {}
  /-- The reason and detail of the failure that survived the restart, if any. -/
  failure : Option (FailureReason × String) := none
  deriving DecidableEq, Repr

/-- A single-issue read. -/
structure RefreshResult where
  issue : Option Issue := none
  err : Option Err := none
  deriving DecidableEq, Repr

/-- The read says that the issue no longer exists. -/
def gone (res : RefreshResult) : Bool :=
  match res.err with
  | some e => e.issueNotFound
  | none => res.issue.isNone

/-- A parked record the sweep asks about. -/
structure ParkedWant where
  id : String
  labelsSettled : Bool
  deriving DecidableEq, Repr

end Ben
