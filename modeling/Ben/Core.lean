import Mathlib.Algebra.Group.Defs
import Mathlib.Order.Defs.LinearOrder
import Ben.Lib.CaseFold

/-!
# The shared vocabulary

The types every component speaks: issues, the tracker's change log, content approval, claim
bases, workspaces and what a run reports.  Only the fields some modelled function reads are
kept.  Instants are nanoseconds since the zero instant of the source's time type, so the zero
value of an instant is `0`.
-/

namespace Ben

/-- A chain of fallible steps returns if each of them does. -/
lemma bind_eq_ok_iff {ε α β : Type} {x : Except ε α} {k : α → Except ε β} {b : β} :
    (x >>= k) = .ok b ↔ ∃ a, x = .ok a ∧ k a = .ok b := by
  cases x with
  | error e =>
    constructor
    · intro h
      cases h
    · rintro ⟨a, ha, -⟩
      cases ha
  | ok a =>
    constructor
    · exact fun h => ⟨a, rfl, h⟩
    · rintro ⟨a', ha, h⟩
      exact Except.ok.inj ha ▸ h

/-- An instant, in nanoseconds since the zero instant. -/
abbrev Time := Int

/-- The largest whole second not after the instant. -/
def Time.truncateSecond (t : Time) : Time := t - t % 1000000000

/-! ## Issues and their content -/

/-- A normalised issue, as the tracker reports it. -/
structure Issue where
  identifier : String
  title : String := ""
  body : String := ""
  labels : List String := []
  state : String := ""
  assignees : List String := []
  url : String := ""
  createdAt : Time := 0
  revision : String := ""
  dispatchable : Bool := false
  deriving DecidableEq, Repr

/-- The two fields of an issue that a person can edit and an agent is shown. -/
structure IssueContent where
  title : String := ""
  body : String := ""
  deriving DecidableEq, Repr

/-- What the tracker can say about the last edit of an issue's title or body. -/
inductive ContentEdit where
  | unknown
  | never
  | at (t : Time)
  deriving DecidableEq, Repr

/-- A content read: the text and the edit fact that belongs to it. -/
structure ContentApproval where
  content : IssueContent := {}
  edit : ContentEdit := .unknown
  deriving DecidableEq, Repr

/-- The state labels the daemon projects; `none` is the absence of a label. -/
inductive StateLabel where
  | none
  | claimed
  | running
  | needsReview
  | failed
  deriving DecidableEq, Repr

/-- The label's own spelling, without the `ben:` prefix. -/
def StateLabel.name : StateLabel → String
  | .none => ""
  | .claimed => "claimed"
  | .running => "running"
  | .needsReview => "needs-review"
  | .failed => "failed"

/-- The kinds of change-log entries the daemon reads. -/
inductive ClaimEventKind where
  | assigned
  | unassigned
  | labeled
  | unlabeled
  | closed
  | reopened
  deriving DecidableEq, Repr

/-- One entry of the tracker's change log. -/
structure ClaimEvent where
  kind : ClaimEventKind
  /-- The login or the label the entry is about. -/
  subject : String := ""
  at_ : Time := 0
  id : Int := 0
  deriving DecidableEq, Repr

/-! ## Milestones and failures -/

/-- The points of a run that are announced on the issue; `none` is the empty milestone. -/
inductive Milestone where
  | none
  | claimed
  | published
  | failed
  | needsReview
  deriving DecidableEq, Repr

/-- The milestone's own spelling. -/
def Milestone.name : Milestone → String
  | .none => ""
  | .claimed => "claimed"
  | .published => "published"
  | .failed => "failed"
  | .needsReview => "needs-review"

/-- Why an attempt failed; `none` is the empty reason. -/
inductive FailureReason where
  | none
  | crashed
  | stalled
  | timeout
  | rateLimited
  | auth
  | launchError
  | killed
  | budgetExceeded
  | credential
  | outputOverflow
  deriving DecidableEq, Repr

/-- The reason's own spelling. -/
def FailureReason.name : FailureReason → String
  | .none => ""
  | .crashed => "crashed"
  | .stalled => "stalled"
  | .timeout => "timeout"
  | .rateLimited => "rate_limited"
  | .auth => "auth"
  | .launchError => "launch_error"
  | .killed => "killed"
  | .budgetExceeded => "budget_exceeded"
  | .credential => "credential"
  | .outputOverflow => "output_overflow"

/-- Whether a failure with this reason may be tried again. -/
def FailureReason.retryable : FailureReason → Bool
  | .crashed | .stalled | .timeout | .rateLimited | .credential => true
  | _ => false

/-- The payload of a milestone comment. -/
structure MilestoneComment where
  milestone : Milestone
  prURL : String := ""
  reason : FailureReason := .none
  reasonUnavailable : Bool := false
  detail : String := ""
  deriving DecidableEq, Repr

/-- How a credential failure is classified. -/
inductive CredentialErrorClass where
  | unknown
  | transient
  | permanent
  deriving DecidableEq, Repr

/-- An error: its text, the sentinels it wraps and the credential failure it carries, if any. -/
structure Err where
  text : String
  issueNotFound : Bool := false
  claimTargetUnrecorded : Bool := false
  claimNotAttempted : Bool := false
  publishApprovalPending : Bool := false
  approvalUnread : Bool := false
  credential : Option CredentialErrorClass := none
  deriving DecidableEq, Repr

/-- The text of an error that may be absent, as the source's `%v` prints it. -/
def errText : Option Err → String
  | none => "<nil>"
  | some e => e.text

/-! ## Workspaces and claim bases -/

/-- The paths an attempt runs under. -/
structure WorkspacePaths where
  path : String := ""
  sharedGitDir : String := ""
  privateDir : String := ""
  deriving DecidableEq, Repr

/-- A prepared workspace together with the claim epoch, base and target it was prepared under. -/
structure Workspace extends WorkspacePaths where
  key : String := ""
  branch : String := ""
  claimEpoch : Int := 0
  baseSHA : String := ""
  targetBranch : String := ""
  priorWork : Bool := false
  deriving DecidableEq, Repr

/-- The state of a claim base. -/
inductive ClaimBaseState where
  | unknown
  | absent
  | pending
  | pinned
  deriving DecidableEq, Repr

/-- The state's own spelling. -/
def ClaimBaseState.name : ClaimBaseState → String
  | .unknown => "unknown"
  | .absent => "absent"
  | .pending => "pending"
  | .pinned => "pinned"

/-- The provider's durable answer to which epoch, base and target a claim runs under. -/
structure ClaimBase where
  state : ClaimBaseState := .unknown
  epoch : Int := 0
  baseSHA : String := ""
  targetBranch : String := ""
  outgoingEpoch : Int := 0
  outgoingBaseSHA : String := ""
  outgoingTargetBranch : String := ""
  deriving DecidableEq, Repr

/-- A claim base with its field names, as the source's `%+v` prints it. -/
def ClaimBase.format (b : ClaimBase) : String :=
  "\x7bState:" ++ b.state.name ++ " Epoch:" ++ toString b.epoch ++ " BaseSHA:" ++ b.baseSHA ++
    " TargetBranch:" ++ b.targetBranch ++ " OutgoingEpoch:" ++ toString b.outgoingEpoch ++
    " OutgoingBaseSHA:" ++ b.outgoingBaseSHA ++
    " OutgoingTargetBranch:" ++ b.outgoingTargetBranch ++ "\x7d"

/-- A workspace as the provider lists it. -/
structure WorkspaceRef where
  key : String := ""
  path : String := ""
  identifier : String := ""
  deriving DecidableEq, Repr

/-- What is known locally about the branch a workspace was prepared on. -/
structure LocalBranchFacts where
  baseSHA : String := ""
  head : String := ""
  descendsBase : Bool := false
  deriving DecidableEq, Repr

/-- The branch carries a commit beyond the base. -/
def LocalBranchFacts.advancedPastBase (f : LocalBranchFacts) (baseSHA : String) : Bool :=
  f.head != "" && f.head != baseSHA && f.descendsBase

/-- What a finished attempt left on its branch. -/
structure AttemptFacts where
  commits : List String := []
  files : List String := []
  commitsTruncated : Bool := false
  filesTruncated : Bool := false
  deriving DecidableEq, Repr

/-- Evidence that names a run of an earlier daemon. -/
structure RunEvidence where
  scheme : String := ""
  id : String := ""
  boot : String := ""
  deriving DecidableEq, Repr

/-- What a workspace's run marker says. -/
inductive RunMarkerState where
  | unreadable
  | absent
  | identified
  | unknownLaunch
  deriving DecidableEq, Repr

/-- A run marker as a later daemon reads it. -/
structure RunMarker where
  state : RunMarkerState := .unreadable
  evidence : RunEvidence := {}
  deriving DecidableEq, Repr

/-! ## The platform

What the daemon is configured with and the model does not look into: the amounts cost is
counted in, the prompt template and the rendering of an attempt's account. -/

/-- The account of a finished attempt, as the next prompt is given it. -/
structure AttemptAccount where
  attempt : Int
  outcome : String
  facts : AttemptFacts
  factsRead : Bool
  output : String
  outputTotal : Nat
  deriving DecidableEq, Repr

/-- The variables a prompt is rendered from. -/
structure Vars where
  issue : Issue
  attempt : Int
  workspace : String
  targetBranch : String
  runID : String
  previousOutcome : String
  previousAttempt : String
  deriving DecidableEq, Repr

/-- The parts of the daemon's surroundings the model is parametric in. -/
class Platform extends CaseFold where
  /-- The amounts cost is counted in. -/
  Cost : Type
  [costZero : Zero Cost]
  [costAdd : Add Cost]
  [costLT : LT Cost]
  [costDecidableLT : DecidableLT Cost]
  /-- Rendering of a prompt template. -/
  renderTemplate : String → Vars → Except Err String
  /-- Rendering of an attempt's account within its byte budget. -/
  renderAccount : AttemptAccount → String
  /-- The longest suffix of whole characters within a number of bytes. -/
  tailRunes : String → Nat → String
  /-- An instant as the tracker's comments print it. -/
  formatTime : Time → String
  /-- Whether a preparation failure may be tried again. -/
  prepRetryable : Err → Bool

export Platform (Cost renderTemplate renderAccount tailRunes formatTime prepRetryable)

attribute [reducible, instance] Platform.costZero Platform.costAdd Platform.costLT
  Platform.costDecidableLT

/-- Surroundings in which definitions can be evaluated: plain letters, whole amounts, and a prompt
that is the template itself. -/
@[reducible] def plainPlatform : Platform :=
  { asciiFold with
    Cost := Nat
    costZero := ⟨Nat.zero⟩
    costAdd := instAddNat
    costLT := instLTNat
    costDecidableLT := Nat.decLt
    renderTemplate := fun template _ => .ok template
    renderAccount := fun account => account.outcome
    tailRunes := fun text _ => text
    formatTime := fun t => toString t
    prepRetryable := fun _ => true }

section

variable [Platform]

/-- What a run reports having used. -/
structure Usage where
  inputTokens : Int := 0
  outputTokens : Int := 0
  costUSD : Cost := 0

/-- The types of event a run emits. -/
inductive EventType where
  | started
  | progress
  | usage
  | heartbeat
  | succeeded
  | failed
  deriving DecidableEq, Repr

/-- One event of a run's stream. -/
structure RunEvent where
  type : EventType
  sessionID : String := ""
  continuation : String := ""
  text : String := ""
  usage : Option Usage := none
  reason : FailureReason := .none

end

/-- Which agent an attempt ran with. -/
structure AgentDescriptor where
  kind : String := ""
  model : String := ""
  deriving DecidableEq, Repr

/-- How a stop is asked for. -/
inductive StopMode where
  | interrupt
  | discard
  deriving DecidableEq, Repr

/-- Whether a probe or a stop established that nothing of the run is left. -/
inductive Termination where
  | unconfirmed
  | confirmed
  deriving DecidableEq, Repr

end Ben
