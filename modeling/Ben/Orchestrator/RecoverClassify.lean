import Mathlib.Data.List.AList
import Ben.Orchestrator.Approval
import Ben.Orchestrator.ClaimCycle

/-!
# Classifying a claim found at recovery

A daemon that finds a claim of its own after a restart decides what to do with it from the
issue, its change log, the publish evidence and the workspace's run marker.  Everything in this
module is a pure function of those facts.
-/

namespace Ben

/-- What the publish verifier answered. -/
inductive Verdict where
  | unknown
  | published
  | incomplete
  | contradicted
  deriving DecidableEq, Repr

/-- The verdict's own spelling. -/
def Verdict.name : Verdict → String
  | .unknown => "unknown"
  | .published => "published"
  | .incomplete => "incomplete"
  | .contradicted => "contradicted"

/-- A candidate for recovery, with the two routing facts computed for it. -/
structure RecoveryCandidate where
  issue : Issue
  active : Bool
  inPartition : Bool
  deriving DecidableEq, Repr

/-- What the run marker of a candidate's workspace came to. -/
inductive RecoveryMarkerState where
  | unresolved
  | free
  | possiblyLive
  | unknownLaunch
  deriving DecidableEq, Repr

/-- What recovery does with a candidate. -/
inductive RecoveryAction where
  | unknown
  | blocked
  | wait
  | approve
  | backoff
  | park
  | hold
  | releaseKeep
  | releaseDispose
  | gone
  deriving DecidableEq, Repr

/-- The action as it is logged. -/
def RecoveryAction.name : RecoveryAction → String
  | .unknown => "recoveryAction(0)"
  | .blocked => "blocked"
  | .wait => "wait"
  | .approve => "approve"
  | .backoff => "backoff"
  | .park => "park"
  | .hold => "hold"
  | .releaseKeep => "release, keep workspace"
  | .releaseDispose => "release, dispose workspace"
  | .gone => "issue gone from the tracker"

/-- The outcome of a classification. -/
structure RecoveryVerdict where
  action : RecoveryAction := .unknown
  project : Bool := false
  stateLabel : StateLabel := .none
  milestone : Milestone := .none
  attemptFloor : Int := 0
  cycleAnchor : Int := 0
  operatorErr : Bool := false
  epochFault : Bool := false
  detail : String := ""
  deriving DecidableEq, Repr

/-- Park for a human. -/
def parkRecovery (anchor : Int) (operatorErr : Bool) : RecoveryVerdict :=
  { action := .park, project := true, stateLabel := .needsReview, milestone := .needsReview
    cycleAnchor := anchor, operatorErr := operatorErr }

/-- Re-enter the failure track; the branch may already carry work. -/
def backoffRecovery (anchor : Int) : RecoveryVerdict :=
  { action := .backoff, project := true, stateLabel := .claimed, milestone := .claimed
    attemptFloor := 2, cycleAnchor := anchor }

/-- Finish an interrupted `done`. -/
def holdRecovery (anchor : Int) : RecoveryVerdict :=
  { action := .hold, project := true, stateLabel := .none, milestone := .published
    cycleAnchor := anchor }

/-- Park because the claim epoch cannot be established. -/
def epochFaultRecovery (anchor : Int) (detail : String) : RecoveryVerdict :=
  { parkRecovery anchor true with epochFault := true, detail := detail }

variable [CaseFold]

/-- The principal is the only assignee. -/
def solePrincipal (assignees : List String) (principal : String) : Bool :=
  let set := (assignees.map toLower).dedup
  set.length == 1 && set.contains (toLower principal)

/-- Who a contested claim belongs to. -/
inductive RecoveryArbitration where
  | unknown
  | ours
  | other
  | unorderable
  deriving DecidableEq, Repr

/-- The assignment a contender stands on. -/
structure RecoveryAssignment where
  at_ : Time
  id : Int
  deriving DecidableEq, Repr

/-- Earlier in the log's order of instant, then identity. -/
def RecoveryAssignment.before (a b : RecoveryAssignment) : Bool :=
  if a.at_ ≠ b.at_ then decide (a.at_ < b.at_) else decide (a.id < b.id)

/-- The same place in that order. -/
def RecoveryAssignment.sameOrder (a b : RecoveryAssignment) : Bool :=
  decide (a.at_ = b.at_) && decide (a.id = b.id)

/-- A current assignee together with the assignment it stands on. -/
structure RecoveryContender where
  login : String
  assignment : RecoveryAssignment
  deriving DecidableEq, Repr

/-- The replay of the log: the standing assignments, and every login it mentions. -/
structure AssignmentReplay where
  held : AList (fun _ : String => RecoveryAssignment) := ∅
  seen : List String := []

/-- One entry of the log, replayed. -/
def AssignmentReplay.step (acc : AssignmentReplay) (event : ClaimEvent) : AssignmentReplay :=
  let login := toLower event.subject
  if login = "" then acc
  else match event.kind with
    | .assigned =>
      { held := if (acc.held.lookup login).isSome then acc.held
          else acc.held.insert login ⟨event.at_, event.id⟩
        seen := login :: acc.seen }
    | .unassigned => { held := acc.held.erase login, seen := login :: acc.seen }
    | _ => acc

/-- The contenders among the current assignees, or `none` when one of them never appears in the
log.  An assignee whose assignment was undone is passed over, and so is a repeated one. -/
def recoveryContenders (replay : AssignmentReplay) :
    List String → List String → Option (List RecoveryContender)
  | _, [] => some []
  | current, assignee :: rest =>
    let login := toLower assignee
    if current.contains login then recoveryContenders replay current rest
    else match replay.held.lookup login with
      | some assigned =>
        (recoveryContenders replay (login :: current) rest).map (⟨login, assigned⟩ :: ·)
      | none =>
        if replay.seen.contains login then recoveryContenders replay (login :: current) rest
        else none

/-- The earliest assignment among the contenders. -/
def bestAssignment (first : RecoveryContender) (rest : List RecoveryContender) :
    RecoveryAssignment :=
  rest.foldl (fun best c => if c.assignment.before best then c.assignment else best)
    first.assignment

/-- The one login standing on the earliest assignment; `none` when two logins share it. -/
def uniqueWinner (best : RecoveryAssignment) : String → List RecoveryContender → Option String
  | winner, [] => some winner
  | winner, c :: rest =>
    if !c.assignment.sameOrder best then uniqueWinner best winner rest
    else if winner ≠ "" ∧ c.login ≠ winner then none
    else uniqueWinner best c.login rest

/-- Which of several assignees the claim belongs to: the one whose assignment the log orders
first, if the log orders them at all. -/
def arbitrateRecovery (events : List ClaimEvent) (assignees : List String) (principal : String) :
    RecoveryArbitration :=
  match recoveryContenders (events.foldl AssignmentReplay.step {}) [] assignees with
  | none => .unorderable
  | some [] => .unorderable
  | some (c :: rest) =>
    match uniqueWinner (bestAssignment c rest) "" (c :: rest) with
    | none => .unorderable
    | some winner => if equalFold winner principal then .ours else .other

/-- A subject that is one of the daemon's own state labels, known or not. -/
def isRecoveryStateLabel (subject : String) : Bool :=
  "ben:".toList.isPrefixOf (toLower subject).toList

/-- The state label a subject names. -/
def recoveryStateLabel (subject : String) : Option StateLabel :=
  [StateLabel.claimed, .running, .needsReview, .failed].find? fun label =>
    equalFold subject ("ben:" ++ label.name)

/-- What the change log says about the daemon's state labels since the anchor. -/
structure RecoveryProjection where
  standing : Bool := false
  effective : Option StateLabel := none
  sawLabeled : Bool := false
  lastWasRemoval : Bool := false
  lastRemoved : Option StateLabel := none
  deriving DecidableEq, Repr

/-- A state label standing on the issue, with the place of its entry in the log. -/
structure StandingRecoveryLabel where
  label : Option StateLabel
  order : Nat
  deriving DecidableEq, Repr

/-- Replay of the state labels since the anchor. -/
structure LabelReplay where
  standing : AList (fun _ : String => StandingRecoveryLabel) := ∅
  out : RecoveryProjection := {}

/-- One entry of the log, replayed for its state labels. -/
def LabelReplay.step (anchor : Int) (acc : LabelReplay) (entry : ClaimEvent × Nat) : LabelReplay :=
  let event := entry.1
  if event.id < anchor || !isRecoveryStateLabel event.subject then acc
  else
    let key := toLower event.subject
    let label := recoveryStateLabel event.subject
    match event.kind with
    | .labeled =>
      { standing := acc.standing.insert key ⟨label, entry.2⟩
        out := { acc.out with sawLabeled := true, lastWasRemoval := false } }
    | .unlabeled =>
      { standing := acc.standing.erase key
        out := { acc.out with lastWasRemoval := true, lastRemoved := label } }
    | _ => acc

/-- The effective projection: the standing state label applied last. -/
def replayRecoveryProjection (events : List ClaimEvent) (anchor : Int) : RecoveryProjection :=
  let replay := events.zipIdx.foldl (LabelReplay.step anchor) {}
  let latest := replay.standing.entries.foldl (fun (acc : Option StandingRecoveryLabel) e =>
    match acc with
    | none => some e.2
    | some l => if e.2.order ≤ l.order then acc else some e.2) none
  match latest with
  | none => replay.out
  | some l => { replay.out with standing := true, effective := l.label }

/-- A standing `claimed` or `running` label is settled by the publish evidence. -/
def classifyActiveRecoveryProjection (anchor : Int) : Verdict → RecoveryVerdict
  | .published => holdRecovery anchor
  | .incomplete | .contradicted => backoffRecovery anchor
  | .unknown => { action := .blocked, cycleAnchor := anchor }

variable (candidate : RecoveryCandidate) (events : List ClaimEvent)

/-- The classification with a free workspace. -/
def classifyRecoveryFacts (evidence : Verdict) (principal : String) : RecoveryVerdict :=
  let anchor := claimCycleAnchor events principal
  if !candidate.active || closedInCycle events anchor then
    { action := .releaseDispose, cycleAnchor := anchor }
  else
    let arbitration :=
      if solePrincipal candidate.issue.assignees principal then .ours
      else arbitrateRecovery events candidate.issue.assignees principal
    match arbitration with
    | .other => { action := .releaseKeep, cycleAnchor := anchor }
    | .unorderable => parkRecovery anchor true
    | .unknown => { action := .blocked, cycleAnchor := anchor }
    | .ours =>
      if anchor = 0 then parkRecovery 0 true
      else if !candidate.inPartition then { action := .releaseKeep, cycleAnchor := anchor }
      else
        let projection := replayRecoveryProjection events anchor
        if projection.standing then
          match projection.effective with
          | none => parkRecovery anchor true
          | some .failed =>
            { action := .releaseKeep, project := true, stateLabel := .failed, milestone := .failed
              cycleAnchor := anchor }
          | some .needsReview => parkRecovery anchor false
          | some .claimed | some .running => classifyActiveRecoveryProjection anchor evidence
          | some .none => parkRecovery anchor true
        else if !projection.sawLabeled then
          { action := .approve, attemptFloor := 1, cycleAnchor := anchor }
        else if !projection.lastWasRemoval then parkRecovery anchor true
        else match projection.lastRemoved with
          | none => parkRecovery anchor true
          | some .needsReview => backoffRecovery anchor
          | some .failed => { action := .releaseKeep, cycleAnchor := anchor }
          | some .claimed | some .running =>
            match evidence with
            | .published => holdRecovery anchor
            | .incomplete | .contradicted => parkRecovery anchor false
            | .unknown => { action := .blocked, cycleAnchor := anchor }
          | some .none => parkRecovery anchor true

/-- The classification: a workspace that may hold a live run turns every decision into waiting,
and one whose launch is unknown is parked. -/
def classifyRecovery (evidence : Verdict) (marker : RecoveryMarkerState) (principal : String) :
    RecoveryVerdict :=
  let base := classifyRecoveryFacts candidate events evidence principal
  match marker with
  | .unresolved => { action := .blocked }
  | .free => base
  | .possiblyLive => if base.action = .blocked then base else { base with action := .wait }
  | .unknownLaunch =>
    { action := .park, project := true, stateLabel := .needsReview, milestone := .needsReview
      cycleAnchor := base.cycleAnchor }

/-- The decisions the tracker facts alone settle, with the anchor either way. -/
def classifyRecoveryTrackerGates (principal : String) : Option RecoveryVerdict × Int :=
  let anchor := claimCycleAnchor events principal
  if !candidate.active || closedInCycle events anchor then
    (some { action := .releaseDispose, cycleAnchor := anchor }, anchor)
  else
    let arbitration :=
      if solePrincipal candidate.issue.assignees principal then .ours
      else arbitrateRecovery events candidate.issue.assignees principal
    match arbitration with
    | .other => (some { action := .releaseKeep, cycleAnchor := anchor }, anchor)
    | .unorderable => (some (parkRecovery anchor true), anchor)
    | .unknown => (some { action := .blocked, cycleAnchor := anchor }, anchor)
    | .ours =>
      if anchor = 0 then (some (parkRecovery 0 true), 0)
      else if !candidate.inPartition then
        (some { action := .releaseKeep, cycleAnchor := anchor }, anchor)
      else (none, anchor)

/-- The change log shows that a run was announced since the anchor. -/
def currentCycleRunningEvidence (anchor : Int) : Bool :=
  if anchor ≤ 0 then false
  else (events.foldl (fun (acc : Bool × Bool) event =>
    if !acc.1 then (event.kind == .assigned && event.id == anchor, acc.2)
    else if event.kind != .labeled then acc
    else (true, acc.2 || recoveryStateLabel event.subject == some .running)) (false, false)).2

/-- The decisions the claim base settles. -/
def classifyRecoveryClaimBase (anchor : Int) (state : ClaimBase) (readErr : Option Err)
    (marker : RunMarker) (markerErr : Option Err) (runningEvidence : Bool) :
    Option RecoveryVerdict :=
  if readErr.isSome then some (epochFaultRecovery anchor "claim-base state is unreadable")
  else if claimBasePinsEpoch state anchor then none
  else if state.state = .pending ∧ state.epoch = anchor then
    if runningEvidence then
      some (epochFaultRecovery anchor "pending claim epoch has current-cycle running evidence")
    else if markerErr.isSome then some { action := .blocked, cycleAnchor := anchor }
    else match marker.state with
      | .absent => some { action := .approve, attemptFloor := 1, cycleAnchor := anchor }
      | .identified | .unknownLaunch =>
        some (epochFaultRecovery anchor "pending claim epoch has a run-marker entry")
      | .unreadable => some { action := .blocked, cycleAnchor := anchor }
  else some (epochFaultRecovery anchor
    "claim-base state is absent, malformed, or belongs to another epoch")

/-- Publish evidence decides this candidate. -/
def recoveryNeedsEvidence (principal : String) : Bool :=
  let anchor := claimCycleAnchor events principal
  if !candidate.active || closedInCycle events anchor then false
  else if !solePrincipal candidate.issue.assignees principal &&
      arbitrateRecovery events candidate.issue.assignees principal != .ours then false
  else if anchor = 0 || !candidate.inPartition then false
  else
    let projection := replayRecoveryProjection events anchor
    if projection.standing then
      projection.effective == some .claimed || projection.effective == some .running
    else if !projection.sawLabeled || !projection.lastWasRemoval then false
    else projection.lastRemoved == some .claimed || projection.lastRemoved == some .running

/-- The approval under which an interrupted start may be replayed. -/
def recoveryStartReplayApproval (evidence : Verdict) (principal : String)
    (requiredLabels : List String) : Option Int :=
  if (classifyRecoveryFacts candidate events evidence principal).action ≠ .backoff then none
  else
    let projection := replayRecoveryProjection events (claimCycleAnchor events principal)
    if !projection.standing then none
    else match projection.effective with
      | some .claimed | some .running => approvalCycleAnchor events requiredLabels
      | _ => none

end Ben
