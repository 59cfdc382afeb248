import Ben.Orchestrator.Marker

/-!
# Ending an attempt

How a finished, stopped or failed attempt is accounted for and where its record goes next:
backoff, failed, parked for review, or the exit the tracker ordered.  Nothing here runs before
the attempt's execution domain is known to be quiet; that is what `confirmQuiet`, the probe and
the stop establish.
-/

namespace Ben.Orchestrator

variable [Platform] (o : Orchestrator) (t : Token)

/-! ## Entering states -/

/-- Arm a timer for the record's current attempt. -/
def armTimer (kind : TimerKind) : Orchestrator := o.spawn (.timer (o.tag t) kind)

/-- Arm the same timer again. -/
def rearm (kind : TimerKind) : Orchestrator := o.armTimer t kind

/-- Enter backoff: the attempt is over, so its generation is. -/
def enterBackoff (why : String) (cause : FailureReason) : Orchestrator :=
  let moved := o.transitionCaused t .backoff why cause
  if !moved.2 then moved.1
  else
    let o := moved.1.modify t fun r =>
      { r with
        stopping := false, continuation := "", sessionID := "", generation := r.generation + 1 }
    o.armTimer t .backoff

/-- Fail for good and release the claim. -/
def enterFailed (why : String) (cause : FailureReason) : Orchestrator :=
  let moved := o.transitionCaused t .failed why cause
  if !moved.2 then moved.1
  else
    let o := moved.1.comment t
      { milestone := .failed, reason := (moved.1.heap t).failureReason, detail := why }
    (o.completeFailure t).release t ("failed: " ++ why)

/-- Park for a human, unless an exit already owns the record. -/
def enterNeedsReview (why : String) (cause : FailureReason) : Orchestrator :=
  if (o.heap t).orderedExit then o
  else
    let moved := o.transitionCaused t .needsReview why cause
    if !moved.2 then moved.1
    else moved.1.comment t { milestone := .needsReview, detail := why }

/-- Park because the claim epoch is not what it should be. -/
def enterEpochFault (why : String) : Orchestrator :=
  let o := o.modify t fun r => { r with epochFaulted := true, epochFaultDetail := why }
  o.enterNeedsReview t why .none

/-- The attempt failed: back off if it may be tried again, fail otherwise. -/
def failAttempt (reason : FailureReason) (retryable : Bool) (detail : String) : Orchestrator :=
  let o := (o.attemptEnded t).recordAttempt t reason .unknown
  let o := o.modify t fun r =>
    { r with failureReason := reason, lastOutcome := reason.name }.recordAccount reason.name
  if retryable && o.attemptsRemain t then o.enterBackoff t detail reason
  else o.enterFailed t detail reason

/-- A credential failure that will not pass by itself parks the record. -/
def parkCredential (detail : String) : Orchestrator :=
  let o := (o.attemptEnded t).recordAttempt t .none .unknown
  let o := o.modify t fun r => { r with lastOutcome := "" }.forgetAccount
  o.enterNeedsReview t detail .none

/-- A credential failure that may pass. -/
def credentialTransient (err : Option Err) : Bool :=
  match err with
  | some e => e.credential == some .transient
  | none => false

/-- A credential failure that will not pass by itself. -/
def credentialParks (err : Option Err) : Bool :=
  match err with
  | some e => e.credential.isSome && e.credential != some .transient
  | none => false

/-- Preparing or starting failed. -/
def failLaunch (err : Err) (what : String) (retryable : Bool) : Orchestrator :=
  let detail := what ++ ": " ++ err.text
  if credentialTransient (some err) then o.failAttempt t .credential true detail
  else if credentialParks (some err) then o.parkCredential t detail
  else o.failAttempt t .launchError retryable detail

/-! ## Routing an outcome -/

/-- Ask the publish verifier about the record's workspace. -/
def beginVerify : Orchestrator :=
  let r := o.heap t
  let o := o.modify t fun r => { r with pending := r.pending + 1 }
  o.spawn (.verify (o.tag t) r.issue r.workspace o.bundle.claimPrincipal)

/-- Park an attempt that broke its budget, once its account has been read. -/
def parkOnBudgetSummarized : Orchestrator :=
  let o := (o.note (.routed t)).attemptEnded t
  let o := o.modify t fun r => r.recordAccount r.lastOutcome
  let o := o.recordAttempt t .budgetExceeded .unknown
  o.enterNeedsReview t "budget exceeded" .budgetExceeded

/-- Act on the outcome that was held, once the attempt's account has been read. -/
def applyOutcomeSummarized : Orchestrator :=
  let r := o.heap t
  match r.outcome with
  | none => o
  | some out =>
    if !r.eventsClosed || !r.domainQuiet then o
    else
      let o := (o.modify t fun r => { r with outcome := none }).note (.routed t)
      if out.event.type = .succeeded then o.beginVerify t
      else o.failAttempt t out.event.reason out.event.reason.retryable out.detail

/-- Carry on with what waited for the attempt's account.  The record is summarised here, so the
two continuations of the source do not ask for the account again. -/
def resumeAfterAccount : Orchestrator :=
  if (o.heap t).parkOnBudgetPending then
    (o.modify t fun r => { r with parkOnBudgetPending := false }).parkOnBudgetSummarized t
  else o.applyOutcomeSummarized t

/-- Read what the finished attempt left on its branch. -/
def beginSummary : Orchestrator :=
  let r := o.heap t
  if r.summarizing then o
  else if !r.hasWorkspace then
    (o.modify t fun r => { r with summarized := true }).resumeAfterAccount t
  else
    let o := o.modify t fun r => { r with summarizing := true, pending := r.pending + 1 }
    o.spawn (.summary (o.tag t) r.workspace)

/-- Park an attempt that broke its budget. -/
def parkOnBudget : Orchestrator :=
  if !(o.heap t).summarized then
    (o.modify t fun r => { r with parkOnBudgetPending := true }).beginSummary t
  else o.parkOnBudgetSummarized t

/-- Act on the outcome that was held, once the stream is closed and the domain quiet. -/
def applyOutcome : Orchestrator :=
  let r := o.heap t
  if r.outcome.isNone || !r.eventsClosed || !r.domainQuiet then o
  else if !r.summarized then o.beginSummary t
  else o.applyOutcomeSummarized t

/-! ## Establishing quiet -/

/-- Probe the run, if it has a handle. -/
def beginProbe : Orchestrator :=
  let r := o.heap t
  if r.probeInFlight then o
  else match r.handle with
    | none => o
    | some handle =>
      let o := o.modify t fun r => { r with probeInFlight := true }
      o.spawn (.probe (o.tag t) handle)

/-- Stop the run; without a handle there is nothing to wait for. -/
def beginStop (mode : StopMode) : Orchestrator :=
  let r := o.heap t
  if r.stopInFlight then o
  else match r.handle with
    | none => o.spawn (.stopped (o.tag t))
    | some handle =>
      let o := o.modify t fun r => { r with stopInFlight := true }
      o.spawn (.stop (o.tag t) handle mode)

/-- Nothing of the run is left: free the workspace and act on the outcome. -/
def quiet : Orchestrator :=
  let o := o.modify t fun r => { r with domainQuiet := true }
  let o := o.freeWorkspaceMarker t
  let o := o.modify t fun r => { r with handle := none }
  o.applyOutcome t

/-- With an outcome in hand and the stream closed, establish that nothing of the run is left. -/
def confirmQuiet : Orchestrator :=
  let r := o.heap t
  if r.outcome.isNone || !r.eventsClosed || r.domainQuiet || r.probeInFlight || r.stopInFlight ||
      r.exiting then o
  else if r.handle.isNone then
    let o := o.modify t fun r => { r with domainQuiet := true }
    (o.freeWorkspaceMarker t).applyOutcome t
  else if !r.handleDone then o.beginProbe t
  else o.beginStop t .interrupt

/-! ## Exits -/

/-- Leave: account for the attempt, dispose of the workspace and give up the claim. -/
def finishNow (keepWorkspace : Bool) (why : String) : Orchestrator :=
  let o := o.attemptEnded t
  let reason := if (o.heap t).parkOnBudgetPending then .budgetExceeded else .killed
  let o := o.modify t fun r => { r with parkOnBudgetPending := false }
  let o := o.recordAttempt t reason .unknown
  let o := (o.abandonPendingClaimBase t).disposeRevoked t keepWorkspace
  if (o.heap t).gone || (o.heap t).claimLost then
    if (o.heap t).owesForget then o else o.owe t effectForget .localSide .forget
  else o.release t why

/-- Leave as soon as the run is stopped and the workers that are out have come back. -/
def stopAndFinish (keepWorkspace : Bool) (why : String) : Orchestrator :=
  let o := o.modify t fun r =>
    { r with keepOnStop := keepWorkspace, stopReason := why, finishAfterStop := true }
  if (o.heap t).handle.isSome then
    (o.modify t fun r => { r with stopping := true }).beginStop t .discard
  else if (o.heap t).pending > 0 then
    o.modify t fun r => { r with finish := some ⟨keepWorkspace, why⟩ }
  else o.finishNow t keepWorkspace why

/-- Carry out an exit that waited for the last worker; whether there was one. -/
def finishIfRequested : Orchestrator × Bool :=
  match (o.heap t).finish with
  | none => (o, false)
  | some req =>
    if (o.heap t).pending > 0 then (o, false)
    else
      let o := o.modify t fun r => { r with finish := none }
      if (o.heap t).handle.isSome then
        ((o.modify t fun r => { r with stopping := true }).beginStop t .discard, true)
      else (o.finishNow t req.keepWorkspace req.why, true)

/-- A suspended run is quiet and its stream is done with: let go of its handle. -/
def finishSuspended : Orchestrator :=
  let r := o.heap t
  if !r.domainQuiet || (r.handle.isSome && !r.handleDone) then o
  else
    let o := o.modify t fun r => { r with handle := none, outcome := none }
    o.attemptEnded t

/-- A suspended run was stopped. -/
def suspendStopped : Orchestrator :=
  let o := o.modify t fun r => { r with domainQuiet := true }
  (o.freeWorkspaceMarker t).finishSuspended t

/-- Account for a suspended attempt whose summary has come back. -/
def endAttemptSuspended : Orchestrator :=
  let r := o.heap t
  let reason :=
    if r.parkOnBudgetPending then .budgetExceeded
    else match r.outcome with
      | some out => if out.event.type = .failed then out.event.reason else .none
      | none => .none
  let o := o.modify t fun r => { r with parkOnBudgetPending := false }
  (o.attemptEnded t).recordAttempt t reason .unknown

end Ben.Orchestrator
