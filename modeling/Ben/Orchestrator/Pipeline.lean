import Ben.Orchestrator.Attempt

/-!
# The pipeline of one run

Claim, content approval, claim base, preparation, launch, the run's own stream, and what a
verifier, a timer, a probe or a stop answers.  Each handler is given the record's tenure and the
payload of the signal.
-/

namespace Ben.Orchestrator

variable [Platform] (o : Orchestrator) (t : Token)

/-! ## Claiming -/

/-- Begin a tenure for an issue and try to claim it. -/
def beginClaim (issue : Issue) (cur : Snapshot) : Orchestrator :=
  let t := o.nextToken + 1
  let r : Record :=
    { issue := issue, state := .queued, definition := cur.definition, attempt := 1, token := t
      daemonInstance := o.daemonInstance, pending := 1 }
  let o := { o with
    nextToken := t, heap := Function.update o.heap t r
    records := o.records.insert issue.identifier t }
  o.spawn (.claim (o.tag t) issue)

/-- Read the change log and the content behind the approval. -/
def beginApproval : Orchestrator :=
  let r := o.heap t
  if r.approvalInFlight || r.exiting || o.draining then o
  else
    let o := o.modify t fun r => { r with approvalInFlight := true, pending := r.pending + 1 }
    o.spawn (.approval (o.tag t) r.issue o.definition.requiredLabels o.bundle.claimPrincipal)

/-- The claim came back. -/
def onClaimed (verified : Bool) (err : Option Err) : Orchestrator :=
  let o := o.modify t fun r => { r with pending := r.pending - 1 }
  let finished := o.finishIfRequested t
  if finished.2 then finished.1
  else match err with
    | some e =>
      if e.claimNotAttempted then o.forget (o.heap t).issue.identifier
      else o.release t ("claim could not be verified: " ++ e.text)
    | none =>
      if !verified then o.forget (o.heap t).issue.identifier
      else (o.modify t fun r => { r with claimVerified := true }).beginApproval t

/-- Initialise the claim base of the record's epoch. -/
def beginClaimBase : Orchestrator :=
  let r := o.heap t
  let eligible := r.state == .queued || (r.state == .backoff && r.claimBaseDispatch)
  if r.claimBaseInFlight || r.exiting || o.draining || !eligible || decide (r.claimEpoch ≤ 0) then o
  else
    let workspaces := o.bundle.workspaces
    let o := o.modify t fun r => { r with claimBaseInFlight := true, pending := r.pending + 1 }
    if workspaces.endedCycleSource then
      let o := { o with
        cycleMutationSeq := o.cycleMutationSeq + 1
        cycleMutationsInFlight := o.cycleMutationsInFlight + 1 }
      o.spawn (.claimBase (o.tag t) r.issue r.claimEpoch workspaces (some o.cycleMutationSeq))
    else o.spawn (.claimBase (o.tag t) r.issue r.claimEpoch workspaces none)

/-- The approval facts came back. -/
def onApproved (history : List ClaimEvent) (approval : ContentApproval) (required : List String)
    (principal : String) (err : Option Err) : Orchestrator :=
  let o := o.modify t fun r => { r with pending := r.pending - 1, approvalInFlight := false }
  let finished := o.finishIfRequested t
  if finished.2 then finished.1
  else if (o.heap t).exiting || o.draining || (o.heap t).state != .queued then o
  else match err with
    | some e =>
      if e.issueNotFound then
        (o.modify t fun r => { r with gone := true }).finishNow t false
          "issue is gone from the tracker"
      else o
    | none =>
      match checkApproval history required approval with
      | .error e => o.enterNeedsReview t ("content approval: " ++ e.text) .none
      | .ok approved =>
        let o := ((o.note (.approved t approved)).modify t fun r => r.pin approved).note
          (.pinned t approved)
        let epoch := claimCycleAnchor history principal
        if epoch ≤ 0 then
          o.enterEpochFault t
            "claim epoch: current assignment has no positive establishing event ID"
        else (o.modify t fun r => { r with claimEpoch := epoch }).beginClaimBase t

/-! ## Preparing and launching -/

/-- Begin an attempt: forget what the last one left and prepare the workspace. -/
def beginPrepare : Orchestrator :=
  if o.draining then o
  else
    let o := o.modify t fun r =>
      { r with
        ranThisAttempt := false, afterRunFired := false
        eventsClosed := false, handleDone := false, domainQuiet := false, outcome := none
        budgetStop := false, finishAfterStop := false
        attemptStartedAt := o.now, attemptUsage := {}, attemptRecorded := false
        attemptAgent := o.bundle.agent
        outputTail := "", outputTotal := 0, attemptFacts := {}, attemptFactsRead := false
        summarizing := false, summarized := false, parkOnBudgetPending := false
        pending := r.pending + 1 }
    let r := o.heap t
    o.spawn (.prepare (o.tag t) r.issue r.attempt r.claimEpoch)

/-- What an initialisation that failed left behind is to be tried again, not parked. -/
def claimBaseHeld (epoch : Int) (err : Option Err) (base : ClaimBase) (baseErr : Option Err) :
    Bool :=
  err.isSome && (
    (match baseErr with
      | some e => e.claimTargetUnrecorded && legacyClaimBaseCanUpgrade base epoch
      | none => false) ||
    (baseErr.isNone && !claimBasePinsEpoch base epoch &&
      (base.state == .absent || (base.state == .pending && base.epoch == epoch) ||
        (claimBasePinsEpoch base base.epoch && base.epoch != epoch))))

/-- The claim base came back.  `scanned` says whether the directory of ended cycles was read
along with it, and if so whether the reading stands. -/
def onClaimBaseBegun (err : Option Err) (base : ClaimBase) (baseErr : Option Err)
    (scanned : Option Bool) : Orchestrator :=
  let o := o.modify t fun r => { r with pending := r.pending - 1, claimBaseInFlight := false }
  let finished := o.finishIfRequested t
  if finished.2 then finished.1
  else
    let r := o.heap t
    if r.exiting || o.draining then o
    else if scanned = some false then o
    else if r.state != .queued && (r.state != .backoff || !r.claimBaseDispatch) then o
    else
      if claimBaseHeld r.claimEpoch err base baseErr then o
      else if err.isSome && baseErr.isSome then
        o.enterEpochFault t
          "claim epoch: pending intent is unreadable after initialization failed"
      else if err.isSome && !claimBasePinsEpoch base r.claimEpoch then
        o.enterEpochFault t
          ("claim epoch: initialization found contradictory provider state " ++ base.format)
      else if r.state = .backoff then
        let o := o.modify t fun r => { r with claimBaseDispatch := false, attempt := r.attempt + 1 }
        let moved := o.transition t .preparing (transitionReason .backoff .preparing)
        if !moved.2 then moved.1 else moved.1.beginPrepare t
      else
        let moved := o.transition t .claimed (transitionReason .queued .claimed)
        if !moved.2 then moved.1.forget r.issue.identifier
        else moved.1.comment t { milestone := .claimed }

/-- The claim's label is on the issue. -/
def onClaimProjected : Orchestrator :=
  let r := o.heap t
  if r.state != .claimed || r.exiting then o
  else
    let moved := o.transition t .preparing (transitionReason .claimed .preparing)
    if !moved.2 then moved.1 else moved.1.beginPrepare t

/-- The variables the record's prompt is rendered from. -/
def promptVars (r : Record) : Vars :=
  { issue := r.issue, attempt := r.attempt, workspace := r.workspace.path
    targetBranch := r.workspace.targetBranch
    runID := r.issue.identifier ++ "-" ++ toString r.attempt
    previousOutcome := r.lastOutcome, previousAttempt := r.previousAttempt }

/-- What the record's attempt is launched with. -/
def runSpec (r : Record) (prompt : String) : RunSpec :=
  { workspace := r.workspace.toWorkspacePaths, prompt := prompt, continuation := r.continuation
    issue := r.issue.identifier, attempt := r.attempt, runID := r.runID
    branch := r.workspace.branch
    stallTimeoutMS := r.definition.limits.stallTimeoutMS
    attemptTimeoutMS := r.definition.limits.attemptTimeoutMS
    maxTurns := r.definition.limits.maxTurns, maxCostUSD := r.maxCost }

/-- Launch the agent. -/
def beginStart : Orchestrator :=
  if o.draining then o
  else
    let o := o.modify t fun r =>
      { r with definition := o.definition, attemptAgent := o.bundle.agent }
    let r := o.heap t
    match renderTemplate r.definition.prompt (promptVars r) with
    | .error e => o.failAttempt t .launchError false ("rendering the prompt: " ++ e.text)
    | .ok prompt =>
      let abandoned := o.abandonPendingClears r.issue.identifier o.bundle.identity.root
      let o := abandoned.1.modify t fun r => { r with pending := r.pending + 1 }
      o.spawn (.start (o.tag t) r.issue (promptVars r) (runSpec r prompt) abandoned.2)

/-- The workspace came back. -/
def onPrepared (ws : Workspace) (facts : LocalBranchFacts) (err : Option Err) (base : ClaimBase)
    (baseErr : Option Err) : Orchestrator :=
  let o := o.modify t fun r =>
    { r with
      pending := r.pending - 1
      workspace := if ws.path ≠ "" then ws else r.workspace }
  let finished := o.finishIfRequested t
  if finished.2 then finished.1
  else if o.draining then o.modify t fun r => { r with suspended := true }
  else
    let r := o.heap t
    match err with
    | some e =>
      if !claimBaseAllowsPrepare base r.claimEpoch baseErr then
        o.enterEpochFault t ("claim epoch: prepare refused under provider state " ++ base.format ++
          ": " ++ errText baseErr)
      else o.failLaunch t e "preparing the workspace" (prepRetryable e)
    | none =>
      if baseErr.isSome || decide (r.claimEpoch ≤ 0) || ws.claimEpoch != r.claimEpoch ||
          !claimBaseAuthorizesWorkspace base ws then
        o.enterEpochFault t ("claim epoch: prepared workspace carries " ++
          toString ws.claimEpoch ++ "/" ++ ws.baseSHA ++ "/" ++ ws.targetBranch ++
          ", provider returned " ++ base.format ++ ": " ++ errText baseErr ++
          "; expected epoch " ++ toString r.claimEpoch ++ " and the same complete tuple")
      else
        let o :=
          if r.attempt = 1 ∧ (r.workspace.priorWork || facts.advancedPastBase facts.baseSHA) then
            o.modify t fun r => { r with attempt := 2, attemptBase := 1 }
          else o
        o.beginStart t

/-! ## The run's stream -/

/-- Forward the run's events to the loop. -/
def pumpRun (handle : Handle) : Orchestrator := o.spawn (.pump (o.tag t) handle false false)

/-- The launch came back. -/
def onStarted (handle : Option Handle) (err : Option Err) : Orchestrator :=
  let o := o.modify t fun r =>
    { r with pending := r.pending - 1, handle := if handle.isSome then handle else r.handle }
  let o := if err.isSome && handle.isNone then o.freeWorkspaceMarker t else o
  let finished := o.finishIfRequested t
  if finished.2 then finished.1
  else if o.draining then
    let o := o.modify t fun r => { r with suspended := true }
    match handle with
    | none => o
    | some h => (o.modify t fun r => { r with ranThisAttempt := true }).pumpRun t h
  else match err with
    | some e => o.failLaunch t e "starting the agent" false
    | none =>
      let moved := o.transition t .running (transitionReason .preparing .running)
      if !moved.2 then moved.1
      else
        let o := moved.1.modify t fun r => { r with ranThisAttempt := true }
        match handle with
        | none => o
        | some h => o.pumpRun t h

/-- Hold an outcome until the run is quiet. -/
def holdOutcome (event : RunEvent) (detail : String) : Orchestrator :=
  o.modify t fun r => { r with outcome := some ⟨event, detail⟩ }

/-- Count what a usage event reports. -/
def addUsage (r : Record) (event : RunEvent) : Record :=
  match event.type, event.usage with
  | .usage, some u =>
    { r with
      attemptUsage :=
        { inputTokens := r.attemptUsage.inputTokens + u.inputTokens
          outputTokens := r.attemptUsage.outputTokens + u.outputTokens
          costUSD := r.attemptUsage.costUSD + u.costUSD }
      costUSD := r.costUSD + u.costUSD }
  | _, _ => r

/-- Count what an event of the run reports. -/
def countUsage (event : RunEvent) : Orchestrator :=
  let o := o.modify t fun r => addUsage r event
  match event.type, event.usage with
  | .usage, some u => o.note (.spent t u.costUSD)
  | _, _ => o

/-- An event of the run. -/
def onRunEvent (event : RunEvent) : Orchestrator :=
  let o := o.countUsage t event
  let r := o.heap t
  if r.state != .running then o
  else match event.type with
    | .started => o.modify t fun r =>
      { r with
        continuation := if event.continuation ≠ "" then event.continuation else r.continuation
        sessionID := event.sessionID }
    | .progress => o.modify t fun r => r.retainOutput event.text
    | .usage =>
      if event.usage.isNone then o
      else if 0 < r.maxCost ∧ r.maxCost < r.costUSD ∧ !r.stopping ∧ !r.suspended then
        (o.modify t fun r =>
          { r with
            stopping := true, budgetStop := true, failureReason := .budgetExceeded
            lastOutcome := FailureReason.budgetExceeded.name }).beginStop t .discard
      else o
    | .heartbeat => o
    | .succeeded =>
      if r.stopping then o
      else
        let moved := o.transition t .verifying (transitionReason .running .verifying)
        if !moved.2 then moved.1
        else
          (moved.1.modify t fun r => { r with lastOutcome := "succeeded" }).holdOutcome t event
            "agent run failed"
    | .failed =>
      if r.stopping then o
      else
        (o.modify t fun r => { r with failureReason := event.reason }).holdOutcome t event
          "agent run failed"

/-- The run's stream closed. -/
def onEventsClosed (sawTerminal : Bool) : Orchestrator :=
  let o := o.modify t fun r => { r with eventsClosed := true }
  let r := o.heap t
  if r.suspended || r.stopping || r.releasing || r.finish.isSome then o
  else if sawTerminal then o.confirmQuiet t
  else if r.state != .running then o
  else
    (o.holdOutcome t { type := .failed, reason := .crashed }
      "the agent exited without a terminal event").confirmQuiet t

/-- The run's handle is done. -/
def onHandleDone : Orchestrator :=
  let o := o.modify t fun r => { r with handleDone := true }
  if (o.heap t).suspended then o.finishSuspended t else o.confirmQuiet t

/-- A probe came back. -/
def onProbed (termination : Termination) : Orchestrator :=
  let o := o.modify t fun r => { r with probeInFlight := false }
  let r := o.heap t
  if r.exiting || r.stopInFlight then o
  else if r.handleDone then o.confirmQuiet t
  else if termination ≠ .confirmed then o
  else o.quiet t

/-- A stop came back. -/
def onStopped (termination : Termination) : Orchestrator :=
  let o := o.modify t fun r => { r with stopInFlight := false }
  let r := o.heap t
  if r.suspended then
    if termination ≠ .confirmed then o else o.suspendStopped t
  else if termination ≠ .confirmed then o
  else if !r.exiting then o.quiet t
  else
    let o := (o.modify t fun r => { r with domainQuiet := true }).freeWorkspaceMarker t
    let r := o.heap t
    let o := o.modify t fun r =>
      { r with
        handle := none, outcome := none
        stopping := false, budgetStop := false, finishAfterStop := false }
    if r.budgetStop && !r.finishAfterStop then o.parkOnBudget t
    else
      let o := o.attemptEnded t
      let o := o.recordAttempt t (if r.budgetStop then .budgetExceeded else .killed) .unknown
      let r := o.heap t
      if r.pending > 0 then
        o.modify t fun r => { r with finish := some ⟨r.keepOnStop, r.stopReason⟩ }
      else o.finishNow t r.keepOnStop r.stopReason

/-- The attempt's account came back. -/
def onSummarized (facts : AttemptFacts) (err : Option Err) : Orchestrator :=
  let o := o.modify t fun r =>
    { r with
      pending := r.pending - 1, summarizing := false, summarized := true
      attemptFacts := if err.isSome then r.attemptFacts else facts
      attemptFactsRead := if err.isSome then r.attemptFactsRead else true }
  let finished := o.finishIfRequested t
  if finished.2 then finished.1
  else if (o.heap t).suspended then o.endAttemptSuspended t
  else o.resumeAfterAccount t

/-! ## Timers -/

/-- What a fired timer's worker read before the record is dispatched again. -/
structure TimerReads where
  refetched : Option Issue := none
  err : Option Err := none
  history : List ClaimEvent := []
  approval : ContentApproval := {}
  claimBase : ClaimBase := {}
  claimBaseErr : Option Err := none
  runMarker : RunMarker := {}
  markerErr : Option Err := none

/-- A timer fired: re-read everything the dispatch depends on. -/
def onTimer (kind : TimerKind) : Orchestrator :=
  o.spawn (.timerFetch (o.tag t) kind o.cur.revision (o.heap t).claimEpoch)

/-- The claim base does not stand in the way of a dispatch under the record's epoch: `none` to
go on, otherwise whether to try again later or to park, and why. -/
def timerClaimBaseGate (r : Record) (anchor : Int) (s : TimerReads) : Option (Option String) :=
  match s.claimBase.state with
  | .pinned =>
    if !claimBasePinsEpoch s.claimBase r.claimEpoch ||
        (r.hasWorkspace && !claimBaseAuthorizesWorkspace s.claimBase r.workspace) then
      some (some ("claim epoch: re-dispatch found pinned state " ++ s.claimBase.format ++
        ", expected epoch " ++ toString r.claimEpoch ++ " and the retained workspace pair"))
    else none
  | .pending =>
    match classifyRecoveryClaimBase anchor s.claimBase none s.runMarker s.markerErr
        (currentCycleRunningEvidence s.history anchor) with
    | none =>
      some (some "claim epoch: pending state unexpectedly bypassed the re-dispatch gate")
    | some gate =>
      if gate.action = .blocked then some none
      else if gate.action ≠ .approve ∨ gate.epochFault then
        some (some ("claim epoch: " ++ gate.detail))
      else if r.workspace.claimEpoch ≠ 0 ∨ r.workspace.baseSHA ≠ "" ∨
          r.workspace.targetBranch ≠ "" then
        some (some ("claim epoch: pending state conflicts with a retained workspace " ++
          "epoch/base/target tuple"))
      else none
  | _ =>
    some (some ("claim epoch: re-dispatch found non-authorizing provider state " ++
      s.claimBase.format))

/-- Dispatch the record again, everything having been found in order. -/
def redispatch : Orchestrator :=
  let verifying := (o.heap t).state = .verifying
  let o := o.modify t fun r =>
    { r with
      turns := if verifying then r.turns + 1 else r.turns
      attempt := r.attempt + 1, definition := o.definition }
  let moved := o.transition t .preparing
    (transitionReason (if verifying then .verifying else .backoff) .preparing)
  if !moved.2 then moved.1 else moved.1.beginPrepare t

/-- The claim epoch of a record that is to be dispatched again: establish it if the record has
none, and otherwise require the one it has. -/
def redispatchUnderEpoch (kind : TimerKind) (principal : String) (s : TimerReads) : Orchestrator :=
  let r := o.heap t
  let anchor := claimCycleAnchor s.history principal
  if anchor ≤ 0 then
    o.enterEpochFault t "claim epoch: re-dispatch has no positive current assignment event"
  else if r.claimEpoch = 0 then
    (o.modify t fun r =>
      { r with
        claimEpoch := anchor, claimBaseDispatch := true
        definition := o.definition }).beginClaimBase t
  else if anchor ≠ r.claimEpoch then
    o.enterEpochFault t ("claim epoch: re-dispatch expected assignment " ++ toString r.claimEpoch ++
      ", history names " ++ toString anchor)
  else if s.claimBaseErr.isSome then
    o.enterEpochFault t "claim epoch: provider state is unreadable before re-dispatch"
  else match timerClaimBaseGate r anchor s with
    | some (some why) => o.enterEpochFault t why
    | some none => o.rearm t kind
    | none => o.redispatch t

/-- The reads behind a fired timer came back. -/
def onTimerFetched (kind : TimerKind) (revision : Nat) (required : List String) (principal : String)
    (s : TimerReads) : Orchestrator :=
  if (o.heap t).exiting then o
  else if o.cur.revision ≠ revision then o.rearm t kind
  else if gone ⟨s.refetched, s.err⟩ then
    (o.modify t fun r => { r with gone := true }).finishNow t false
      "issue is gone from the tracker"
  else match s.err, s.refetched with
    | some _, _ => o.rearm t kind
    | none, none => o
    | none, some fresh =>
      if !active o.definition fresh then
        o.finishNow t false "issue went terminal while waiting to re-dispatch"
      else if !routable o.cur fresh then o.finishNow t true "issue is no longer routable"
      else match checkApproval s.history required s.approval with
        | .error e => o.enterNeedsReview t ("content approval: " ++ e.text) .none
        | .ok approved =>
          let o := (o.note (.approved t approved)).modify t fun r => r.adoptRouting fresh
          let o :=
            if approved.at_ > (o.heap t).approvedAt then
              (o.modify t fun r => r.pin approved).note (.pinned t approved)
            else o
          if o.cur.blocked.isSome then o.rearm t kind
          else if o.freeSlots o.definition ≤ 0 then
            if (o.heap t).state = .backoff then
              let moved := o.transition t .backoff (transitionReason .backoff .backoff)
              if !moved.2 then moved.1 else moved.1.rearm t kind
            else o.rearm t kind
          else o.redispatchUnderEpoch t kind principal s

/-! ## Verification -/

/-- What the verification worker came back with. -/
structure VerifySignal where
  verify : VerifyResult := {}
  err : Option Err := none
  epochFault : Option String := none
  claimEpochReadFailed : Bool := false

/-- Give up a verification for now; the next tick asks again. -/
def retryVerify : Orchestrator := o.modify t fun r => { r with verifyRetry := true }

/-- Act on the verifier's answer. -/
def applyVerdict (verify : VerifyResult) : Orchestrator :=
  match verify.verdict with
  | .published =>
    let moved := o.transition t .done (transitionReason .verifying .done)
    if !moved.2 then moved.1
    else
      let o := moved.1.modify t fun r => { r with prURL := verify.prURL }
      let o := o.comment t { milestone := .published, prURL := verify.prURL }
      o.disposePublished t
  | .incomplete =>
    if !o.continuable t then
      o.enterNeedsReview t "max_turns exhausted without published evidence" .none
    else
      let o := o.modify t fun r =>
        { r.forgetAccount with
          sessionID := "", generation := r.generation + 1, failureReason := .none }
      o.armTimer t .continuation
  | .contradicted =>
    o.enterNeedsReview t
      (if verify.detail = "" then "publish evidence contradicts the agent's claim"
        else verify.detail) .none
  | .unknown =>
    o.enterNeedsReview t ("verification returned no usable verdict (" ++ verify.verdict.name ++
      ")" ++ (if verify.detail = "" then "" else ": " ++ verify.detail)) .none

/-- The verification came back. -/
def onVerified (s : VerifySignal) : Orchestrator :=
  let o := o.modify t fun r => { r with pending := r.pending - 1 }
  let finished := o.finishIfRequested t
  if finished.2 then finished.1
  else if (o.heap t).suspended then o
  else match s.epochFault with
    | some detail =>
      ((o.attemptEnded t).recordAttempt t .none .unknown).enterEpochFault t detail
    | none =>
      if (s.err.map (·.issueNotFound)).getD false then
        (o.modify t fun r => { r with gone := true }).finishNow t false
          "issue disappeared before verification"
      else if s.claimEpochReadFailed then o.retryVerify t
      else if (s.err.map (·.publishApprovalPending)).getD false then o.retryVerify t
      else if credentialTransient s.err then o.retryVerify t
      else
        let o := (o.attemptEnded t).modify t fun r => r.recordAccount r.lastOutcome
        match s.err with
        | some e =>
          (o.recordAttempt t .none .unknown).enterNeedsReview t
            ("verification failed: " ++ e.text) .none
        | none => (o.recordAttempt t .none s.verify.verdict).applyVerdict t s.verify

end Ben.Orchestrator
