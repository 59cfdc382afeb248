import Ben.Orchestrator.Watch

/-!
# Recovery

What the daemon does with the claims its principal already holds when it starts, and with the
ones it could not classify then.  The reads behind one classification are gathered first; the
facts, the verdict and its application are computed from them.
-/

namespace Ben.Orchestrator

variable [Platform] (o : Orchestrator) (t : Token)

/-! ## The facts behind a verdict -/

/-- What the reads about one candidate came back with.  A read the classification does not get
to is not used. -/
structure RecoveryReads where
  history : Except Err (List ClaimEvent) := .ok []
  resolved : Except Err (Option Workspace) := .ok none
  claimBase : ClaimBase := {}
  claimBaseErr : Option Err := none
  marker : RunMarker := {}
  markerErr : Option Err := none
  /-- The probe of an identified run; `none` without a prober. -/
  runGone : Option (Except Err Bool) := none
  /-- The removal of the marker of a run confirmed gone. -/
  clearErr : Option Err := none
  verify : Except Err VerifyResult := .ok {}
  /-- The probe under the standing approval. -/
  resolveRun : Except Err Bool := .ok false
  /-- The last failure in the transition log; `none` without a reader. -/
  lastFailure : Option (Except Err (Option (Time × FailureReason × String))) := none

/-- The state of a run marker, probing the run it identifies. -/
def resolveMarkerValueWith (ws : Workspace) (marker : RunMarker)
    (probe : Option (Except Err Bool)) (clearErr : Option Err) :
    Except Err RecoveryMarkerState :=
  let place := if ws.path = "" then "(no workspace resolved)" else ws.path
  match marker.state with
  | .absent => .ok .free
  | .unknownLaunch => .ok .unknownLaunch
  | .identified =>
    match probe with
    | none => .ok .possiblyLive
    | some (.error _) => .ok .possiblyLive
    | some (.ok true) =>
      match clearErr with
      | some e => .error { e with text :=
          "workspace " ++ place ++ ": clearing the marker of a run confirmed gone: " ++ e.text }
      | none => .ok .free
    | some (.ok false) => .ok .possiblyLive
  | .unreadable => .error { text :=
      "workspace " ++ place ++ ": run marker state 0 is not one this daemon understands" }

/-- Publish evidence for a workspace that the claim base authorises. -/
def recoveryEvidence (issue : Issue) (ws : Workspace) (verify : Except Err VerifyResult) :
    Except Err VerifyResult :=
  if ws.path = "" then
    .error { text := "claim " ++ issue.identifier ++
      " reached verification without an authorized workspace epoch/base/target tuple" }
  else match verify with
    | .error e => .error e
    | .ok res =>
      if res.verdict = .unknown then
        .error { text := "publish-evidence check returned no verdict" }
      else if res.verdict = .published ∧ res.prURL = "" then
        .error { text := "publish-evidence check reported published with no pull request URL" }
      else .ok res

/-- An error with what was being done when it happened. -/
def Err.wrap (e : Err) (what : String) : Err := { e with text := what ++ ": " ++ e.text }

/-- The facts of a candidate whose claim base pins its epoch and whose workspace carries it. -/
def pinnedRecoveryFacts (issue : Issue) (cur : Snapshot) (reads : RecoveryReads)
    (facts : RecoveryFacts) : Except Err RecoveryFacts :=
  match resolveMarkerValueWith facts.workspace reads.marker reads.runGone reads.clearErr with
  | .error e => .error (Err.wrap e "run marker")
  | .ok marker =>
    let facts := { facts with marker := marker }
    if marker = .unknownLaunch then .ok facts
    else
      let evidence :=
        if recoveryNeedsEvidence facts.candidate facts.events cur.runtime.claimPrincipal then
          recoveryEvidence issue facts.workspace reads.verify
        else .ok {}
      match evidence with
      | .error e => .error (Err.wrap e "publish evidence")
      | .ok res =>
        let facts := { facts with verify := res }
        match recoveryStartReplayApproval facts.candidate facts.events res.verdict
            cur.runtime.claimPrincipal cur.definition.requiredLabels with
        | none => .ok facts
        | some _ =>
          if marker = .possiblyLive ∧ cur.runtime.resolveRun then
            match resolveMarkerValueWith facts.workspace reads.marker (some reads.resolveRun)
                reads.clearErr with
            | .error e => .error (Err.wrap e "run marker")
            | .ok marker => .ok { facts with marker := marker }
          else .ok facts

/-- The facts of a candidate. -/
def recoveryFacts (issue : Issue) (cur : Snapshot) (reads : RecoveryReads) :
    Except Err RecoveryFacts :=
  match reads.history with
  | .error e => .error (Err.wrap e "claim history")
  | .ok events =>
    let candidate : RecoveryCandidate :=
      ⟨issue, active cur.definition issue, hasRequiredLabels cur.definition issue⟩
    let facts : RecoveryFacts := { candidate := candidate, events := events }
    match classifyRecoveryTrackerGates candidate events cur.runtime.claimPrincipal with
    | (some _, _) =>
      match reads.resolved with
      | .error e => .error (Err.wrap e "resolving the workspace")
      | .ok ws =>
        let ws := ws.getD {}
        match reads.markerErr with
        | some e => .error (Err.wrap e "run marker")
        | none =>
          match resolveMarkerValueWith ws reads.marker reads.runGone reads.clearErr with
          | .error e => .error (Err.wrap e "run marker")
          | .ok marker => .ok { facts with workspace := ws, marker := marker }
    | (none, anchor) =>
      let facts := { facts with claimBase := reads.claimBase }
      match classifyRecoveryClaimBase anchor reads.claimBase reads.claimBaseErr reads.marker
          reads.markerErr (currentCycleRunningEvidence events anchor) with
      | some verdict => .ok { facts with preclassified := some verdict }
      | none =>
        match reads.markerErr, reads.resolved with
        | some e, _ => .error (Err.wrap e "run marker")
        | none, .error _ =>
          .ok { facts with preclassified := some (epochFaultRecovery anchor
            "pinned claim epoch cannot resolve its workspace") }
        | none, .ok none =>
          .ok { facts with preclassified := some (epochFaultRecovery anchor
            "resolved workspace does not carry the pinned claim epoch/base/target") }
        | none, .ok (some ws) =>
          if !claimBaseAuthorizesWorkspace reads.claimBase ws then
            .ok { facts with preclassified := some (epochFaultRecovery anchor
              "resolved workspace does not carry the pinned claim epoch/base/target") }
          else pinnedRecoveryFacts issue cur reads { facts with workspace := ws }

/-- The failure that survived the restart, if it is dated after the claim cycle began. -/
def lastFailure (events : List ClaimEvent) (principal : String)
    (read : Option (Except Err (Option (Time × FailureReason × String)))) :
    Except Err (Option (FailureReason × String)) :=
  match read with
  | none => .ok none
  | some (.error e) => .error e
  | some (.ok none) => .ok none
  | some (.ok (some (at_, failure))) =>
    let anchor := claimCycleAnchorAt events principal
    if anchor = 0 then .ok none
    else if at_ > anchor then .ok (some failure)
    else .ok none

/-- The verdict of the facts. -/
def classify (cur : Snapshot) (reads : RecoveryReads) (facts : RecoveryFacts) :
    Except Err (RecoveryVerdict × RecoveryFacts) :=
  match facts.preclassified with
  | some verdict => .ok (verdict, facts)
  | none =>
    let v := classifyRecovery facts.candidate facts.events facts.verify.verdict facts.marker
      cur.runtime.claimPrincipal
    if v.milestone ≠ .failed then .ok (v, facts)
    else match lastFailure facts.events cur.runtime.claimPrincipal reads.lastFailure with
      | .error e =>
        .error (Err.wrap e "reading the transition log for the failure reason")
      | .ok failure => .ok (v, { facts with failure := failure })

/-- The facts and the verdict of a candidate. -/
def recoveryVerdictOf (issue : Issue) (cur : Snapshot) (reads : RecoveryReads) :
    Except Err (RecoveryVerdict × RecoveryFacts) :=
  match recoveryFacts issue cur reads with
  | .error e => .error e
  | .ok facts => classify cur reads facts

/-! ## Applying a verdict -/

/-- Put a record of a fresh tenure under an issue. -/
def adopt (r : Record) : Orchestrator :=
  let t := o.nextToken + 1
  { o with
    nextToken := t, heap := Function.update o.heap t { r with token := t }
    records := o.records.insert r.issue.identifier t }

/-- Adopt a recovered claim in a state. -/
def adoptRecovered (issue : Issue) (facts : RecoveryFacts) (v : RecoveryVerdict) (cur : Snapshot)
    (state : State) : Orchestrator × Token :=
  let o := o.adopt
    { issue := issue, state := state, workspace := facts.workspace, prURL := facts.verify.prURL
      definition := cur.definition, attempt := v.attemptFloor, claimEpoch := v.cycleAnchor
      recovered := true
      attemptBase := if v.attemptFloor ≥ 2 then v.attemptFloor - 1 else 0 }
  (o.note (.entered o.nextToken
      { at_ := o.now, issue := issue.identifier, source := .queued, target := state
        reason := "recovered at startup: " ++ v.action.name, runID := "" }),
    o.nextToken)

/-- Keep a claim that could not be classified. -/
def adoptUnclassified (issue : Issue) (cur : Snapshot) : Orchestrator :=
  o.adopt { issue := issue, state := .queued, definition := cur.definition, recovered := true
            unclassified := true }

/-- The milestone comment of a recovered claim. -/
def recoveryComment (facts : RecoveryFacts) (v : RecoveryVerdict) : MilestoneComment :=
  match v.milestone with
  | .published => { milestone := .published, prURL := facts.verify.prURL }
  | .failed =>
    match facts.failure with
    | some (reason, detail) => { milestone := .failed, reason := reason, detail := detail }
    | none =>
      { milestone := .failed, reasonUnavailable := true
        detail := "recovered after a restart; the failure reason did not survive" }
  | .needsReview =>
    { milestone := .needsReview
      detail := if v.detail ≠ "" then v.detail else facts.verify.detail }
  | m => { milestone := m }

/-- Owe the label and the milestone a verdict orders. -/
def projectRecovery (facts : RecoveryFacts) (v : RecoveryVerdict) : Orchestrator :=
  if !v.project then o
  else
    let o := o.oweProjection t ("project " ++ labelName v.stateLabel)
      (.setStateLabels (o.heap t).issue v.stateLabel)
    if v.milestone = .none then o
    else
      let o := match v.milestone, facts.failure with
        | .failed, some (reason, _) => o.modify t fun r => { r with failureReason := reason }
        | _, _ => o
      o.comment t (recoveryComment facts v)

/-- Put a recovered orphan on the failure track. -/
def resumeRecoveredBackoff : Orchestrator :=
  let moved := o.transition t .preparing "recovered orphan: resuming the failure track"
  if !moved.2 then moved.1
  else
    moved.1.enterBackoff t
      "recovered orphan: work may already exist on the branch (SPEC §9.10)" .none

/-- Apply a recovery verdict to an issue no record has. -/
def applyRecovery (issue : Issue) (facts : RecoveryFacts) (v : RecoveryVerdict) (cur : Snapshot) :
    Orchestrator :=
  match v.action with
  | .gone => o.forget issue.identifier
  | .blocked | .unknown => o.adoptUnclassified issue cur
  | .wait =>
    let (o, t) := o.adoptRecovered issue facts v cur .queued
    (o.modify t fun r => { r with unclassified := true }).projectRecovery t facts v
  | .approve =>
    let (o, t) := o.adoptRecovered issue facts v cur .queued
    let o := o.modify t fun r => { r with claimVerified := true }
    (o.projectRecovery t facts v).beginApproval t
  | .backoff =>
    let (o, t) := o.adoptRecovered issue facts v cur .claimed
    (o.projectRecovery t facts v).resumeRecoveredBackoff t
  | .park =>
    let (o, t) := o.adoptRecovered issue facts v cur .needsReview
    (o.modify t fun r =>
      { r with epochFaulted := v.epochFault, epochFaultDetail := v.detail }).projectRecovery
        t facts v
  | .hold =>
    let (o, t) := o.adoptRecovered issue facts v cur .done
    ((o.projectRecovery t facts v).disposePublished t).driveHold t
  | .releaseKeep =>
    let (o, t) := o.adoptRecovered issue facts v cur .queued
    let o := (o.projectRecovery t facts v).abandonPendingClaimBase t
    (o.completeRevocationOnly t).release t ("recovery: " ++ v.action.name)
  | .releaseDispose =>
    let (o, t) := o.adoptRecovered issue facts v cur .queued
    let o := (o.projectRecovery t facts v).abandonPendingClaimBase t
    (o.disposeRevoked t false).release t ("recovery: " ++ v.action.name)

/-- Record in the history that the verifier was asked, if it was. -/
def noteEvidence (facts : RecoveryFacts) : Orchestrator :=
  if facts.verify.verdict = .unknown then o
  else o.note (.verifier facts.candidate.issue.identifier facts.workspace facts.verify.verdict)

/-- Recover one candidate at startup. -/
def recoverCandidate (issue : Issue) (cur : Snapshot) (reads : RecoveryReads) : Orchestrator :=
  match recoveryFacts issue cur reads with
  | .error _ => o.adoptUnclassified issue cur
  | .ok facts =>
    let o := o.noteEvidence facts
    match classify cur reads facts with
    | .error _ => o.adoptUnclassified issue cur
    | .ok (v, facts) => o.applyRecovery issue facts v cur

/-! ## Trying again -/

/-- Read the claims the principal holds again, if that is owed. -/
def retryRecoveryScan (cur : Snapshot) : Orchestrator :=
  if !o.scanOwed || o.scanInFlight || o.draining || o.cycleScanInFlight || o.cycleScanFailed then o
  else
    let o := { o with scanInFlight := true }
    o.spawn (.recoveryScan cur.revision)

/-- Classify a retained claim again, if it is still unclassified. -/
def retryRecoveryOne (cur : Snapshot) : Orchestrator :=
  let r := o.heap t
  if !r.unclassified || r.recoverInFlight then o
  else
    let o := o.modify t fun r => { r with recoverInFlight := true }
    o.spawn (.recover (o.tag t) cur.revision cur)

/-- Classify again every retained claim that is still unclassified. -/
def retryRecovery (order : List String) : Orchestrator :=
  let cur := o.cur
  let o := o.retryRecoveryScan cur
  (visitOrder order o.records.keys).foldl (fun o id =>
    match o.records.lookup id with
    | some t => o.retryRecoveryOne t cur
    | none => o) o

/-- Take over a candidate nothing has, or mark the obligations that hold it back. -/
def scanCandidate (issue : Issue) (cur : Snapshot) : Orchestrator :=
  let id := issue.identifier
  if (o.records.lookup id).isSome || (o.held.lookup id).isSome then o
  else if o.endedCycleOwed id then
    { o with
      endedCycles := o.endedCycles.keys.foldl (fun cycles address =>
        match cycles.lookup address with
        | some c =>
          if c.issue = id then cycles.insert address { c with deferredCandidate := true }
          else cycles
        | none => cycles) o.endedCycles }
  else o.adoptUnclassified issue cur

/-- The claims the principal holds came back. -/
def onRecoveryScan (order : List String) (candidates : List Issue) (err : Option Err)
    (revision : Nat) : Orchestrator :=
  let o := { o with scanInFlight := false }
  if o.cur.revision ≠ revision || err.isSome then o
  else
    let o := { o with scanOwed := false }
    let cur := o.cur
    (candidates.foldl (fun o issue => o.scanCandidate issue cur) o).retryRecovery order

/-- What the worker behind a recovered claim found. -/
inductive RecoveredSignal where
  | failed
  | verdict (v : RecoveryVerdict) (facts : RecoveryFacts)

/-- The classification of a retained claim came back. -/
def onRecovered (revision : Nat) (s : RecoveredSignal) : Orchestrator :=
  let o := o.modify t fun r => { r with recoverInFlight := false }
  let r := o.heap t
  let id := r.issue.identifier
  if o.cur.revision ≠ revision || !r.unclassified || o.sweepDisposing.contains id then o
  else match s with
    | .failed => o
    | .verdict v facts =>
      if v.action = .blocked then o
      else (o.forget id).applyRecovery facts.candidate.issue facts v o.cur

/-! ## The sweep of workspaces nothing owns -/

/-- The issues something owns. -/
def ownedIssues : List String :=
  o.records.keys ++ o.held.keys ++ o.endedCycles.entries.map (·.2.issue)

/-- Reserve an issue for the sweep; whether it could be. -/
def grantDisposal (id : String) : Orchestrator × Bool :=
  if o.draining || (o.records.lookup id).isSome || (o.held.lookup id).isSome ||
      o.endedCycleOwed id || o.sweepDisposing.contains id then (o, false)
  else ({ o with sweepDisposing := id :: o.sweepDisposing }, true)

/-- Give a reservation back. -/
def onSweepRelease (id : String) : Orchestrator :=
  { o with sweepDisposing := o.sweepDisposing.filter (· != id) }

/-- A pass came back. -/
def onSwept (res : SweepResultSet) : Orchestrator :=
  let o := { o with sweepInFlight := false }
  if res.listFailed then { o with sweepPassOwed := true }
  else
    { o with
      sweepPassOwed := false, sweepDeferred := res.deferred, sweepCursor := res.cursor
      sweepSkipped := res.skipped
      sweepIdentity :=
        if res.deferred.entries.isEmpty && res.skipped.entries.isEmpty then none
        else o.sweepIdentity }

/-- A workspace that was skipped for its owner has no owner any more. -/
def sweepHandbackOwed : Bool :=
  o.sweepSkipped.keys.any fun id => (o.records.lookup id).isNone && (o.held.lookup id).isNone

/-- Something is left for the sweep to do. -/
def sweepOwed : Bool :=
  o.sweepPassOwed || !o.sweepDeferred.entries.isEmpty || o.sweepInFlight || o.sweepHandbackOwed

/-- Begin another pass, if one is owed. -/
def retrySweep : Orchestrator :=
  if o.sweepInFlight || o.draining || o.scanOwed || o.cycleScanFailed then o
  else if !o.sweepPassOwed && o.sweepDeferred.entries.isEmpty && !o.sweepHandbackOwed then o
  else
    let moved := match o.sweepIdentity with
      | some i => decide (i ≠ o.bundle.identity)
      | none => false
    let deferred := if moved then ∅ else o.sweepDeferred
    let skipped := if moved then ∅ else o.sweepSkipped
    let passOwed := moved || o.sweepPassOwed
    let owned := o.ownedIssues
    let handedBack := skipped.entries.filter fun e => !owned.contains e.1
    let deferred := handedBack.foldl (fun d e => d.insert e.2.key e.2) deferred
    let skipped := handedBack.foldl (fun s e => s.erase e.1) skipped
    let refs := (deferred.entries.map (·.2)).insertionSort fun a b => a.key ≤ b.key
    let o := { o with
      sweepDeferred := deferred, sweepSkipped := skipped, sweepPassOwed := passOwed
      sweepIdentity := some o.bundle.identity, sweepInFlight := true }
    o.spawn (.sweep
      { refs := if passOwed then [] else refs, full := passOwed, owned := owned
        cursor := o.sweepCursor } none)

/-! ## Startup -/

/-- The reads of a startup. -/
structure StartupReads where
  endedCycles : List WorkspaceRef := []
  endedCyclesErr : Option Err := none
  candidates : Except Err (List Issue) := .ok []
  facts : String → RecoveryReads := fun _ => {}
  sweep : SweepResultSet := {}

/-- Recover at startup, before the first tick. -/
def recover (reads : StartupReads) : Orchestrator :=
  let cur := o.cur
  let cycles := cur.runtime.workspaces.endedCycleSource
  let o :=
    if cycles then
      (o.applyCycleScan cur.runtime.workspaces reads.endedCycles reads.endedCyclesErr true).1
    else { o with cycleScanFailed := false }
  match reads.candidates with
  | .error _ => { o with scanOwed := true, sweepPassOwed := true }
  | .ok candidates =>
    if cycles && reads.endedCyclesErr.isSome then
      { o with
        scanOwed := true, sweepPassOwed := true, sweepIdentity := some cur.runtime.identity }
    else
      let o := candidates.foldl (fun o issue =>
        o.recoverCandidate issue cur (reads.facts issue.identifier)) o
      let res := reads.sweep
      { o with
        sweepPassOwed := res.listFailed, sweepDeferred := res.deferred
        sweepSkipped := res.skipped, sweepCursor := res.cursor
        sweepIdentity :=
          if res.listFailed || !res.deferred.entries.isEmpty || !res.skipped.entries.isEmpty
          then some cur.runtime.identity else o.sweepIdentity }

end Ben.Orchestrator
