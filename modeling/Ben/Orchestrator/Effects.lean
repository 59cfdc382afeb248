import Ben.Orchestrator.Loop

/-!
# Effects the loop owes

A record's tracker and workspace writes are owed in order and driven one at a time; a failed
write stays at the head and is tried again.  The two effects that remove a record wait for the
ended-cycle obligations of its issue.  Transitions, milestones, releases and disposals are all
stated in terms of what they owe.
-/

namespace Ben.Orchestrator

variable [Platform] (o : Orchestrator) (t : Token)

/-! ## Primitive updates -/

/-- Update the record of a tenure. -/
def modify (f : Record → Record) : Orchestrator :=
  { o with heap := Function.update o.heap t (f (o.heap t)) }

/-- Append to the history. -/
def note (act : Act) : Orchestrator := { o with trace := act :: o.trace }

/-- Send a worker out. -/
def spawn (w : Worker) : Orchestrator :=
  { o with
    workers := (o.nextWorker, w) :: o.workers
    nextWorker := o.nextWorker + 1
    trace := .spawned w :: o.trace }

/-- The address of a record's current attempt. -/
def tag : Tag := ⟨(o.heap t).issue.identifier, t, (o.heap t).generation⟩

/-- The definition in force. -/
def definition : Definition := o.cur.definition

/-- The adapters in force. -/
def bundle : Bundle := o.cur.runtime

/-- Put a job on the ordered queue, unless the queue is full. -/
def enqueue (job : Job) : Orchestrator × Bool :=
  if o.effects.length < effectsQueueDepth then ({ o with effects := o.effects ++ [job] }, true)
  else (o, false)

/-! ## Ended cycles -/

/-- The issue has an ended cycle whose disposal is not confirmed, as far as can be told. -/
def endedCycleOwed (id : String) : Bool :=
  o.cycleScanFailed || o.endedCycles.entries.any fun c => c.2.issue == id

/-- The address and identity of a cycle, blank when the provider's cycles end with the claim. -/
def cycleWorkspace (workspaces : Workspaces) (ws : Workspace) : Workspace :=
  if !workspaces.lifecycleCompleter || ws.key = "" then {}
  else { path := ws.path, key := ws.key, branch := ws.branch, claimEpoch := ws.claimEpoch }

/-- Owe the disposal of an ended cycle, once for each address. -/
def oweEndedCycle (id : String) (workspaces : Workspaces) (ws : Workspace) (why : String) :
    Orchestrator :=
  let cycle := cycleWorkspace workspaces ws
  if cycle.key = "" || cycle.path = "" then o
  else if (o.endedCycles.lookup cycle.path).isSome then o
  else { o with
    endedCycles := o.endedCycles.insert cycle.path
      { issue := id, workspace := cycle, workspaces := workspaces, why := why } }

/-! ## Owing and driving -/

/-- Drive the head of what a record owes. -/
def driveOwed : Orchestrator :=
  let r := o.heap t
  if r.owedInFlight then o
  else match r.owed with
    | [] => o
    | eff :: _ =>
      if isExit eff.what && o.endedCycleOwed r.issue.identifier then o
      else
        let sent := o.enqueue (.owed (o.tag t) eff)
        sent.1.modify t fun r => { r with owedInFlight := sent.2 }

/-- Owe an effect and drive it if nothing is before it. -/
def oweEffect (eff : OwedEffect) : Orchestrator :=
  let o := (o.modify t fun r => { r with owed := r.owed ++ [eff] }).note (.owes t eff)
  o.driveOwed t

/-- Owe an effect that is not a projection. -/
def owe (what : String) (target : EffectTarget) (does : Effect) : Orchestrator :=
  o.oweEffect t { what := what, target := target, does := does }

/-- Owe a state-label projection. -/
def oweProjection (what : String) (does : Effect) : Orchestrator :=
  o.oweEffect t { what := what, target := .tracker, projection := true, does := does }

/-- Move a record, if the map allows it, log the move and owe the label of the new state when it
differs. -/
def transitionCaused (next : State) (reason : String) (cause : FailureReason) : Orchestrator × Bool
    :=
  let r := o.heap t
  if !allowed r.state next then (o, false)
  else
    let o := (o.modify t fun r => { r with state := next }).note (.entered t
      { at_ := o.now, issue := r.issue.identifier, source := r.state, target := next
        reason := reason, runID := r.runID, failureReason := cause })
    if stateLabel next = stateLabel r.state then (o, true)
    else
      let what :=
        if r.state = .queued ∧ next = .claimed then effectClaimLabel
        else "project " ++ labelName (stateLabel next)
      (o.oweProjection t what (.setStateLabels r.issue (stateLabel next)), true)

/-- Move a record for no failure. -/
def transition (next : State) (reason : String) : Orchestrator × Bool :=
  o.transitionCaused t next reason .none

/-- Owe a milestone comment. -/
def comment (c : MilestoneComment) : Orchestrator :=
  o.owe t ("comment " ++ c.milestone.name) .tracker (.comment (o.heap t).issue c)

/-- Remove whatever record the table has for an issue. -/
def forget (identifier : String) : Orchestrator := { o with records := o.records.erase identifier }

/-- Owe the abandoning of a claim base that was begun and never pinned. -/
def abandonPendingClaimBase : Orchestrator :=
  if (o.heap t).claimBaseAbandonOwed then o
  else
    let o := o.modify t fun r => { r with claimBaseAbandonOwed := true }
    o.owe t effectAbandonClaimBase .localSide (.abandonPendingClaimBase (o.heap t).issue)

/-- Owe the release of the claim, once. -/
def release (why : String) : Orchestrator :=
  if (o.heap t).releasing then o
  else
    let o := o.modify t fun r => { r with releasing := true, stopReason := why }
    let o := o.abandonPendingClaimBase t
    o.owe t effectRelease .tracker (.release (o.heap t).issue)

/-- The attempt is over: fire its hook once, if it ran. -/
def attemptEnded : Orchestrator :=
  let r := o.heap t
  if !r.ranThisAttempt || r.afterRunFired then o
  else
    let o := o.modify t fun r => { r with afterRunFired := true }
    if !o.bundle.workspaces.afterRunner || !r.hasWorkspace then o
    else o.owe t "after_run hook" .localSide (.afterRun r.workspace)

/-- Log the attempt's outcome, once for each attempt that began. -/
def recordAttempt (reason : FailureReason) (verdict : Verdict) : Orchestrator :=
  let r := o.heap t
  if r.attemptRecorded || decide (r.attemptStartedAt = 0) then o
  else
    (o.modify t fun r => { r with attemptRecorded := true }).note (.attempt t
      { issue := r.issue.identifier, attempt := r.attempt, turns := r.turns, runID := r.runID
        agent := r.attemptAgent, startedAt := r.attemptStartedAt, endedAt := o.now
        ran := r.ranThisAttempt, failureReason := reason, verdict := verdict
        usage := r.attemptUsage })

/-! ## Disposals -/

/-- Owe one disposal of the record's workspace, at most once in its tenure. -/
def oweDisposal (complete : Workspace → Effect) : Orchestrator :=
  let r := o.heap t
  if !r.hasWorkspace || r.disposalOwed then o
  else
    let o := o.modify t fun r => { r with disposalOwed := true }
    o.owe t "dispose workspace" .localSide (complete r.workspace)

/-- The workspace's work is published. -/
def disposePublished : Orchestrator := o.oweDisposal t .disposePublished

/-- The run failed for good. -/
def completeFailure : Orchestrator :=
  if !o.bundle.workspaces.lifecycleCompleter then o else o.oweDisposal t .completeFailure

/-- Owe the end of the record's own cycle where cycles outlive claims; whether anything is owed
for the issue then. -/
def oweRemoteRevocation : Orchestrator × Bool :=
  let r := o.heap t
  let before := o.endedCycleOwed r.issue.identifier
  let o := (o.oweEndedCycle r.issue.identifier o.bundle.workspaces r.workspace
    "claim revoked by tracker state").note (.endsCycle t)
  (o, before || o.endedCycleOwed r.issue.identifier)

/-- The claim was revoked by what the tracker says. -/
def disposeRevoked (keep : Bool) : Orchestrator :=
  let revoked := o.oweRemoteRevocation t
  if revoked.2 then revoked.1 else revoked.1.oweDisposal t (.disposeRevoked · keep)

/-- End the record's own cycle and nothing else. -/
def completeRevocationOnly : Orchestrator := (o.oweRemoteRevocation t).1

/-- The daemon is shutting down. -/
def completeShutdown : Orchestrator :=
  if !o.bundle.workspaces.lifecycleCompleter then o else o.oweDisposal t .completeShutdown

/-! ## Slots -/

/-- A record that occupies a slot. -/
def occupiesSlot (r : Record) : Bool :=
  match r.state with
  | .queued | .claimed | .preparing | .running => true
  | .verifying => !r.domainQuiet
  | _ => false

/-- The number of records that occupy a slot. -/
def runningCount : Nat := o.records.entries.countP fun e => occupiesSlot (o.heap e.2)

/-- The slots still free under a definition. -/
def freeSlots (definition : Definition) : Int :=
  let free := definition.limits.maxConcurrentAgents - o.runningCount
  if free < 0 then 0 else free

/-- Another attempt is allowed since the budgets were last restored. -/
def attemptsRemain : Bool :=
  decide ((o.heap t).attempt - (o.heap t).attemptBase < o.definition.limits.maxAttempts)

/-- Another continuation turn is allowed. -/
def continuable : Bool := decide ((o.heap t).turns < o.definition.limits.maxTurns)

/-! ## Routing -/

/-- The issue is in an active state. -/
def active (definition : Definition) (issue : Issue) : Bool :=
  containsFold (if definition.activeStates.isEmpty then ["open"] else definition.activeStates)
    issue.state

/-- Every required label is on the issue. -/
def hasRequiredLabels (definition : Definition) (issue : Issue) : Bool :=
  definition.requiredLabels.all fun want => containsFold issue.labels want

/-- The issue still carries the required labels and is assigned to the principal alone. -/
def routable (cur : Snapshot) (issue : Issue) : Bool :=
  hasRequiredLabels cur.definition issue &&
    match issue.assignees with
    | [a] => equalFold a cur.runtime.claimPrincipal
    | _ => false

/-- One of the daemon's state labels is on the issue. -/
def hasStateLabel (issue : Issue) : Bool :=
  issue.labels.any fun l =>
    let head := String.ofList (l.toList.take 4)
    decide (IsAscii head) && equalFold head "ben:"

end Ben.Orchestrator
