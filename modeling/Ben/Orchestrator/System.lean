import Ben.Orchestrator.Signals

/-!
# Runs of the loop

The loop together with its surroundings as a transition system.  An input is one event of the
surroundings: a tick, the answer of a worker that is out, the execution of the job at the head
of the ordered queue, a request to shut down, a change of configuration, time passing.  The loop
handles one input at a time, and a run is a list of inputs that could each be taken.
-/

namespace Ben.Orchestrator

variable [Platform] (o : Orchestrator) (t : Token)

/-- What a worker may come back with. -/
inductive Answer where
  | claim (verified : Bool) (err : Option Err)
  | approval (history : Except Err (List ClaimEvent)) (approval : Except Err ContentApproval)
  | claimBase (err : Option Err) (cycles : List WorkspaceRef) (cyclesErr : Option Err)
      (base : ClaimBase) (baseErr : Option Err)
  | prepare (ws : Workspace) (facts : LocalBranchFacts) (err : Option Err) (base : ClaimBase)
      (baseErr : Option Err)
  | start (handle : Bool) (err : Option Err)
  | event (event : RunEvent)
  | closed
  | done
  | termination (termination : Termination)
  | summary (facts : AttemptFacts) (err : Option Err)
  | ack
  | timerFetch (fresh : RefreshResult) (history : Except Err (List ClaimEvent))
      (approval : Except Err ContentApproval) (base : ClaimBase) (baseErr : Option Err)
      (marker : RunMarker) (markerErr : Option Err)
  | verify (history : Except Err (List ClaimEvent)) (base : ClaimBase) (baseErr : Option Err)
      (res : Except Err VerifyResult)
  | refresh (res : RefreshResult)
  | history (history : Except Err (List ClaimEvent)) (recorded : Int) (recordedErr : Option Err)
  | recover (fresh : RefreshResult) (reads : RecoveryReads)
  | reconcile (refreshed : String → RefreshResult) (sweep : SweepRead)
  | issues (candidates : List Issue) (err : Option Err)
  | cycles (refs : List WorkspaceRef) (err : Option Err)
  | outcome (err : Option Err)
  | sweepReserve (id : String)
  | sweepRelease
  | swept (res : SweepResultSet)

/-- One event of the loop's surroundings. -/
inductive Input where
  | tick (orders : Orders)
  | answer (serial : Nat) (a : Answer) (orders : Orders)
  | runEffect (err : Option Err)
  | shutdown (orders : Orders)
  | adopt (next : Bundle) (orders : Orders)
  | block (blocked : Option Err)
  | pass (nanoseconds : Nat)

/-! ## Delivering signals -/

/-- Give a signal to the record it is addressed to.  A signal of an earlier tenure is dropped,
and so is one of an earlier attempt, where the attempt matters. -/
def forRecord (tag : Tag) (attemptMatters : Bool) (f : Orchestrator → Token → Orchestrator) :
    Orchestrator :=
  match o.records.lookup tag.issue with
  | none => o
  | some t =>
    if t ≠ tag.token then o
    else if attemptMatters && tag.generation != (o.heap t).generation then o
    else f o t

/-- The text and the error of a read. -/
def readErr {α : Type} : Except Err α → Option Err
  | .error e => some e
  | .ok _ => none

/-- What a fired timer's worker makes of its reads: the first that fails ends them, and the claim
base is only asked for when the record has an epoch. -/
def timerReads (expectedEpoch : Int) (fresh : RefreshResult)
    (history : Except Err (List ClaimEvent)) (approval : Except Err ContentApproval)
    (base : ClaimBase) (baseErr : Option Err) (marker : RunMarker) (markerErr : Option Err) :
    TimerReads :=
  match fresh.err with
  | some e => { refetched := fresh.issue, err := some e }
  | none =>
    match history with
    | .error e => { refetched := fresh.issue, err := some e }
    | .ok events =>
      match approval with
      | .error e => { refetched := fresh.issue, err := some e, history := events }
      | .ok read =>
        let reads : TimerReads := { refetched := fresh.issue, history := events, approval := read }
        if expectedEpoch ≤ 0 then reads
        else
          let reads := { reads with claimBase := base, claimBaseErr := baseErr }
          if baseErr.isNone ∧ base.state = .pending then
            { reads with runMarker := marker, markerErr := markerErr }
          else reads

/-- What the verification worker makes of its reads: the verifier is asked only if the claim
epoch and the claim base still are the workspace's. -/
def verifySignal (ws : Workspace) (principal : String) (history : Except Err (List ClaimEvent))
    (base : ClaimBase) (baseErr : Option Err) (res : Except Err VerifyResult) : VerifySignal :=
  match history with
  | .error e =>
    { err := some (Err.wrap e "reading the current claim epoch before verification")
      claimEpochReadFailed := true }
  | .ok events =>
    let anchor := claimCycleAnchor events principal
    if anchor ≤ 0 ∨ anchor ≠ ws.claimEpoch then
      { epochFault := some ("claim epoch: verification expected assignment " ++
          toString ws.claimEpoch ++ ", current history names " ++ toString anchor) }
    else if baseErr.isSome || !claimBaseAuthorizesWorkspace base ws then
      { epochFault := some ("claim epoch: verification expected " ++ toString ws.claimEpoch ++
          "/" ++ ws.baseSHA ++ "/" ++ ws.targetBranch ++ ", provider returned " ++ base.format ++
          ": " ++ errText baseErr) }
    else match res with
      | .error e => { err := some e }
      | .ok res => { verify := res }

/-- The verification worker's signal is the verifier's own answer. -/
def VerifySignal.answered (s : VerifySignal) : Bool := s.err.isNone && s.epochFault.isNone

/-- What the recovery worker makes of its reads. -/
def recoveredSignal (cur : Snapshot) (fresh : RefreshResult) (reads : RecoveryReads) :
    RecoveredSignal :=
  let nothing : RecoveryFacts := { candidate := ⟨{ identifier := "" }, false, false⟩ }
  match fresh.err, fresh.issue with
  | some e, _ => if e.issueNotFound then .verdict { action := .gone } nothing else .failed
  | none, none => .failed
  | none, some issue =>
    if !containsFold issue.assignees cur.runtime.claimPrincipal then
      .verdict { action := .gone } nothing
    else match recoveryVerdictOf issue cur reads with
      | .error _ => .failed
      | .ok (v, facts) => .verdict v facts

/-- The verifier's answer the recovery worker obtained, if it asked. -/
def noteRecoveryEvidence (cur : Snapshot) (fresh : RefreshResult) (reads : RecoveryReads) :
    Orchestrator :=
  match fresh.err, fresh.issue with
  | none, some issue =>
    if !containsFold issue.assignees cur.runtime.claimPrincipal then o
    else match recoveryFacts issue cur reads with
      | .ok facts => o.noteEvidence facts
      | .error _ => o
  | _, _ => o

/-- What a worker's reads of a change log say about the approval its cycle stands under. -/
def historySuperseded (events : List ClaimEvent) (required : List String)
    (workspaces : Workspaces) (recorded : Int) (recordedErr : Option Err) : Bool × Option Err :=
  cycleSuperseded workspaces (standingApproval events required) recorded recordedErr

/-- The entries of a read, none if it failed. -/
def eventsOf : Except Err (List ClaimEvent) → List ClaimEvent
  | .ok events => events
  | .error _ => []

/-! ## Answers of workers -/

/-- Remove the worker with this serial. -/
def dropWorker (serial : Nat) : Orchestrator :=
  { o with workers := o.workers.eraseP fun e => e.1 == serial }

/-- Replace the worker with this serial. -/
def setWorker (serial : Nat) (w : Worker) : Orchestrator :=
  { o with workers := (serial, w) :: (o.dropWorker serial).workers }

/-- Record that a probe or a stop established quiet. -/
def noteTermination (token : Token) (handle : Handle) (termination : Termination) : Orchestrator :=
  if termination = .confirmed then o.note (.confirmed token handle) else o

/-- Handle the answer of a worker, which has left the bag; `none` if it cannot answer so. -/
def answered (w : Worker) (a : Answer) (orders : Orders) : Option Orchestrator :=
  match w, a with
  | .claim tag _, .claim verified err =>
    some (o.forRecord tag true (·.onClaimed · verified err))
  | .approval tag _ required principal, .approval history approval =>
    let err := match readErr history with
      | some e => some e
      | none => readErr approval
    some (o.forRecord tag true (·.onApproved · (eventsOf history)
      (approval.toOption.getD {}) required principal err))
  | .claimBase tag _ _ workspaces cycleSeq, .claimBase err cycles cyclesErr base baseErr =>
    match cycleSeq with
    | none => some (o.forRecord tag true (·.onClaimBaseBegun · err base baseErr none))
    | some seq =>
      let scanned := o.claimBaseScan workspaces cycles cyclesErr seq
      some (scanned.1.forRecord tag true
        (·.onClaimBaseBegun · err base baseErr (some scanned.2)))
  | .prepare tag _ _ _, .prepare ws facts err base baseErr =>
    some (o.forRecord tag true (·.onPrepared · ws facts err base baseErr))
  | .start tag _ _ _ _, .start handle err =>
    some ((o.note (.startAnswered tag handle)).forRecord tag true
      (·.onStarted · (if handle then some tag.generation else none) err))
  | .probe tag handle, .termination termination =>
    some ((o.noteTermination tag.token handle termination).forRecord tag true
      (·.onProbed · termination))
  | .stop tag handle _, .termination termination =>
    some ((o.noteTermination tag.token handle termination).forRecord tag true
      (·.onStopped · termination))
  | .stopped tag, .ack => some (o.forRecord tag true (·.onStopped · .confirmed))
  | .summary tag _, .summary facts err =>
    some (o.forRecord tag true (·.onSummarized · facts err))
  | .timer tag kind, .ack => some (o.forRecord tag true (·.onTimer · kind))
  | .timerFetch tag kind revision expectedEpoch,
      .timerFetch fresh history approval base baseErr marker markerErr =>
    some (o.forRecord tag true (·.onTimerFetched · kind revision o.definition.requiredLabels
      o.bundle.claimPrincipal
      (timerReads expectedEpoch fresh history approval base baseErr marker markerErr)))
  | .verify tag _ ws principal, .verify history base baseErr res =>
    let s := verifySignal ws principal history base baseErr res
    let o := if s.answered then o.note (.verifier tag.issue ws s.verify.verdict) else o
    some (o.forRecord tag true (·.onVerified · s))
  | .effectDone tag what err, .ack => some (o.forRecord tag false (·.onEffectDone · what err))
  | .owedConfirm tag _, .refresh res => some (o.forRecord tag false (·.onOwedConfirmed · res))
  | .claimAnchor tag issue principal required workspaces, .history history recorded recordedErr =>
    let events := eventsOf history
    let superseded := historySuperseded events required workspaces recorded recordedErr
    some (o.forRecord tag false (·.onClaimAnchor · (readErr history)
      (claimCycleAnchor events principal) superseded.1 superseded.2 issue.revision))
  | .doneOwnership tag, .refresh res => some (o.forRecord tag false (·.onDoneOwnership · res))
  | .parkedConfirm tag settled, .refresh res =>
    some (o.forRecord tag false (·.onParkedConfirmed · res settled))
  | .recover tag revision cur, .recover fresh reads =>
    some ((o.noteRecoveryEvidence cur fresh reads).forRecord tag false
      (·.onRecovered · revision (recoveredSignal cur fresh reads)))
  | .heldConfirm id token, .refresh res => some (o.onHeldConfirmed id token res)
  | .heldHistory id token issue principal required workspaces,
      .history history recorded recordedErr =>
    let events := eventsOf history
    let anchor := claimCycleAnchor events principal
    let superseded := historySuperseded events required workspaces recorded recordedErr
    some (o.onHeldHistory id token (readErr history) issue anchor (closedInCycle events anchor)
      superseded.1 superseded.2)
  | .heldReleased id token err, .ack => some (o.onHeldReleased id token err)
  | .reconcile wants parked _ sweepNeeded, .reconcile refreshed sweep =>
    some (o.onReconciled orders (wants.map fun w => (w.1, refreshed w.1)) (parked.map (·.1))
      (if sweepNeeded then some sweep else none))
  | .dispatch revision, .issues candidates err =>
    some (o.onTickResult orders candidates err revision)
  | .cycleScan workspaces seq, .cycles refs err => some (o.onCycleScan workspaces refs err seq)
  | .cycleDispose address _, .outcome err => some (o.onCycleDisposed address err)
  | .markerClear clear, .outcome err => some (o.onMarkerCleared clear err)
  | .recoveryScan revision, .issues candidates err =>
    some (o.onRecoveryScan orders.recovery candidates err revision)
  | .sweep _ _, .swept res => some (o.onSwept res)
  | _, _ => none

/-- Handle what a worker says while it stays out: a run's stream, and the reservations of a
sweep. -/
def reported (serial : Nat) (w : Worker) (a : Answer) : Option Orchestrator :=
  match w, a with
  | .pump tag handle sawTerminal false, .event e =>
    let sawTerminal := sawTerminal || e.type == .succeeded || e.type == .failed
    some (((o.note (.emitted tag e)).setWorker serial
      (.pump tag handle sawTerminal false)).forRecord tag true (·.onRunEvent · e))
  | .pump tag handle sawTerminal false, .closed =>
    some ((o.setWorker serial (.pump tag handle sawTerminal true)).forRecord tag true
      (·.onEventsClosed · sawTerminal))
  | .pump tag _ _ true, .done =>
    some ((o.dropWorker serial).forRecord tag true (·.onHandleDone ·))
  | .sweep plan none, .sweepReserve id =>
    let granted := o.grantDisposal id
    some (if granted.2 then granted.1.setWorker serial (.sweep plan (some id)) else granted.1)
  | .sweep plan (some id), .sweepRelease =>
    some ((o.onSweepRelease id).setWorker serial (.sweep plan none))
  | _, _ => none

/-- Handle an answer of the worker with this serial. -/
def deliver (serial : Nat) (a : Answer) (orders : Orders) : Option Orchestrator :=
  match o.workers.find? (fun e => e.1 == serial) with
  | none => none
  | some (_, w) =>
    match o.reported serial w a with
    | some o => some o
    | none => (o.dropWorker serial).answered w a orders

/-! ## Steps and runs -/

/-- Execute the job at the head of the ordered queue. -/
def runEffect (err : Option Err) : Option Orchestrator :=
  match o.effects with
  | [] => none
  | job :: rest =>
    let o := { o with effects := rest }.note (.ran job err)
    match job with
    | .owed tag eff => some (o.spawn (.effectDone tag eff.what err))
    | .heldRelease id token _ => some (o.spawn (.heldReleased id token err))

/-- Publish or lift a block on dispatch; the revision moves when the block comes or goes. -/
def publishBlock (blocked : Option Err) : Orchestrator :=
  { o with cur := { o.cur with
      blocked := blocked
      revision := if blocked.isSome = o.cur.blocked.isSome then o.cur.revision
        else o.cur.revision + 1 } }

/-- One input, if it can be taken. -/
def step : Input → Option Orchestrator
  | .tick orders => some ((o.onTick orders).driveShutdown orders.shutdown)
  | .answer serial a orders =>
    (o.deliver serial a orders).map (·.driveShutdown orders.shutdown)
  | .runEffect err => o.runEffect err
  | .shutdown orders => some ((o.onShutdown orders).driveShutdown orders.shutdown)
  | .adopt next orders => some ((o.onAdopt next).driveShutdown orders.shutdown)
  | .block blocked => some (o.publishBlock blocked)
  | .pass n => some { o with now := o.now + n }

/-- The loop before recovery: nothing is known yet. -/
def initial (cur : Snapshot) (daemonInstance : String) (now : Time) : Orchestrator :=
  { cur := cur, daemonInstance := daemonInstance, now := now }

/-- The loop after recovery, about to take its first input. -/
def boot (cur : Snapshot) (daemonInstance : String) (now : Time) (reads : StartupReads) :
    Orchestrator :=
  (initial cur daemonInstance now).recover reads

end Ben.Orchestrator
