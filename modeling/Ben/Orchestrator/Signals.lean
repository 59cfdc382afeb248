import Ben.Orchestrator.Recover

/-!
# The turns of the loop

A tick asks for a reconciliation, whose answer drives everything that waits for another try and
then asks for candidates to dispatch.  Every turn ends by driving a shutdown that has been asked
for.
-/

namespace Ben.Orchestrator

variable [Platform] (o : Orchestrator) (t : Token)

/-- The orders in which one turn visits the loop's maps. -/
structure Orders where
  records : List String := []
  refreshed : List String := []
  held : List String := []
  heldExits : List String := []
  exits : List String := []
  recovery : List String := []
  verify : List String := []
  shutdown : List String := []

/-- Apply a function to every record of the table. -/
def eachRecord (order : List String) (f : Orchestrator → Token → Orchestrator) : Orchestrator :=
  (visitOrder order o.records.keys).foldl (fun o id =>
    match o.records.lookup id with
    | some t => f o t
    | none => o) o

/-! ## Reconciliation -/

/-- The records a reconciliation asks about by themselves. -/
def refreshes (s : State) : Bool :=
  match s with
  | .claimed | .running | .preparing | .verifying => true
  | _ => false

/-- Ask the tracker about the records in flight, the parked ones and the retained claims. -/
def beginReconcile (order : List String) : Orchestrator :=
  if o.reconcileInFlight then o
  else
    let o := { o with reconcileInFlight := true }
    let ids := visitOrder order o.records.keys
    let wants := ids.filterMap fun id =>
      (o.records.lookup id).bind fun t => if refreshes (o.heap t).state then some (id, t) else none
    let parked := ids.filterMap fun id =>
      (o.records.lookup id).bind fun t =>
        let r := o.heap t
        if r.state = .needsReview ∧ !r.exiting ∧ !r.absenceInFlight then
          some (⟨id, !r.owesProjection⟩, t)
        else none
    let held := o.held.entries.map fun e => (e.1, e.2.token)
    o.spawn (.reconcile wants parked held (!held.isEmpty || !parked.isEmpty))

/-- Ask again for every verification that was given up for a tick. -/
def driveVerifyRetry (order : List String) : Orchestrator :=
  o.eachRecord order fun o t =>
    let r := o.heap t
    if r.state != .verifying || !r.verifyRetry || decide (r.pending > 0) || r.suspended ||
        r.exiting then o
    else (o.modify t fun r => { r with verifyRetry := false }).beginVerify t

/-- A tick. -/
def onTick (orders : Orders) : Orchestrator :=
  (o.beginCycleScan.driveVerifyRetry orders.verify).beginReconcile orders.records

/-- Ask for candidates to dispatch. -/
def beginDispatchReads : Orchestrator :=
  if o.dispatchInFlight || o.reconcileInFlight || o.draining || o.cycleScanInFlight ||
      o.cycleScanFailed then o
  else
    let o := { o with dispatchInFlight := true }
    o.spawn (.dispatch o.cur.revision)

/-- Apply a refreshed reading to the record its issue has now. -/
def reconcileOne (id : String) (res : RefreshResult) (cur : Snapshot) : Orchestrator :=
  match o.records.lookup id with
  | none => o
  | some t =>
    let r := o.heap t
    if r.exiting || r.state == .needsReview then o
    else if gone res then
      (o.modify t fun r => { r with gone := true }).stopAndFinish t false
        "issue is gone from the tracker"
    else match res.err, res.issue with
      | none, some fresh =>
        if !active cur.definition fresh then o.stopAndFinish t false "issue went terminal"
        else if !routable cur fresh then o.stopAndFinish t true "issue is no longer routable"
        else o.modify t fun r => r.adoptRouting fresh
      | _, _ => o

/-- Apply the refreshed readings. -/
def reconcile (order : List String) (refreshed : List (String × RefreshResult)) (cur : Snapshot) :
    Orchestrator :=
  (visitOrder order (refreshed.map (·.1))).foldl (fun o id =>
    match refreshed.find? (fun e => e.1 == id) with
    | some e => o.reconcileOne id e.2 cur
    | none => o) o

/-- Give one record another try at whatever it waits for. -/
def retryPendingExit : Orchestrator :=
  let o := (o.driveOwed t).driveHold t
  let o := if (o.heap t).stopping && (o.heap t).handle.isSome then o.beginStop t .discard else o
  let r := o.heap t
  let o :=
    if r.state = .queued ∧ r.claimVerified then
      if r.claimEpoch > 0 then o.beginClaimBase t else o.beginApproval t
    else o
  let r := o.heap t
  let o :=
    if r.state = .backoff ∧ r.claimBaseDispatch ∧ r.claimEpoch > 0 then o.beginClaimBase t else o
  o.confirmQuiet t

/-- Give every record another try at whatever it waits for. -/
def retryPendingExits (order : List String) : Orchestrator := o.eachRecord order retryPendingExit

/-- The answer of a sweep, if one was asked for. -/
structure SweepRead where
  issues : List Issue := []
  err : Option Err := none

/-- A reconciliation came back. -/
def onReconciled (orders : Orders) (refreshed : List (String × RefreshResult))
    (parked : List ParkedWant) (sweep : Option SweepRead) : Orchestrator :=
  let o := { o with reconcileInFlight := false }
  let cur := o.cur
  let o := o.reconcile orders.refreshed refreshed cur
  let swept := match sweep with
    | some s =>
      let held := o.sweepHeld orders.held s.issues s.err cur
      (held.1.sweepParked parked s.issues s.err cur, held.2)
    | none => (o, [])
  let o := swept.1.offerHeldConfirmations swept.2
  let o := (o.retryHeldExits orders.heldExits).driveEndedCycles
  let o := (o.retryPendingExits orders.exits).offerOwedConfirmations
  ((o.driveMarkerClears.retryRecovery orders.recovery).retrySweep).beginDispatchReads

/-! ## Dispatch -/

/-- The candidate may be claimed. -/
def eligible (c : Issue) : Bool :=
  c.dispatchable && (o.records.lookup c.identifier).isNone &&
    (o.held.lookup c.identifier).isNone && !o.endedCycleOwed c.identifier &&
    !o.sweepDisposing.contains c.identifier

/-- Earlier candidates first, identifiers breaking ties. -/
def dispatchBefore (a b : Issue) : Bool :=
  if a.createdAt ≠ b.createdAt then decide (a.createdAt < b.createdAt)
  else decide (a.identifier ≤ b.identifier)

/-- Claim candidates while slots are free. -/
def claimWhileFree (o : Orchestrator) (cur : Snapshot) : List Issue → Orchestrator
  | [] => o
  | issue :: rest =>
    if o.freeSlots cur.definition ≤ 0 then o
    else (o.beginClaim issue cur).claimWhileFree cur rest

/-- Dispatch the eligible candidates. -/
def dispatch (candidates : List Issue) (cur : Snapshot) : Orchestrator :=
  if o.draining then o
  else
    o.claimWhileFree cur
      ((candidates.filter o.eligible).insertionSort fun a b => dispatchBefore a b)

/-- The candidates came back. -/
def onTickResult (orders : Orders) (candidates : List Issue) (err : Option Err) (revision : Nat) :
    Orchestrator :=
  let o := { o with dispatchInFlight := false }
  if o.cur.revision ≠ revision then o.onTick orders
  else if o.cur.blocked.isSome || err.isSome || o.cycleScanInFlight || o.cycleScanFailed then o
  else o.dispatch candidates o.cur

/-- The periodic reading of the directory of ended cycles came back. -/
def onCycleScan (workspaces : Workspaces) (refs : List WorkspaceRef) (err : Option Err)
    (seq : Nat) : Orchestrator :=
  let o := { o with cycleScanInFlight := false }
  let fresh := seq == o.cycleMutationSeq && o.cycleMutationsInFlight == 0
  let o := if err.isSome || fresh then (o.applyCycleScan workspaces refs err fresh).1 else o
  o.beginDispatchReads

/-- The reading of the directory that came with a claim base; whether it stands. -/
def claimBaseScan (workspaces : Workspaces) (refs : List WorkspaceRef) (err : Option Err)
    (seq : Nat) : Orchestrator × Bool :=
  let o :=
    if o.cycleMutationsInFlight ≤ 0 then { o with cycleScanFailed := true }
    else { o with cycleMutationsInFlight := o.cycleMutationsInFlight - 1 }
  if err.isSome then o.applyCycleScan workspaces refs err false
  else if seq = o.cycleMutationSeq then ((o.applyCycleScan workspaces refs err false).1, true)
  else (o, true)

/-! ## Configuration and shutdown -/

/-- Work that must not outlive a change of identity. -/
def identityWorkOutstanding : Bool :=
  !o.records.entries.isEmpty || !o.held.entries.isEmpty || !o.endedCycles.entries.isEmpty ||
    o.scanOwed || o.scanInFlight || o.cycleScanInFlight || o.cycleScanFailed ||
    decide (o.cycleMutationsInFlight > 0) || o.sweepOwed || !o.markerClears.isEmpty

/-- Adopt a configuration built for a definition, unless it moves the identity while work of the
old one is out. -/
def onAdopt (next : Bundle) : Orchestrator :=
  if decide (o.bundle.identity ≠ next.identity) && o.identityWorkOutstanding then o
  else
    { o with cur :=
        { definition := next.definition, runtime := next, revision := o.cur.revision + 1 } }

/-- Suspend one record for shutdown, or carry on with the exit it is on. -/
def suspend : Orchestrator :=
  if (o.heap t).orderedExit then o.driveOwed t
  else
    let o := o.modify t fun r => { r with suspended := true }
    let o :=
      if (o.heap t).handle.isNone ∧ (o.heap t).pending = 0 then
        (o.recordAttempt t .killed .unknown).completeShutdown t
      else o
    let o := o.driveOwed t
    if (o.heap t).handle.isSome && !(o.heap t).domainQuiet then o.beginStop t .interrupt else o

/-- Nothing a shutdown waits for is left. -/
def drained : Bool :=
  o.records.entries.all (fun e =>
    let r := o.heap e.2
    !(decide (r.pending > 0) || r.probeInFlight || r.stopInFlight ||
      (r.handle.isSome && !r.handleDone) || (r.handle.isSome && !r.domainQuiet) ||
      r.owesAnything || r.owedInFlight)) &&
    o.endedCycles.entries.isEmpty &&
    o.held.entries.all (fun e => !(e.2.inFlight || e.2.releasing)) &&
    o.markerClears.all fun p => !p.inFlight

/-- Drive a shutdown that has been asked for. -/
def driveShutdown (order : List String) : Orchestrator :=
  if !o.draining then o
  else
    let o := o.eachRecord order suspend
    if o.drained then { o with drainWaiters := 0 } else o

/-- A shutdown is asked for. -/
def onShutdown (orders : Orders) : Orchestrator :=
  let o := { o with drainWaiters := o.drainWaiters + 1, draining := true }
  o.driveShutdown orders.shutdown

end Ben.Orchestrator
