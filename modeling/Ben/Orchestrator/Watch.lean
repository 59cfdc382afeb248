import Ben.Orchestrator.Cycle

/-!
# Watching parked records and failing writes

A parked record waits for a person to remove its state label.  A record missing from the sweep,
or whose write keeps failing, is asked about by itself, one in each tick.
-/

namespace Ben.Orchestrator

variable [Platform] (o : Orchestrator) (t : Token)

/-! ## Effects that came back -/

/-- What the completion of an effect sets off. -/
def afterEffect (what : String) : Orchestrator :=
  if what = effectClaimLabel then o.onClaimProjected t
  else if what = effectRelease ∨ what = effectForget then o.forget (o.heap t).issue.identifier
  else o

/-- An owed effect came back. -/
def onEffectDone (what : String) (err : Option Err) : Orchestrator :=
  let o := o.modify t fun r => { r with owedInFlight := false }
  let r := o.heap t
  let toTracker := (r.owed.head?.map fun eff => eff.target == .tracker).getD false
  if err.isSome then
    if r.gone && toTracker then
      (o.modify t fun r => { r with owed := r.owed.tail, owedWriteFailed := false }).driveOwed t
    else if toTracker then o.modify t fun r => { r with owedWriteFailed := true }
    else o
  else
    let o := o.modify t fun r => { r with owed := r.owed.tail, owedWriteFailed := false }
    ((o.afterEffect t what).driveOwed t).driveHold t

/-! ## Failing writes -/

/-- Ask whether the issue of a failing write still exists. -/
def confirmOwedAbsence : Orchestrator :=
  let what := ((o.heap t).owed.head?.map (·.what)).getD ""
  let o := o.modify t fun r => { r with absenceInFlight := true }
  o.spawn (.owedConfirm (o.tag t) what)

/-- Ask about one record whose tracker write is failing. -/
def offerOwedConfirmations : Orchestrator :=
  if o.draining then o
  else
    let candidates := o.records.entries.filter fun e =>
      let r := o.heap e.2
      r.owedWriteFailed && !r.owed.isEmpty && !r.gone && !r.absenceInFlight
    let picked := rotate (candidates.map (·.1)) o.owedCursor 1
    picked.1.foldl (fun o id =>
      match o.records.lookup id with
      | some t => o.confirmOwedAbsence t
      | none => o) { o with owedCursor := picked.2 }

/-- Whether the issue of a failing write still exists came back. -/
def onOwedConfirmed (res : RefreshResult) : Orchestrator :=
  let o := o.modify t fun r => { r with absenceInFlight := false }
  let r := o.heap t
  if r.gone || !r.owedWriteFailed then o
  else if gone res then
    ((o.modify t fun r => { r with gone := true }).stopAndFinish t false
      "issue is gone from the tracker").driveOwed t
  else o

/-! ## Parked records -/

/-- Apply a reading of a parked record's issue. -/
def applyParked (fresh : Issue) (cur : Snapshot) (labelsUsable : Bool) : Orchestrator :=
  if !active cur.definition fresh then o.stopAndFinish t false "issue went terminal"
  else
    let o := o.modify t fun r => r.adoptRouting fresh
    if !labelsUsable || hasStateLabel fresh then o
    else
      let o := (o.modify t fun r => r.restoreBudgets).note (.requeued t)
      let r := o.heap t
      if r.epochFaulted then
        (o.oweProjection t "re-project ben:needs-review for epoch fault"
          (.setStateLabels r.issue .needsReview)).comment t
            { milestone := .needsReview, detail := r.epochFaultDetail }
      else o.enterBackoff t "human removed the state label; budgets restored" .none

/-- Ask about a parked record missing from the sweep. -/
def confirmParkedAbsence : Orchestrator :=
  let settled := !(o.heap t).owesProjection
  let o := o.modify t fun r => { r with absenceInFlight := true }
  o.spawn (.parkedConfirm (o.tag t) settled)

/-- Ask about one parked record missing from the sweep. -/
def offerParkedConfirmations (absent : List String) : Orchestrator :=
  let picked := rotate absent o.parkedCursor 1
  picked.1.foldl (fun o id =>
    match o.records.lookup id with
    | some t => o.confirmParkedAbsence t
    | none => o) { o with parkedCursor := picked.2 }

/-- Apply a sweep's answer to one parked record; `true` if the answer does not have it. -/
def sweepParkedOne (w : ParkedWant) (issues : List Issue) (cur : Snapshot) : Orchestrator × Bool :=
  match o.records.lookup w.id with
  | none => (o, false)
  | some t =>
    let r := o.heap t
    if r.exiting || r.state != .needsReview || r.absenceInFlight then (o, false)
    else match sweptIssue issues w.id with
      | none => (o, true)
      | some fresh => (o.applyParked t fresh cur (w.labelsSettled && !r.owesProjection), false)

/-- Apply a sweep's answer to the parked records it was asked about. -/
def sweepParked (wants : List ParkedWant) (issues : List Issue) (err : Option Err)
    (cur : Snapshot) : Orchestrator :=
  if err.isSome then o
  else
    let swept := wants.foldl (fun (acc : Orchestrator × List String) w =>
      let one := acc.1.sweepParkedOne w issues cur
      (one.1, if one.2 then acc.2 ++ [w.id] else acc.2)) (o, [])
    swept.1.offerParkedConfirmations swept.2

/-- A question about a parked record came back. -/
def onParkedConfirmed (res : RefreshResult) (settled : Bool) : Orchestrator :=
  let o := o.modify t fun r => { r with absenceInFlight := false }
  let r := o.heap t
  if r.exiting || r.state != .needsReview then o
  else if gone res then
    (o.modify t fun r => { r with gone := true }).stopAndFinish t false
      "issue is gone from the tracker"
  else match res.err, res.issue with
    | none, some fresh =>
      if !containsFold fresh.assignees o.bundle.claimPrincipal then
        let keep := active o.definition fresh
        (o.modify t fun r => { r with claimLost := true }).stopAndFinish t keep
          (if keep then "the principal is no longer assigned"
            else "issue went terminal and the principal is no longer assigned")
      else o.applyParked t fresh o.cur (settled && !r.owesProjection)
    | _, _ => o

end Ben.Orchestrator
