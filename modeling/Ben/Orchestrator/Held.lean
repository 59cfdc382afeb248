import Ben.Orchestrator.Pipeline
import Ben.Orchestrator.Rotate

/-!
# Retained claims

A finished run whose pull request awaits review gives up its record and keeps the claim.  A
retained claim is watched through the periodic sweep and released once the issue goes terminal,
leaves the workflow, is closed inside the claim cycle or has its approval replaced.
-/

namespace Ben.Orchestrator

variable [Platform] (o : Orchestrator) (t : Token)

/-- The change log names no standing approval to compare against. -/
def errApprovalUnread : Err :=
  { text := "orchestrator: the change log names no standing approval to compare against"
    approvalUnread := true }

/-- Whether the approval a workspace cycle was recorded under is no longer the standing one. -/
def cycleSuperseded (workspaces : Workspaces) (standing : Int) (recorded : Int)
    (err : Option Err) : Bool × Option Err :=
  if !workspaces.cycleApprovalSource then (false, none)
  else if standing ≤ 0 then (false, some errApprovalUnread)
  else if err.isSome then (false, err)
  else (decide (recorded > 0) && decide (recorded ≠ standing), none)

/-- Update a retained claim. -/
def modifyHeld (id : String) (f : HeldClaim → HeldClaim) : Orchestrator :=
  match o.held.lookup id with
  | none => o
  | some h => { o with held := o.held.insert id (f h) }

/-- The finished record owes nothing more and can give way to a retained claim. -/
def readyToConvert : Bool :=
  let r := o.heap t
  r.state == .done && o.records.lookup r.issue.identifier == some t &&
    !r.exiting && !r.owesAnything && r.pending == 0 && !r.convertInFlight

/-- Ask for the claim cycle the finished record belongs to. -/
def driveHold : Orchestrator :=
  if !o.readyToConvert t then o
  else
    let r := o.heap t
    let o := o.modify t fun r => { r with convertInFlight := true }
    o.spawn (.claimAnchor (o.tag t) r.issue o.bundle.claimPrincipal
      o.bundle.definition.requiredLabels o.bundle.workspaces)

/-- Ask whether the finished record's issue is still ours. -/
def confirmDoneOwnership : Orchestrator :=
  let o := o.modify t fun r => { r with convertInFlight := true }
  o.spawn (.doneOwnership (o.tag t))

/-- Replace the finished record by a retained claim. -/
def convertToHeld (anchor : Int) (revision : String) : Orchestrator :=
  let r := o.heap t
  let id := r.issue.identifier
  { o with
    nextToken := o.nextToken + 1
    held := o.held.insert id
      { issue := r.issue, prURL := r.prURL, revision := revision
        workspace := cycleWorkspace o.bundle.workspaces r.workspace
        cycleAnchor := anchor, token := o.nextToken + 1 }
    records := o.records.erase id }

/-- The claim cycle of a finished record came back. -/
def onClaimAnchor (err : Option Err) (anchor : Int) (superseded : Bool) (approvalErr : Option Err)
    (revision : String) : Orchestrator :=
  let o := o.modify t fun r => { r with convertInFlight := false }
  if !o.readyToConvert t then o
  else
    let r := o.heap t
    let id := r.issue.identifier
    match err with
    | some e =>
      if e.issueNotFound then
        ((o.oweEndedCycle id o.bundle.workspaces r.workspace
          "issue is gone from the tracker").note (.endsCycle t)).forget id
      else o
    | none =>
      if (approvalErr.map (·.approvalUnread)).getD false then o.confirmDoneOwnership t
      else if approvalErr.isSome then o
      else if superseded then
        let why := "the approval anchoring this workspace cycle was withdrawn"
        ((o.oweEndedCycle id o.bundle.workspaces r.workspace why).note (.endsCycle t)).release t why
      else if anchor = 0 then o.confirmDoneOwnership t
      else o.convertToHeld t anchor revision

/-- Why a single-issue read ends the issue's workspace cycle, if it does. -/
def cycleEndedBy (definition : Definition) (res : RefreshResult) : Option String :=
  if gone res then some "issue is gone from the tracker"
  else match res.err, res.issue with
    | none, some issue =>
      if !active definition issue then some "issue went terminal"
      else if !hasRequiredLabels definition issue then
        some "issue left the workflow's label partition"
      else none
    | _, _ => none

/-- Whether the finished record's issue is still ours came back. -/
def onDoneOwnership (res : RefreshResult) : Orchestrator :=
  let o := o.modify t fun r => { r with convertInFlight := false }
  if !o.readyToConvert t then o
  else
    let r := o.heap t
    let id := r.issue.identifier
    let o := match cycleEndedBy o.definition res with
      | some why =>
        (o.oweEndedCycle id o.bundle.workspaces r.workspace why).note (.endsCycle t)
      | none => o
    if gone res then o.forget id
    else match res.err, res.issue with
      | none, some fresh =>
        if !containsFold fresh.assignees o.bundle.claimPrincipal then o.forget id
        else if !active o.definition fresh then
          o.release t "issue went terminal before the claim cycle could be anchored"
        else if !hasRequiredLabels o.definition fresh then
          o.release t ("issue left the workflow's label partition before the claim cycle " ++
            "could be anchored")
        else o
      | _, _ => o

/-! ## Releasing a retained claim -/

/-- Send the release of a retained claim. -/
def driveHeldRelease (id : String) (h : HeldClaim) : Orchestrator :=
  if h.inFlight then o
  else
    let sent := o.enqueue (.heldRelease id h.token h.issue)
    sent.1.modifyHeld id fun h => { h with inFlight := sent.2 }

/-- Release a retained claim as soon as its issue owes no ended cycle. -/
def driveHeldExit (id : String) : Orchestrator :=
  match o.held.lookup id with
  | none => o
  | some h => if h.inFlight || o.endedCycleOwed id then o else o.driveHeldRelease id h

/-- Order a retained claim released. -/
def releaseHeld (id : String) (why : String) : Orchestrator :=
  match o.held.lookup id with
  | none => o
  | some h =>
    if h.releasing || o.draining then o
    else
      let o := o.modifyHeld id fun h => { h with releasing := true, why := why }
      (o.oweEndedCycle id o.bundle.workspaces h.workspace why).driveHeldExit id

/-- Drop a retained claim. -/
def dropHeld (id : String) : Orchestrator := { o with held := o.held.erase id }

/-! ## Watching retained claims -/

/-- Ask for the history of a retained claim that changed. -/
def checkHeldHistory (id : String) (h : HeldClaim) (fresh : Issue) : Orchestrator :=
  let o := o.modifyHeld id fun h => { h with inFlight := true }
  o.spawn (.heldHistory id h.token fresh o.bundle.claimPrincipal
    o.bundle.definition.requiredLabels o.bundle.workspaces)

/-- Apply a sweep's reading of a retained claim. -/
def classifyHeld (id : String) (h : HeldClaim) (fresh : Issue) (cur : Snapshot) : Orchestrator :=
  if !active cur.definition fresh then o.releaseHeld id "issue went terminal"
  else if !hasRequiredLabels cur.definition fresh then
    o.releaseHeld id "issue left the workflow's label partition"
  else if fresh.revision ≠ h.revision then o.checkHeldHistory id h fresh
  else o.modifyHeld id fun h => { h with issue := fresh }

/-- The last issue of a sweep's answer with this identifier. -/
def sweptIssue (issues : List Issue) (id : String) : Option Issue :=
  issues.reverse.find? fun i => i.identifier == id

/-- Apply a sweep's answer to one retained claim; `true` if the answer does not have it. -/
def sweepHeldOne (id : String) (issues : List Issue) (cur : Snapshot) : Orchestrator × Bool :=
  match o.held.lookup id with
  | none => (o, false)
  | some h =>
    if h.releasing || h.inFlight then (o, false)
    else match sweptIssue issues id with
      | none => (o, true)
      | some fresh => (o.classifyHeld id h fresh cur, false)

/-- Apply a sweep's answer to the retained claims; the ones the answer does not have. -/
def sweepHeld (order : List String) (issues : List Issue) (err : Option Err) (cur : Snapshot) :
    Orchestrator × List String :=
  if o.draining || err.isSome then (o, [])
  else (visitOrder order o.held.keys).foldl (fun (acc : Orchestrator × List String) id =>
    let swept := acc.1.sweepHeldOne id issues cur
    (swept.1, if swept.2 then acc.2 ++ [id] else acc.2)) (o, [])

/-- Ask whether a retained claim still stands. -/
def confirmHeldClaim (id : String) : Orchestrator :=
  match o.held.lookup id with
  | none => o
  | some h =>
    let o := o.modifyHeld id fun h =>
      { h with releaseFailed := if h.releasing then false else h.releaseFailed, inFlight := true }
    o.spawn (.heldConfirm id h.token)

/-- Ask about one retained claim that is missing from the sweep or whose release failed. -/
def offerHeldConfirmations (absent : List String) : Orchestrator :=
  let failed := o.held.entries.filter fun e => e.2.releasing && e.2.releaseFailed && !e.2.inFlight
  let picked := rotate (absent ++ failed.map (·.1)) o.heldCursor 1
  picked.1.foldl (fun o id => o.confirmHeldClaim id) { o with heldCursor := picked.2 }

/-- Try again to release the retained claims that are to be released. -/
def retryHeldExits (order : List String) : Orchestrator :=
  (visitOrder order o.held.keys).foldl (fun o id =>
    match o.held.lookup id with
    | none => o
    | some h => if h.releasing then o.driveHeldExit id else o) o

/-- The release of a retained claim came back. -/
def onHeldReleased (id : String) (token : Token) (err : Option Err) : Orchestrator :=
  match o.held.lookup id with
  | none => o
  | some h =>
    if h.token ≠ token then o
    else if err.isSome then
      o.modifyHeld id fun h => { h with inFlight := false, releaseFailed := true }
    else o.dropHeld id

/-- Whether a retained claim still stands came back. -/
def onHeldConfirmed (id : String) (token : Token) (res : RefreshResult) : Orchestrator :=
  match o.held.lookup id with
  | none => o
  | some h =>
    if h.token ≠ token then o
    else
      let o := o.modifyHeld id fun h => { h with inFlight := false }
      let o := match h.releasing, cycleEndedBy o.definition res with
        | false, some why => o.oweEndedCycle id o.bundle.workspaces h.workspace why
        | _, _ => o
      if gone res then o.dropHeld id
      else match res.err, res.issue with
        | none, some fresh =>
          if !containsFold fresh.assignees o.bundle.claimPrincipal then o.dropHeld id
          else if h.releasing then o.driveHeldExit id
          else o.modifyHeld id fun h => { h with issue := fresh }
        | _, _ => if h.releasing then o.driveHeldExit id else o

/-- The history of a retained claim came back. -/
def onHeldHistory (id : String) (token : Token) (err : Option Err) (fresh : Issue) (anchor : Int)
    (closed superseded : Bool) (approvalErr : Option Err) : Orchestrator :=
  match o.held.lookup id with
  | none => o
  | some h =>
    if h.token ≠ token then o
    else
      let o := o.modifyHeld id fun h => { h with inFlight := false }
      if err.isSome || anchor = 0 then o
      else
        let o := o.modifyHeld id fun h => { h with cycleAnchor := anchor }
        if closed then o.releaseHeld id "issue was closed inside this claim cycle"
        else if approvalErr.isSome then o
        else if superseded then
          o.releaseHeld id "the approval anchoring this workspace cycle was withdrawn"
        else o.modifyHeld id fun h => { h with issue := fresh, revision := fresh.revision }

end Ben.Orchestrator
