import Ben.Orchestrator.Held

/-!
# Ended workspace cycles

Where a workspace outlives the claim it was made for, a cycle that has ended owes a disposal.
The provider keeps a durable directory of these obligations; the loop learns of them from
readings of that directory, made by a periodic scan and by every worker that begins a claim base.
A reading is applied only if no mutation has been counted since it was asked for.
-/

namespace Ben.Orchestrator

variable [Platform] (o : Orchestrator) (t : Token)

/-- Take over the obligations a reading of the directory names. -/
def adoptDurableEndedCycles (workspaces : Workspaces) (refs : List WorkspaceRef) : Orchestrator :=
  refs.foldl (fun o ref =>
    o.oweEndedCycle ref.identifier workspaces { path := ref.path, key := ref.key }
      "the approval was withdrawn and re-applied while BEN was not observing it") o

/-- Apply a reading of the directory; whether it could be read. -/
def applyCycleScan (workspaces : Workspaces) (refs : List WorkspaceRef) (err : Option Err)
    (mayClear : Bool) : Orchestrator × Bool :=
  if err.isSome then ({ o with cycleScanFailed := true }, false)
  else
    let o := o.adoptDurableEndedCycles workspaces refs
    ({ o with cycleScanFailed := if mayClear then false else o.cycleScanFailed }, true)

/-- Begin the periodic reading of the directory. -/
def beginCycleScan : Orchestrator :=
  if o.cycleScanInFlight || o.draining || decide (o.cycleMutationsInFlight > 0) then o
  else if !o.bundle.workspaces.endedCycleSource then { o with cycleScanFailed := false }
  else
    let o := { o with cycleScanInFlight := true }
    o.spawn (.cycleScan o.bundle.workspaces o.cycleMutationSeq)

/-- An obligation is discharged: owe the candidate scan again if one was held back by it, and
let go whatever waited for it. -/
def clearEndedCycle (address : String) : Orchestrator :=
  match o.endedCycles.lookup address with
  | none => o
  | some c =>
    let id := c.issue
    let o := { o with
      scanOwed := o.scanOwed || c.deferredCandidate
      endedCycles := o.endedCycles.erase address }
    if o.endedCycleOwed id then o
    else
      let o := match o.held.lookup id with
        | some h => if h.releasing then o.driveHeldExit id else o
        | none => o
      match o.records.lookup id with
      | some t => o.driveOwed t
      | none => o

/-- Dispose of an ended cycle. -/
def disposeEndedCycle (address : String) : Orchestrator :=
  match o.endedCycles.lookup address with
  | none => o
  | some c =>
    if !c.workspaces.lifecycleCompleter then o.clearEndedCycle address
    else
      let o := { o with endedCycles := o.endedCycles.insert address { c with inFlight := true } }
      o.spawn (.cycleDispose address c.workspace)

/-- Dispose of one ended cycle, unless the record of its issue owes something first. -/
def driveEndedCycles : Orchestrator :=
  let candidates := o.endedCycles.entries.filter fun e =>
    !e.2.inFlight && match o.records.lookup e.2.issue with
      | some t => !(o.heap t).owesBeforeExit
      | none => true
  let picked := rotate (candidates.map (·.1)) o.disposalCursor 1
  picked.1.foldl (fun o address => o.disposeEndedCycle address)
    { o with disposalCursor := picked.2 }

/-- A disposal came back. -/
def onCycleDisposed (address : String) (err : Option Err) : Orchestrator :=
  match o.endedCycles.lookup address with
  | none => o
  | some c =>
    let o := { o with endedCycles := o.endedCycles.insert address { c with inFlight := false } }
    if err.isSome then o
    else
      let o := { o with cycleMutationSeq := o.cycleMutationSeq + 1 }
      o.clearEndedCycle address

end Ben.Orchestrator
