import Ben.Orchestrator.Effects

/-!
# Removing run markers

A workspace whose run is known to be gone has its marker removed; a removal that fails is tried
again, and a launch for the same issue abandons the removals that are still pending, waiting out
the ones already executing.
-/

namespace Ben.Orchestrator

variable [Platform] (o : Orchestrator) (t : Token)

/-- Another removal of the same marker is executing. -/
def clearExecutingFor (p : PendingClear) : Bool :=
  o.markerClears.any fun other =>
    other.serial != p.serial && other.inFlight && other.matches p.issue.identifier p.root

/-- Mark a removal as executing, or as no longer executing. -/
def setClearInFlight (serial : Nat) (inFlight : Bool) : Orchestrator :=
  { o with
    markerClears := o.markerClears.map fun (q : PendingClear) =>
      if q.serial = serial then { q with inFlight := inFlight } else q }

/-- Execute one pending removal, unless it or another one of the same marker is executing. -/
def driveMarkerClear (p : PendingClear) : Orchestrator :=
  if p.inFlight || o.clearExecutingFor p then o
  else
    (o.setClearInFlight p.serial true).spawn (.markerClear p.serial)

/-- Execute every pending removal that can be executed. -/
def driveMarkerClears : Orchestrator :=
  o.markerClears.foldl (fun o p =>
    match o.markerClears.find? (fun q => q.serial == p.serial) with
    | none => o
    | some p => o.driveMarkerClear p) o

/-- Remember a removal, unless one that is not abandoned is already pending. -/
def rememberPendingClear (issue : Issue) (root : String) : Orchestrator :=
  if o.markerClears.any fun p => p.matches issue.identifier root && !p.abandoned then o
  else
    { o with
      markerClears := o.markerClears ++ [{ serial := o.nextClear, issue := issue, root := root }]
      nextClear := o.nextClear + 1 }

/-- Order a marker removed. -/
def clearMarkerWith (root : String) (issue : Issue) : Orchestrator :=
  (o.rememberPendingClear issue root).driveMarkerClears

/-- The record's run is known to be gone: free its workspace. -/
def freeWorkspaceMarker : Orchestrator :=
  (o.note (.freesMarker t)).clearMarkerWith o.bundle.identity.root (o.heap t).issue

/-- Drop a removal. -/
def forgetPendingClear (serial : Nat) : Orchestrator :=
  { o with markerClears := o.markerClears.filter fun p => p.serial != serial }

/-- A launch is about to write its own marker: drop the pending removals, and mark the executing
ones, which the launch waits out, so that they are not tried again. -/
def abandonPendingClears (identifier root : String) : Orchestrator × List Nat :=
  let executing := o.markerClears.filter fun p => p.matches identifier root && p.inFlight
  ({ o with
      markerClears := (o.markerClears.filter fun p => !p.matches identifier root || p.inFlight).map
        fun (p : PendingClear) =>
          if p.matches identifier root then { p with abandoned := true } else p },
    executing.map (·.serial))

/-- A removal came back. -/
def onMarkerCleared (serial : Nat) (err : Option Err) : Orchestrator :=
  match o.markerClears.find? (fun p => p.serial == serial) with
  | none => o.driveMarkerClears
  | some p =>
    let o := o.setClearInFlight serial false
    if p.abandoned then (o.forgetPendingClear serial).driveMarkerClears
    else if err.isSome then o
    else (o.forgetPendingClear serial).driveMarkerClears

end Ben.Orchestrator
