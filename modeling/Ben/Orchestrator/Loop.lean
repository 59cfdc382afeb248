import Mathlib.Data.List.Dedup
import Ben.Orchestrator.Record

/-!
# The authority loop: workers, signals and the loop's state

Everything the loop does not do itself it hands to a worker, which reads or writes elsewhere and
comes back with a signal.  A worker that is out is a value in a bag, holding what the source's
goroutine captured; any worker may answer at any time, in any order, with any answer of its
kind.  Tracker and workspace writes that must keep their order go through a queue served by one
executor.

The state also carries the history of what the loop has done, newest first.  No function of the
loop reads it.
-/

namespace Ben

variable [Platform]

/-- The address of a record signal: the issue, the tenure and the attempt. -/
structure Tag where
  issue : String
  token : Token
  generation : Nat
  deriving DecidableEq, Repr

/-- A pass over the workspaces nothing owns. -/
structure SweepPlan where
  refs : List WorkspaceRef := []
  full : Bool := false
  owned : List String := []
  cursor : String := ""
  deriving DecidableEq, Repr

/-- What a pass came to. -/
structure SweepResultSet where
  listFailed : Bool := false
  deferred : AList (fun _ : String => WorkspaceRef) := ∅
  skipped : AList (fun _ : String => WorkspaceRef) := ∅
  cursor : String := ""

/-- A worker that is out, with what it captured when it left. -/
inductive Worker where
  | claim (tag : Tag) (issue : Issue)
  | approval (tag : Tag) (issue : Issue) (required : List String) (principal : String)
  | claimBase (tag : Tag) (issue : Issue) (epoch : Int) (workspaces : Workspaces)
      (cycleSeq : Option Nat)
  | prepare (tag : Tag) (issue : Issue) (attempt : Int) (epoch : Int)
  | start (tag : Tag) (issue : Issue) (vars : Vars) (spec : RunSpec) (waits : List Nat)
  | pump (tag : Tag) (handle : Handle) (sawTerminal closed : Bool)
  | probe (tag : Tag) (handle : Handle)
  | stop (tag : Tag) (handle : Handle) (mode : StopMode)
  | stopped (tag : Tag)
  | summary (tag : Tag) (ws : Workspace)
  | timer (tag : Tag) (kind : TimerKind)
  | timerFetch (tag : Tag) (kind : TimerKind) (revision : Nat) (expectedEpoch : Int)
  | verify (tag : Tag) (issue : Issue) (ws : Workspace) (principal : String)
  | effectDone (tag : Tag) (what : String) (err : Option Err)
  | owedConfirm (tag : Tag) (what : String)
  | claimAnchor (tag : Tag) (issue : Issue) (principal : String) (required : List String)
      (workspaces : Workspaces)
  | doneOwnership (tag : Tag)
  | parkedConfirm (tag : Tag) (settled : Bool)
  | recover (tag : Tag) (revision : Nat) (cur : Snapshot)
  | heldConfirm (id : String) (token : Token)
  | heldHistory (id : String) (token : Token) (issue : Issue) (principal : String)
      (required : List String) (workspaces : Workspaces)
  | heldReleased (id : String) (token : Token) (err : Option Err)
  | reconcile (wants : List (String × Token)) (parked : List (ParkedWant × Token))
      (held : List (String × Token)) (sweepNeeded : Bool)
  | dispatch (revision : Nat)
  | cycleScan (workspaces : Workspaces) (seq : Nat)
  | cycleDispose (address : String) (ws : Workspace)
  | markerClear (serial : Nat)
  | recoveryScan (revision : Nat)
  | sweep (plan : SweepPlan) (reserved : Option String)

/-- A job of the ordered queue. -/
inductive Job where
  | owed (tag : Tag) (eff : OwedEffect)
  | heldRelease (id : String) (token : Token) (issue : Issue)
  deriving DecidableEq, Repr

/-- The outcome of one attempt, as the attempt log keeps it. -/
structure AttemptOutcome where
  issue : String
  attempt : Int
  turns : Int
  runID : String
  agent : AgentDescriptor
  startedAt : Time
  endedAt : Time
  ran : Bool
  failureReason : FailureReason
  verdict : Verdict
  usage : Usage

/-- One entry of the transition log. -/
structure TransitionEntry where
  at_ : Time
  issue : String
  source : State
  target : State
  reason : String
  runID : String
  failureReason : FailureReason := .none
  deriving DecidableEq, Repr

/-- What the history of the loop records. -/
inductive Act where
  /-- A worker left. -/
  | spawned (w : Worker)
  /-- The start of an attempt came back, with a handle or without. -/
  | startAnswered (tag : Tag) (handle : Bool)
  /-- A probe or a stop of this handle answered that nothing of the run is left. -/
  | confirmed (token : Token) (handle : Handle)
  /-- The publish verifier answered for this workspace. -/
  | verifier (issue : String) (ws : Workspace) (verdict : Verdict)
  /-- The content check passed for this tenure and its content was pinned. -/
  | pinned (token : Token) (content : ApprovedContent)
  /-- The content check passed for this tenure at a read. -/
  | approved (token : Token) (content : ApprovedContent)
  /-- The record moved, or was recovered, into a state. -/
  | entered (token : Token) (entry : TransitionEntry)
  /-- The record came to owe an effect. -/
  | owes (token : Token) (eff : OwedEffect)
  /-- The outcome of the record's attempt was acted on. -/
  | routed (token : Token)
  /-- The record's run marker was ordered removed. -/
  | freesMarker (token : Token)
  /-- The disposal of the record's ended cycle was ordered. -/
  | endsCycle (token : Token)
  /-- An attempt outcome was logged. -/
  | attempt (token : Token) (outcome : AttemptOutcome)
  /-- A job of the ordered queue ran. -/
  | ran (job : Job) (err : Option Err)
  /-- An event of an attempt's run was read from its stream. -/
  | emitted (tag : Tag) (event : RunEvent)
  /-- What a usage event cost was added to the record's cost. -/
  | spent (token : Token) (cost : Cost)
  /-- A human re-queued the record and its budgets were restored. -/
  | requeued (token : Token)

/-- The state of the loop. -/
structure Orchestrator where
  cur : Snapshot
  daemonInstance : String := ""
  now : Time := 0
  heap : Token → Record := fun _ => {}
  records : AList (fun _ : String => Token) := ∅
  held : AList (fun _ : String => HeldClaim) := ∅
  nextToken : Token := 0
  reconcileInFlight : Bool := false
  dispatchInFlight : Bool := false
  markerClears : List PendingClear := []
  nextClear : Nat := 0
  sweepDisposing : List String := []
  scanOwed : Bool := false
  scanInFlight : Bool := false
  cycleScanInFlight : Bool := false
  cycleScanFailed : Bool := false
  cycleMutationSeq : Nat := 0
  cycleMutationsInFlight : Int := 0
  sweepPassOwed : Bool := false
  sweepDeferred : AList (fun _ : String => WorkspaceRef) := ∅
  sweepSkipped : AList (fun _ : String => WorkspaceRef) := ∅
  sweepCursor : String := ""
  sweepIdentity : Option Identity := none
  sweepInFlight : Bool := false
  parkedCursor : String := ""
  owedCursor : String := ""
  heldCursor : String := ""
  disposalCursor : String := ""
  endedCycles : AList (fun _ : String => EndedCycle) := ∅
  draining : Bool := false
  drainWaiters : Nat := 0
  effects : List Job := []
  workers : List (Nat × Worker) := []
  nextWorker : Nat := 0
  trace : List Act := []

/-- The depth of the ordered queue. -/
def effectsQueueDepth : Nat := 256

/-- The keys of a map in the order a loop visits them: the order is the runtime's to choose, so
a hint decides it as far as it names keys, and the rest follow. -/
def visitOrder (hint keys : List String) : List String :=
  (hint.filter keys.contains).dedup ++ keys.filter fun k => !hint.contains k

end Ben
