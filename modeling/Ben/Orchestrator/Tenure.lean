import Ben.Orchestrator.System

/-!
# The life of a tenure

What a tenure has come to can be told from three things: the part of its record that decides
where it is, the workers that are out for it, and what the history says was done for it.  This
module gathers them into one value and says how each primitive update of the loop changes it.
Most of what the loop does changes none of it, and is then invisible here.
-/

namespace Ben

variable [Platform]

/-! ## The record -/

/-- The part of a record that decides where its tenure is. -/
structure Phase where
  id : String
  title : String
  body : String
  approvedAt : Time
  state : State
  claimVerified : Bool
  claimEpoch : Int
  claimBaseDispatch : Bool
  epochFaulted : Bool
  workspace : Workspace
  handle : Option Handle
  stopping : Bool
  budgetStop : Bool
  finish : Bool
  probeInFlight : Bool
  stopInFlight : Bool
  eventsClosed : Bool
  /-- The claim is being released, or nothing is left of it. -/
  leaving : Bool
  pending : Int
  suspended : Bool
  verifyRetry : Bool
  domainQuiet : Bool
  outcome : Bool
  /-- The outcome that is held is a success. -/
  succeeded : Bool
  summarizing : Bool
  summarized : Bool
  parkOnBudgetPending : Bool
  generation : Nat
  recovered : Bool
  unclassified : Bool
  attempt : Int
  attemptBase : Int
  turns : Int
  costUSD : Cost
  /-- The cost cap of the definition the record last adopted, zero meaning none. -/
  maxCost : Cost

/-- The cost cap, zero meaning none. -/
def Limits.maxCost (limits : Limits) : Cost := limits.maxCostUSD.getD 0

/-- The phase a record is in. -/
def Record.phase (r : Record) : Phase where
  id := r.issue.identifier
  title := r.issue.title
  body := r.issue.body
  approvedAt := r.approvedAt
  state := r.state
  claimVerified := r.claimVerified
  claimEpoch := r.claimEpoch
  claimBaseDispatch := r.claimBaseDispatch
  epochFaulted := r.epochFaulted
  workspace := r.workspace
  handle := r.handle
  stopping := r.stopping
  budgetStop := r.budgetStop
  finish := r.finish.isSome
  probeInFlight := r.probeInFlight
  stopInFlight := r.stopInFlight
  eventsClosed := r.eventsClosed
  leaving := r.releasing || r.gone || r.claimLost
  pending := r.pending
  suspended := r.suspended
  verifyRetry := r.verifyRetry
  domainQuiet := r.domainQuiet
  outcome := r.outcome.isSome
  succeeded := r.outcome.any fun out => out.event.type == .succeeded
  summarizing := r.summarizing
  summarized := r.summarized
  parkOnBudgetPending := r.parkOnBudgetPending
  generation := r.generation
  recovered := r.recovered
  unclassified := r.unclassified
  attempt := r.attempt
  attemptBase := r.attemptBase
  turns := r.turns
  costUSD := r.costUSD
  maxCost := r.definition.limits.maxCost

/-! ## The workers that are out -/

/-- What a worker is out for, where that matters to its attempt. -/
inductive Duty where
  | claim
  | approval
  | claimBase
  | prepare
  | start
  /-- Forwarding the run's open stream. -/
  | pump
  /-- Waiting for a run whose stream is closed. -/
  | drain
  | probe
  | stop
  /-- The loop's own word that there was nothing to stop. -/
  | selfStop
  | summary
  | timer
  | verify
  deriving DecidableEq, Repr

/-- The record counts the worker among those its exit waits for. -/
@[simp] def Duty.awaited : Duty → Bool
  | .pump | .drain | .probe | .stop | .selfStop | .timer => false
  | _ => true

namespace Worker

/-- What a worker is out for and which attempt it is of. -/
def duty : Worker → Option (Duty × Tag)
  | .claim tag _ => some (.claim, tag)
  | .approval tag _ _ _ => some (.approval, tag)
  | .claimBase tag _ _ _ _ => some (.claimBase, tag)
  | .prepare tag _ _ _ => some (.prepare, tag)
  | .start tag _ _ _ _ => some (.start, tag)
  | .pump tag _ _ closed => some (if closed then .drain else .pump, tag)
  | .probe tag _ => some (.probe, tag)
  | .stop tag _ _ => some (.stop, tag)
  | .stopped tag => some (.selfStop, tag)
  | .summary tag _ => some (.summary, tag)
  | .timer tag _ => some (.timer, tag)
  | .timerFetch tag _ _ _ => some (.timer, tag)
  | .verify tag _ _ _ => some (.verify, tag)
  | _ => none

/-- The worker is out for this purpose, for this attempt of this tenure. -/
def is (d : Duty) (t : Token) (g : Nat) (w : Worker) : Bool :=
  match w.duty with
  | some (d', tag) => d' == d && tag.token == t && tag.generation == g
  | none => false

/-- The worker is out for this tenure, and the record's exit waits for it. -/
def awaits (t : Token) (w : Worker) : Bool :=
  match w.duty with
  | some (d, tag) => d.awaited && tag.token == t
  | none => false

/-- The worker verifies, for this attempt, another workspace than this one. -/
def strayVerify (ws : Workspace) (t : Token) (g : Nat) : Worker → Bool
  | .verify tag _ ws' _ => tag.token == t && tag.generation == g && ws' != ws
  | _ => false

/-- The worker probes or stops, for this attempt, the handle of another, or starts it under another
issue than this one. -/
def strayRun (id : String) (t : Token) (g : Nat) : Worker → Bool
  | .start tag _ _ _ _ => tag.token == t && tag.generation == g && tag.issue != id
  | .probe tag handle => tag.token == t && tag.generation == g && handle != g
  | .stop tag handle _ => tag.token == t && tag.generation == g && handle != g
  | _ => false

/-- The worker reports the completion of an exit of this tenure. -/
def exits (t : Token) : Worker → Bool
  | .effectDone tag what _ => tag.token == t && isExit what
  | _ => false

end Worker

/-- The job is an exit of this tenure. -/
def Job.exits (t : Token) : Job → Bool
  | .owed tag eff => tag.token == t && isExit eff.what
  | .heldRelease _ _ _ => false

/-- How many workers are out for a tenure, by what they are out for and by attempt. -/
@[ext]
structure Out where
  claims : Nat → Nat
  approvals : Nat → Nat
  claimBases : Nat → Nat
  prepares : Nat → Nat
  starts : Nat → Nat
  pumps : Nat → Nat
  drains : Nat → Nat
  probes : Nat → Nat
  stops : Nat → Nat
  selfStops : Nat → Nat
  summaries : Nat → Nat
  timers : Nat → Nat
  verifies : Nat → Nat
  strayVerifies : Workspace → Nat → Nat
  strayRuns : String → Nat → Nat
  awaited : Nat

/-- Count the workers of a bag that are out for a tenure. -/
def outstanding (t : Token) (workers : List (Nat × Worker)) : Out where
  claims g := workers.countP fun e => e.2.is .claim t g
  approvals g := workers.countP fun e => e.2.is .approval t g
  claimBases g := workers.countP fun e => e.2.is .claimBase t g
  prepares g := workers.countP fun e => e.2.is .prepare t g
  starts g := workers.countP fun e => e.2.is .start t g
  pumps g := workers.countP fun e => e.2.is .pump t g
  drains g := workers.countP fun e => e.2.is .drain t g
  probes g := workers.countP fun e => e.2.is .probe t g
  stops g := workers.countP fun e => e.2.is .stop t g
  selfStops g := workers.countP fun e => e.2.is .selfStop t g
  summaries g := workers.countP fun e => e.2.is .summary t g
  timers g := workers.countP fun e => e.2.is .timer t g
  verifies g := workers.countP fun e => e.2.is .verify t g
  strayVerifies ws g := workers.countP fun e => e.2.strayVerify ws t g
  strayRuns id g := workers.countP fun e => e.2.strayRun id t g
  awaited := workers.countP fun e => e.2.awaits t

/-- One more worker of an attempt. -/
def bump (f : Nat → Nat) (g : Nat) : Nat → Nat := fun g' => if g' = g then f g' + 1 else f g'

section

omit [Platform]

@[simp] lemma bump_self (f : Nat → Nat) (g : Nat) : bump f g g = f g + 1 := by simp [bump]

lemma bump_pos (f : Nat → Nat) (g : Nat) : 0 < bump f g g := by simp

/-- Where one worker is out at most, none is left besides it. -/
lemma eq_zero_of_bump {f : Nat → Nat} {g : Nat} (h : bump f g g ≤ 1) : f g = 0 := by simpa using h

lemma bump_of_ne (f : Nat → Nat) {g g' : Nat} (h : g' ≠ g) : bump f g g' = f g' := by
  simp [bump, h]

lemma le_bump (f : Nat → Nat) (g g' : Nat) : f g' ≤ bump f g g' := by
  unfold bump
  split <;> omega

end

/-- One more worker out, for this purpose and this attempt. -/
def Out.add (out : Out) (d : Duty) (g : Nat) : Out :=
  let out := if d.awaited then { out with awaited := out.awaited + 1 } else out
  match d with
  | .claim => { out with claims := bump out.claims g }
  | .approval => { out with approvals := bump out.approvals g }
  | .claimBase => { out with claimBases := bump out.claimBases g }
  | .prepare => { out with prepares := bump out.prepares g }
  | .start => { out with starts := bump out.starts g }
  | .pump => { out with pumps := bump out.pumps g }
  | .drain => { out with drains := bump out.drains g }
  | .probe => { out with probes := bump out.probes g }
  | .stop => { out with stops := bump out.stops g }
  | .selfStop => { out with selfStops := bump out.selfStops g }
  | .summary => { out with summaries := bump out.summaries g }
  | .timer => { out with timers := bump out.timers g }
  | .verify => { out with verifies := bump out.verifies g }

/-! ## The history -/

namespace Act

/-- The act sends out the preparation of this attempt of the tenure. -/
def prepares (t : Token) (g : Nat) : Act → Bool
  | .spawned (.prepare tag _ _ _) => tag.token == t && tag.generation == g
  | _ => false

/-- The act relies on nothing of the tenure's last run being left. -/
def relies (t : Token) : Act → Bool
  | .spawned (.prepare tag _ _ _) => tag.token == t
  | .spawned (.verify tag _ _ _) => tag.token == t
  | .routed t' => t' == t
  | .freesMarker t' => t' == t
  | .endsCycle t' => t' == t
  | .owes t' eff => t' == t && match eff.does with
    | .disposePublished _ | .disposeRevoked _ _ | .completeFailure _ | .completeShutdown _ => true
    | _ => false
  | _ => false

/-- The act treats the tenure's work as published. -/
def publishes (t : Token) : Act → Bool
  | .entered t' entry => t' == t && entry.target == .done
  | .owes t' eff => t' == t && match eff.does with
    | .comment _ c => c.milestone == .published
    | .disposePublished _ => true
    | _ => false
  | _ => false

/-- The workspace an act orders disposed as published. -/
def publishedWorkspace : Act → Option Workspace
  | .owes _ eff => match eff.does with
    | .disposePublished ws => some ws
    | _ => none
  | _ => none

/-- What the act does to the attempts that may still be running. -/
def onLive (t : Token) (a : Act) (running : List Handle) : List Handle :=
  match a with
  | .spawned (.start tag _ _ _ _) =>
    if tag.token = t then tag.generation :: running else running
  | .startAnswered tag handle =>
    if tag.token = t ∧ handle = false then running.filter (· != tag.generation) else running
  | .confirmed t' h => if t' = t then running.filter (· != h) else running
  | _ => running

/-- The content the act pins for the tenure. -/
def pin (t : Token) : Act → Option ApprovedContent
  | .pinned t' a => if t' = t then some a else none
  | _ => none

/-- The content of the tenure's check the act records. -/
def approval (t : Token) : Act → Option ApprovedContent
  | .approved t' a => if t' = t then some a else none
  | _ => none

/-- The variables of the prompt the act starts the tenure's agent with. -/
def startVars (t : Token) : Act → Option Vars
  | .spawned (.start tag _ vars _ _) => if tag.token = t then some vars else none
  | _ => none

/-- The act is the terminal event of the run of this attempt. -/
def terminates (t : Token) (g : Nat) : Act → Bool
  | .emitted tag event =>
    tag.token == t && tag.generation == g && (event.type == .succeeded || event.type == .failed)
  | _ => false

/-- The cost the act adds to the tenure's. -/
def cost (t : Token) : Act → Option Cost
  | .spent t' c => if t' = t then some c else none
  | _ => none

/-- The act restores the tenure's budgets. -/
def requeues (t : Token) : Act → Bool
  | .requeued t' => t' == t
  | _ => false

end Act

/-- The attempts of a tenure whose start may have left something running: those started, less
those whose start came back without a handle or whose handle was confirmed quiet since. -/
def live (t : Token) (trace : List Act) : List Handle := trace.foldr (Act.onLive t) []

/-- The content last pinned in a tenure. -/
def lastPinned (t : Token) (trace : List Act) : Option ApprovedContent :=
  trace.findSome? (Act.pin t)

/-- The content of a tenure's last passed check. -/
def lastApproved (t : Token) (trace : List Act) : Option ApprovedContent :=
  trace.findSome? (Act.approval t)

/-- Everything that relied on nothing of the tenure's last run being left happened when nothing
was. -/
def ReliedWhenFree (t : Token) : List Act → Prop
  | [] => True
  | a :: rest => (a.relies t = true → live t rest = []) ∧ ReliedWhenFree t rest

/-- A prompt rendered from these variables has the content last pinned, and that pin is no older
than the approval last checked. -/
def Pinned (t : Token) (vars : Vars) (trace : List Act) : Prop :=
  ∃ pin approval, lastPinned t trace = some pin ∧ lastApproved t trace = some approval ∧
    vars.issue.title = pin.content.title ∧ vars.issue.body = pin.content.body ∧
    approval.at_ ≤ pin.at_

/-- Every start of the tenure was given the content last pinned before it. -/
def StartedPinned (t : Token) : List Act → Prop
  | [] => True
  | a :: rest => (∀ vars ∈ a.startVars t, Pinned t vars rest) ∧ StartedPinned t rest

/-- The verifier answered that the work in a workspace of an issue is published. -/
def Certified (id : String) (ws : Workspace) (trace : List Act) : Prop :=
  .verifier id ws .published ∈ trace

/-- Everything that treated the tenure's work as published came after the verifier's word for
the workspace. -/
def PublishedCertified (t : Token) (id : String) (ws : Workspace) : List Act → Prop
  | [] => True
  | a :: rest =>
    (a.publishes t = true → Certified id ws rest ∧ ∀ ws' ∈ a.publishedWorkspace, ws' = ws) ∧
      PublishedCertified t id ws rest

/-- The agents started in a tenure since its budgets were last restored. -/
def starts (t : Token) : List Act → Nat
  | [] => 0
  | a :: rest =>
    if a.requeues t then 0 else starts t rest + if (a.startVars t).isSome then 1 else 0

/-- Whenever an agent was started, fewer than this many had been since the budgets were last
restored. -/
def StartedWithin (t : Token) (n : Int) : List Act → Prop
  | [] => True
  | a :: rest =>
    ((a.startVars t).isSome = true → (starts t rest : Int) < n) ∧ StartedWithin t n rest

/-- The cost of a tenure since its budgets were last restored. -/
def spent (t : Token) : List Act → Cost
  | [] => 0
  | a :: rest =>
    if a.requeues t then 0 else (a.cost t).elim (spent t rest) fun c => spent t rest + c

/-- Since the budgets were last restored, usage has taken the cost over the cap. -/
def Overrun (t : Token) (cap : Cost) : List Act → Prop
  | [] => False
  | a :: rest =>
    a.requeues t = false ∧ ((∃ c ∈ a.cost t, cap < spent t rest + c) ∨ Overrun t cap rest)

/-- No agent was started after the cost had gone over the cap and before the budgets were restored
again. -/
def StartedFrugally (t : Token) (cap : Cost) : List Act → Prop
  | [] => True
  | a :: rest =>
    ((a.startVars t).isSome = true → ¬ Overrun t cap rest) ∧ StartedFrugally t cap rest

/-- What the history says was done for a tenure. -/
@[ext]
structure Past where
  /-- A preparation was sent out for this attempt. -/
  prepared : Nat → Prop
  live : List Handle
  pin : Option ApprovedContent
  approval : Option ApprovedContent
  certified : String → Workspace → Prop
  published : Prop
  startedPinned : Prop
  reliedWhenFree : Prop
  publishedCertified : String → Workspace → Prop
  /-- The run of this attempt has emitted its terminal event. -/
  terminal : Nat → Prop
  starts : Nat
  startedWithin : Int → Prop
  spent : Cost
  overrun : Cost → Prop
  startedFrugally : Cost → Prop

/-- The history of a tenure. -/
def past (t : Token) (trace : List Act) : Past where
  prepared g := ∃ a ∈ trace, a.prepares t g = true
  live := live t trace
  pin := lastPinned t trace
  approval := lastApproved t trace
  certified id ws := Certified id ws trace
  published := ∃ a ∈ trace, a.publishes t = true
  startedPinned := StartedPinned t trace
  reliedWhenFree := ReliedWhenFree t trace
  publishedCertified id ws := PublishedCertified t id ws trace
  terminal g := ∃ a ∈ trace, a.terminates t g = true
  starts := starts t trace
  startedWithin n := StartedWithin t n trace
  spent := spent t trace
  overrun cap := Overrun t cap trace
  startedFrugally cap := StartedFrugally t cap trace

/-! ## Tenures -/

/-- All that matters about a tenure. -/
@[ext]
structure Tenure where
  phase : Phase
  out : Out
  past : Past
  /-- The table has the tenure's record. -/
  attached : Prop
  /-- The sweep holds a reservation of the tenure's issue. -/
  reserved : Prop
  /-- An exit of the tenure is owed, queued or being reported. -/
  exits : Prop
  /-- The limits in force. -/
  limits : Limits

/-- All that matters about the tenures of the loop. -/
@[ext]
structure View where
  tenure : Token → Tenure
  next : Token
  records : AList (fun _ : String => Token)

/-- Replace what matters about one tenure. -/
def View.set (V : View) (t : Token) (v : Tenure) : View :=
  { V with tenure := Function.update V.tenure t v }

namespace Orchestrator

/-- An exit of the tenure is owed, queued or being reported. -/
def ExitOwed (o : Orchestrator) (t : Token) : Prop :=
  (∃ eff ∈ (o.heap t).owed, isExit eff.what = true) ∨
    (∃ job ∈ o.effects, job.exits t = true) ∨ ∃ e ∈ o.workers, e.2.exits t = true

/-- The table has this tenure under this issue. -/
def Has (o : Orchestrator) (id : String) (t : Token) : Prop := o.records.lookup id = some t

/-- Nothing of the tenure's runs is left. -/
def Free (o : Orchestrator) (t : Token) : Prop := live t o.trace = []

/-- All that matters about a tenure. -/
def tenure (o : Orchestrator) (t : Token) : Tenure where
  phase := (o.heap t).phase
  out := outstanding t o.workers
  past := past t o.trace
  attached := o.Has (o.heap t).issue.identifier t
  reserved := (o.heap t).issue.identifier ∈ o.sweepDisposing
  exits := o.ExitOwed t
  limits := o.definition.limits

/-- All that matters about the tenures of the loop. -/
def view (o : Orchestrator) : View where
  tenure := o.tenure
  next := o.nextToken
  records := o.records

end Orchestrator

end Ben
