import Ben.Lib.File
import Ben.Lib.Program
import Ben.Remotews.Cycle

/-!
# The remote workspace strategy

The operations of the strategy are programs over the requests below: the files of its store, the
two kinds of locks, the trusted store of pins, the journal of runs, and the backend that holds the
sandboxes.  A file operation is one request, so that another operation of the same issue, or a
crash, may come between any two of them.  Transactions on the live record exclude one another by the
lock of its key; completions of one address by a lock of their own.
-/

namespace Ben.Remotews

open Ben.Review
open Ben.Remote (Claim)

/-- How an operation fails. -/
inductive Refusal where
  | noCycle
  | noCycleDisposal
  | cycleState
  | fault (fault : Fault)
  | claimTargetUnrecorded
  | claimEpoch
  | approvalUnknown
  | noDisposer
  | cycleMoved
  | cycleReplacementPending
  | notQuiet
  | identityMissing
  | claimMismatch
  | hookFailed
  | unanswered
  deriving DecidableEq, Repr

/-! ## Requests -/

/-- What removing the file of an obligation does, and whether its directory was synced after it. -/
inductive Removal where
  | kept
  | gone (synced : Bool)
  deriving DecidableEq

/-- What the journal says about the run of a cycle. -/
inductive JournalRead where
  | noRecord
  | failed
  | record (dispatched : Bool)
  deriving DecidableEq

/-- The status of a run, as far as the reuse of its workspace rests on it. -/
structure Status where
  reachable : Bool
  quiet : Bool
  deriving DecidableEq, Repr

/-- What asking for the status of a run finds. -/
inductive StatusRead where
  | noProcess
  | unsettled
  | failed
  | reports (status : Status)
  deriving DecidableEq

/-- What attaching to a workspace finds. -/
inductive AttachRead where
  | noWorkspace
  | failed
  | found (identity : Remote.Identity)
  deriving DecidableEq

structure AcquireRequest where
  claim : Claim
  branch : Text
  baseSHA : Text
  profileRevision : Text
  deriving DecidableEq

/-- The pin that the trusted store recorded for an assignment. -/
structure RemoteClaim where
  branch : Text
  baseSHA : Text
  targetBranch : Text
  deriving DecidableEq

inductive HookPhase where
  | afterCreate
  | beforeRun
  | afterRun
  | beforeRemove
  deriving DecidableEq

/-- How a hook ends. -/
inductive HookEnd where
  | succeeded
  | failed
  | unanswered
  deriving DecidableEq

/-- Why a cycle is finished with its workspace. -/
inductive Outcome where
  | published
  | failed
  | revoked
  | shutdown
  deriving DecidableEq

/-- What the disposal policy did. -/
inductive Disposed where
  | retained
  | deleted
  | unknown (code : Nat)
  deriving DecidableEq

/-- What an operation asks of its surroundings. -/
inductive Op where
  | lockCycle (key : Text)
  | unlockCycle (key : Text)
  | lockCompletion (address : Text)
  | unlockCompletion (address : Text)
  | readCycle (key : Text)
  | replaceCycle (c : Cycle)
  | removeCycle (key : Text)
  | readDisposal (address : Text)
  | replaceDisposal (d : CycleDisposal)
  | syncDisposal (address : Text)
  | removeDisposal (address : Text)
  | listDisposals
  | workspaceCycle (issue : Text)
  | openJournal (claim : Claim)
  | closeJournal (claim : Claim)
  | discardInbox (claim : Claim)
  | status (claim : Claim)
  | recordClaim (ref : ClaimRef) (retained : List ClaimRef)
  | discardPin (ref : ClaimRef)
  | attach (claim : Claim)
  | acquire (req : AcquireRequest)
  | hook (identity : Remote.Identity) (epoch : Int) (phase : HookPhase) (attempt : Int)
  | restore (c : Cycle) (attempt : Int)
  | complete (claim : Claim) (outcome : Outcome) (prev : Status)

/-- The answers to a request; `none` and `false` are errors. -/
abbrev Ans : Op → Type
  | .lockCycle _ | .unlockCycle _ | .lockCompletion _ | .unlockCompletion _ => Unit
  | .readCycle _ => FileRead Cycle
  | .replaceCycle _ | .removeCycle _ => Bool
  | .readDisposal _ => FileRead CycleDisposal
  | .replaceDisposal _ | .syncDisposal _ => Bool
  | .removeDisposal _ => Removal
  | .listDisposals => Option (List CycleDisposal)
  | .workspaceCycle _ => Option Int
  | .openJournal _ => JournalRead
  | .closeJournal _ | .discardInbox _ => Bool
  | .status _ => StatusRead
  | .recordClaim _ _ => Option RemoteClaim
  | .discardPin _ => Bool
  | .attach _ => AttachRead
  | .acquire _ => Option Remote.Identity
  | .hook _ _ _ _ => HookEnd
  | .restore _ _ => Bool
  | .complete _ _ _ => Option Disposed

abbrev Prog := Program Ans Refusal

abbrev ask (op : Op) : Prog (Ans op) := Program.call op

/-- Go on only if a condition holds. -/
def require (b : Bool) (e : Refusal) : Prog Unit := if b then pure () else .fail e

/-- The value of an outcome that was looked at. -/
def ofExcept {α : Type} : Except Refusal α → Prog α
  | .ok a => pure a
  | .error e => .fail e

/-! ## The store -/

/-- A transaction on the live record of a key. -/
def withCycle {α : Type} (key : Text) (body : Prog α) : Prog α := do
  require (checkKey key) .cycleState
  ask (.lockCycle key)
  let out ← body.attempt
  ask (.unlockCycle key)
  ofExcept out

/-- Refuse a record that has a fault. -/
def refuse : Option Fault → Prog Unit
  | none => pure ()
  | some fault => .fail (.fault fault)

def decodeCycle (key : Text) (c : Cycle) : Prog Cycle := do
  refuse c.validate
  require (c.key = key) .cycleState
  pure c

def loadCycle (key : Text) : Prog Cycle := do
  require (checkKey key) .cycleState
  match ← ask (.readCycle key) with
  | .absent => .fail .noCycle
  | .failed => .fail .cycleState
  | .holds c => decodeCycle key c

def saveCycle (c : Cycle) : Prog Unit := do
  require (checkKey c.key) .cycleState
  refuse c.validate
  require (← ask (.replaceCycle c)) .unanswered

def deleteCycle (key : Text) : Prog Unit := do
  require (checkKey key) .cycleState
  require (← ask (.removeCycle key)) .cycleState

def decodeDisposal (address : Text) (d : CycleDisposal) : Prog CycleDisposal := do
  refuse d.validate
  require (d.address = address) .cycleState
  pure d

def loadCycleDisposal (address : Text) : Prog CycleDisposal := do
  require (address ≠ []) .cycleState
  match ← ask (.readDisposal address) with
  | .absent => .fail .noCycleDisposal
  | .failed => .fail .cycleState
  | .holds d => decodeDisposal address d

def syncDisposal (address : Text) : Prog Unit := do
  require (← ask (.syncDisposal address)) .unanswered

def writeDisposal (d : CycleDisposal) : Prog Unit := do
  require (← ask (.replaceDisposal d)) .unanswered

/-- Repeat the creation of an obligation over the one that stands: its disposition stays, and only
its replacement may advance, while it is unconfirmed. -/
def advanceDisposal (current d : CycleDisposal) : Prog Unit :=
  let next := { d with disposition := current.disposition }
  if current = next then syncDisposal d.address
  else do
    require (current.cycle = d.cycle && current.disposition = .unconfirmed) .cycleState
    writeDisposal next

def saveCycleDisposal (d : CycleDisposal) : Prog Unit := do
  refuse d.validate
  match ← (loadCycleDisposal d.address).attempt with
  | .ok current => advanceDisposal current d
  | .error .noCycleDisposal => writeDisposal d
  | .error e => .fail e

/-! ## The strategy -/

/-- What a strategy is built from, as far as its decisions depend on it. -/
structure Provider where
  repository : Text
  /-- The workspace key of an issue. -/
  key : Text → Text
  hasDisposer : Bool := true
  hasConsumptions : Bool := true
  /-- The trusted store can drop a pin. -/
  canDiscard : Bool := true

namespace Provider

variable (p : Provider)

def branch (key : Text) : Text := txt "ben/" ++ key

/-- The one read that tolerates a record of the legacy version. -/
def loadForTransition (key identifier : Text) : Prog Cycle := do
  let c ← loadCycle key
  require (c.repository = p.repository) .cycleState
  require (identifier = [] || c.issue = identifier) .cycleState
  pure c

def load (key identifier : Text) : Prog Cycle := do
  let c ← p.loadForTransition key identifier
  require (c.version ≠ legacyCycleVersion) .claimTargetUnrecorded
  pure c

/-- The record that a new cycle begins with. -/
def firstClaim (issue : Text) (approval epoch : Int) : Cycle where
  version := cycleVersion
  issue := issue
  key := p.key issue
  repository := p.repository
  branch := branch (p.key issue)
  approval := approval
  state := .pending
  epoch := epoch

/-- Record what the cycle that ends still owns. -/
def recordObligation (current : Cycle) (approval : Int) : Prog Unit :=
  match cycleForDisposal current with
  | some previous => saveCycleDisposal { cycle := previous, replacementApproval := approval }
  | none => pure ()

/-- The record of a cycle as a new assignment leaves it. -/
def reassigned (current : Cycle) (epoch : Int) : Cycle :=
  { current with
    version := cycleVersion
    state := .pending
    epoch := epoch
    baseSHA := []
    outgoingEpoch := current.epoch
    outgoingBaseSHA := current.baseSHA
    targetBranch := []
    outgoingTargetBranch := current.targetBranch }

/-- Another assignment of the cycle that stands. -/
def reassign (current : Cycle) (epoch : Int) : Prog Unit :=
  match current.state with
  | .pending => do
    require (current.epoch = epoch) .cycleState
    require (current.version ≠ legacyCycleVersion) .claimTargetUnrecorded
  | .pinned =>
    if current.epoch = epoch then
      require (current.version ≠ legacyCycleVersion) .claimTargetUnrecorded
    else saveCycle (reassigned current epoch)
  | .unknown _ => .fail .cycleState

/-- The transaction of `beginClaimBase`. -/
def beginCycle (issue : Text) (approval epoch : Int) : Prog Unit := do
  match ← (p.loadForTransition (p.key issue) issue).attempt with
  | .error .noCycle => saveCycle (p.firstClaim issue approval epoch)
  | .error e => .fail e
  | .ok current =>
    if current.approval = approval then reassign current epoch
    else do
      -- The obligation comes first: the other order would lose the old address in a crash.
      recordObligation current approval
      saveCycle (p.firstClaim issue approval epoch)

def standingApproval (issue : Text) : Prog Int := do
  match ← ask (.workspaceCycle issue) with
  | none => .fail .unanswered
  | some approval => do
    require (approval > 0) .approvalUnknown
    pure approval

def beginClaimBase (issue : Text) (epoch : Int) : Prog Unit := do
  require (epoch > 0) .claimEpoch
  require (issue ≠ []) .cycleState
  let approval ← standingApproval issue
  withCycle (p.key issue) (p.beginCycle issue approval epoch)

/-- The transaction of `abandonPendingClaimBase`. -/
def abandonCycle (issue : Text) : Prog Unit := do
  match ← (p.load (p.key issue) issue).attempt with
  | .error .noCycle => pure ()
  | .error e => .fail e
  | .ok c =>
    if c.state ≠ .pending then pure ()
    else if c.outgoingEpoch > 0 then saveCycle c.outgoingPin
    else deleteCycle (p.key issue)

def abandonPendingClaimBase (issue : Text) : Prog Unit := do
  require (issue ≠ []) .cycleState
  withCycle (p.key issue) (p.abandonCycle issue)

end Provider

/-- A record that the store takes for a valid one of the issue. -/
structure Provider.Owns (p : Provider) (issue : Text) (c : Cycle) : Prop where
  valid : c.validate = none
  key : c.key = p.key issue
  keyed : checkKey (p.key issue) = true
  issue : c.issue = issue
  repository : c.repository = p.repository

end Ben.Remotews
