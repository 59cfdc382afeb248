import Ben.Remote.Identity

/-!
# Workspace-cycle records

A remote workspace belongs to a cycle: the work that one approval of an issue stands for.  The
daemon keeps one record per issue, which names the sandbox by its approval and carries the pin that
publications are verified against, by assignment epoch.  When another approval replaces the cycle,
the sandbox of the old one is still owed its disposal, and a record of its own, the obligation,
names it until the backend has confirmed.

A record is pending while its epoch has no pin yet, and then it carries the pin it came from.
`Cycle.forDisposal` is what such a record still owns.
-/

namespace Ben.Remotews

open Ben.Review
open Ben.Remote (Claim)

/-- Where the pin of a record stands.  A decoded record may say anything. -/
inductive CycleState where
  | pending
  | pinned
  | unknown (text : Text)
  deriving DecidableEq, Repr

def cycleVersion : Int := 2

/-- The version of records that did not name the branch a publication targets. -/
def legacyCycleVersion : Int := 1

/-- The record of an issue's workspace cycle. -/
@[ext]
structure Cycle where
  version : Int
  issue : Text
  key : Text
  repository : Text
  branch : Text
  /-- The approval that selects the sandbox. -/
  approval : Int
  superseded : Int := 0
  /-- The base that the sandbox was acquired against. -/
  cycleBaseSHA : Text := []
  state : CycleState
  /-- The assignment that the pin belongs to. -/
  epoch : Int
  baseSHA : Text := []
  targetBranch : Text := []
  outgoingEpoch : Int := 0
  outgoingBaseSHA : Text := []
  outgoingTargetBranch : Text := []
  attempt : Int := 0
  deriving DecidableEq, Repr

/-- What is wrong with a record. -/
inductive Fault where
  | unsupportedVersion (version : Int)
  | legacyTarget
  | notNamed
  | noApproval
  | noEpoch
  | pendingBase
  | outgoingWithoutBase
  | outgoingTargetWithoutBase
  | pinnedWithoutBase
  | pinnedWithoutTarget
  | pinnedOutgoing
  | unknownState (text : CycleState)
  | disposalVersion (version : Int)
  | disposalState (text : CycleState)
  | disposalSuperseded
  | disposalReplacement
  | disposalDisposition
  deriving DecidableEq, Repr

/-- The first clause that is met, if one is. -/
def firstFault (clauses : List (Bool × Fault)) : Option Fault :=
  (clauses.find? Prod.fst).map Prod.snd

lemma firstFault_eq_none {clauses : List (Bool × Fault)} :
    firstFault clauses = none ↔ ∀ clause ∈ clauses, clause.1 = false := by
  simp [firstFault]

namespace Cycle

variable (c : Cycle)

/-- The shapes of a record that are refused, in the order in which they are looked for. -/
def faults : List (Bool × Fault) :=
  let legacy := c.version = legacyCycleVersion
  [(c.version ≠ cycleVersion && !legacy, .unsupportedVersion c.version),
    (legacy && (c.targetBranch ≠ [] || c.outgoingTargetBranch ≠ []), .legacyTarget),
    (c.issue = [] || c.key = [] || c.repository = [] || c.branch = [], .notNamed),
    (c.approval ≤ 0, .noApproval),
    (c.epoch ≤ 0, .noEpoch),
    (c.state = .pending && c.baseSHA ≠ [], .pendingBase),
    (c.state = .pending && c.outgoingEpoch ≠ 0 && c.outgoingBaseSHA = [], .outgoingWithoutBase),
    (c.state = .pending && c.outgoingTargetBranch ≠ [] && c.outgoingBaseSHA = [],
      .outgoingTargetWithoutBase),
    (c.state = .pinned && c.baseSHA = [], .pinnedWithoutBase),
    (c.state = .pinned && !legacy && c.targetBranch = [], .pinnedWithoutTarget),
    (c.state = .pinned && (c.outgoingEpoch ≠ 0 || c.outgoingBaseSHA ≠ [] ||
      c.outgoingTargetBranch ≠ []), .pinnedOutgoing),
    (c.state ≠ .pending && c.state ≠ .pinned, .unknownState c.state)]

def validate : Option Fault := firstFault c.faults

/-- The address of the sandbox, which is also the name of the workspace. -/
def address : Text :=
  txt "remote:" ++ c.repository ++ txt "#" ++ c.key ++ txt "@" ++ itoa c.approval

/-- What the record says once nothing is wrong with it. -/
structure Valid : Prop where
  version : c.version = cycleVersion ∨ c.version = legacyCycleVersion
  legacy : c.version = legacyCycleVersion → c.targetBranch = [] ∧ c.outgoingTargetBranch = []
  named : c.issue ≠ [] ∧ c.key ≠ [] ∧ c.repository ≠ [] ∧ c.branch ≠ []
  approval : 0 < c.approval
  epoch : 0 < c.epoch
  pendingBase : c.state = .pending → c.baseSHA = []
  outgoing : c.state = .pending → c.outgoingEpoch ≠ 0 → c.outgoingBaseSHA ≠ []
  outgoingTarget : c.state = .pending → c.outgoingTargetBranch ≠ [] → c.outgoingBaseSHA ≠ []
  pinnedBase : c.state = .pinned → c.baseSHA ≠ []
  pinnedTarget : c.state = .pinned → c.version ≠ legacyCycleVersion → c.targetBranch ≠ []
  pinnedOutgoing : c.state = .pinned →
    c.outgoingEpoch = 0 ∧ c.outgoingBaseSHA = [] ∧ c.outgoingTargetBranch = []
  state : c.state = .pending ∨ c.state = .pinned

variable {c}

lemma validate_eq_none : c.validate = none ↔ c.Valid := by
  rw [validate, firstFault_eq_none]
  constructor
  · intro h
    simp [faults] at h
    constructor <;> grind
  · intro h
    simp [faults]
    obtain ⟨h1, h2, h3, h4, h5, h6, h7, h8, h9, h10, h11, h12⟩ := h
    grind

end Cycle

/-- A pin as the trusted store is asked for it: by its assignment. -/
structure ClaimRef where
  issue : Text
  key : Text
  epoch : Int
  deriving DecidableEq, Repr

namespace Cycle

variable (c : Cycle)

/-- The pin that a pending record came from, as the record it was.  A pin without a target is one of
the legacy version. -/
def outgoingPin : Cycle :=
  { c with
    state := .pinned
    epoch := c.outgoingEpoch
    baseSHA := c.outgoingBaseSHA
    targetBranch := c.outgoingTargetBranch
    version := if c.outgoingTargetBranch = [] then legacyCycleVersion else c.version
    outgoingEpoch := 0
    outgoingBaseSHA := []
    outgoingTargetBranch := [] }

end Cycle

/-- What a record still owns: its pin, or the pin that it came from.  A first claim that is pending
owns nothing. -/
def cycleForDisposal (c : Cycle) : Option Cycle :=
  match c.state with
  | .pinned =>
    some { c with
      outgoingEpoch := 0
      outgoingBaseSHA := []
      outgoingTargetBranch := []
      superseded := 0 }
  | .pending => if c.outgoingEpoch ≤ 0 then none else some { c.outgoingPin with superseded := 0 }
  | .unknown _ => none

/-- How far the disposal of a replaced cycle has come. -/
inductive Disposition where
  | unconfirmed
  | retained
  | deleted
  | unknown (text : Text)
  deriving DecidableEq, Repr

def cycleDisposalVersion : Int := 1

/-- The obligation to dispose of a replaced cycle. -/
structure CycleDisposal where
  version : Int := cycleDisposalVersion
  cycle : Cycle
  replacementApproval : Int
  disposition : Disposition := .unconfirmed
  deriving DecidableEq, Repr

namespace CycleDisposal

variable (d : CycleDisposal)

def address : Text := d.cycle.address

def faults : List (Bool × Fault) :=
  [(d.version ≠ cycleDisposalVersion, .disposalVersion d.version),
    (d.cycle.state ≠ .pinned, .disposalState d.cycle.state),
    (d.cycle.superseded ≠ 0, .disposalSuperseded),
    (d.replacementApproval ≤ 0 || d.replacementApproval = d.cycle.approval, .disposalReplacement),
    (d.disposition ≠ .unconfirmed && d.disposition ≠ .retained && d.disposition ≠ .deleted,
      .disposalDisposition)]

def validate : Option Fault := d.cycle.validate <|> firstFault d.faults

end CycleDisposal

/-- A key names one file in the directory of the store. -/
def checkKey (key : Text) : Bool :=
  key ≠ [] && key ≠ txt "." && key ≠ txt ".." && 0x2F ∉ key && 0x5C ∉ key

end Ben.Remotews
