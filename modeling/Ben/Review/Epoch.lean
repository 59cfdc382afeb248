import Mathlib.Data.List.Sort
import Ben.Review.Config

/-!
# Replaying the change log

The claim and the approval a milestone came from are read off the issue's ordered change log: which
assignment of the principal stood at an event, which event completed the set of required labels
standing there, and what became of that set afterwards.
-/

namespace Ben.Review

/-- The order every reader of the log agrees on: by instant, then by id. -/
def Event.le (a b : Event) : Prop :=
  a.createdAt < b.createdAt ∨ (a.createdAt = b.createdAt ∧ a.id ≤ b.id)

instance : DecidableRel Event.le := fun a b =>
  inferInstanceAs
    (Decidable (a.createdAt < b.createdAt ∨ (a.createdAt = b.createdAt ∧ a.id ≤ b.id)))

/-- The log in order. -/
def sortEvents (events : List Event) : List Event := events.insertionSort Event.le

variable [Library]

/-! ## Claims -/

/-- The assignment standing after an entry: the first of the current streak counts. -/
def claimStep (principal : Text) (epoch : Int) (ev : Event) : Int :=
  if !eqFold ev.assignee principal then epoch
  else match ev.type with
    | .assigned => if epoch = 0 then ev.id else epoch
    | .unassigned => 0
    | _ => epoch

/-- The id of the entry that began the principal's standing assignment; zero if there is none. -/
def claimEpoch (events : List Event) (principal : Text) : Int :=
  events.foldl (claimStep principal) 0

/-- Replay the log up to its end, keeping what stood at the occurrence. -/
def claimLoop (principal : Text) (occurrence : Int) : List Event → Int → Option Int → Int × Bool
  | [], _, found => (found.getD 0, found.any fun source => 0 < source)
  | ev :: events, epoch, found =>
    let epoch := claimStep principal epoch ev
    if ev.id = occurrence then
      if found.isSome then (0, false) else claimLoop principal occurrence events epoch (some epoch)
    else claimLoop principal occurrence events epoch found

/-- The principal's assignment standing at an occurrence, and whether there is one. -/
def claimEpochAtOccurrence (events : List Event) (principal : Text) (occurrence : Int) :
    Int × Bool :=
  claimLoop principal occurrence events 0 none

/-- The occurrence is the entry a published milestone names: the tracker clearing its state
label. -/
def publishedOccurrenceOnLog (events : List Event) (occurrence : Int) (tracker : Text) : Bool :=
  match events.find? fun ev => ev.id == occurrence with
  | none => false
  | some ev => ev.type == .unlabeled && eqFold ev.actor tracker &&
      (eqFold ev.label (txt "ben:claimed") || eqFold ev.label (txt "ben:running"))

/-- The principal was unassigned after the entry that established the claim. -/
def unassignedAfterClaim (events : List Event) (principal : Text) (claim : Int) : Bool :=
  ((events.dropWhile fun ev =>
    !(ev.id == claim && ev.type == .assigned && eqFold ev.assignee principal)).drop 1).any
      fun ev => ev.type == .unassigned && eqFold ev.assignee principal

/-! ## Approvals -/

/-- Which required label a label is. -/
def requiredLabel (required : List Text) (label : Text) : Option Nat :=
  required.findIdx? fun want => eqFold want label

/-- The greatest application, if every label has one. -/
def completeLoop : List Int → Int → Option Int
  | [], anchor => some anchor
  | epoch :: epochs, anchor =>
    if epoch ≤ 0 then none else completeLoop epochs (if epoch > anchor then epoch else anchor)

/-- The entry that anchors a complete set of applications. -/
def completeApprovalEpoch (epochs : List Int) : Option Int :=
  if epochs.isEmpty then none else completeLoop epochs 0

/-- The standing applications after an entry. -/
def labelStep (required : List Text) (epochs : List Int) (ev : Event) : List Int :=
  match requiredLabel required ev.label with
  | none => epochs
  | some i =>
    match ev.type with
    | .labeled => epochs.set i ev.id
    | .unlabeled => epochs.set i 0
    | _ => epochs

/-- No label has been applied. -/
def noLabels (required : List Text) : List Int := List.replicate required.length 0

/-- Replay the log up to its end, keeping the anchor that stood at the occurrence. -/
def approvalLoop (required : List Text) (occurrence : Int) :
    List Event → List Int → Option (Option Int) → Option Int
  | [], _, found => found.join
  | ev :: events, epochs, found =>
    let epochs := labelStep required epochs ev
    if ev.id = occurrence then
      if found.isSome then none
      else approvalLoop required occurrence events epochs (some (completeApprovalEpoch epochs))
    else approvalLoop required occurrence events epochs found

/-- The anchor of the complete required set standing at an occurrence. -/
def approvalEpochAtOccurrence (events : List Event) (required : List Text) (occurrence : Int) :
    Option Int :=
  approvalLoop required occurrence events (noLabels required) none

/-- Replay one label, keeping its application that stood at the occurrence. -/
def labelLoop (label : Text) (occurrence : Int) :
    List Event → Option Int → Option (Option Int) → Option Int
  | [], _, found => found.join.filter fun source => 0 < source
  | ev :: events, standing, found =>
    let standing :=
      if eqFold ev.label label then
        match ev.type with
        | .labeled => some ev.id
        | .unlabeled => none
        | _ => standing
      else standing
    if ev.id = occurrence then
      if found.isSome then none else labelLoop label occurrence events standing (some standing)
    else labelLoop label occurrence events standing found

/-- One label's application standing at an occurrence. -/
def labelEpochAtOccurrence (events : List Event) (label : Text) (occurrence : Int) : Option Int :=
  labelLoop label occurrence events none none

/-- Replay the log past an anchor: whether a label of the set was removed after it, and the first
complete set with another anchor, or zero. -/
def changesLoop (required : List Text) (epoch : Int) :
    List Event → List Int → Bool → Bool → Bool × Int
  | [], _, _, removed => (removed, 0)
  | ev :: events, epochs, after, removed =>
    let epochs := labelStep required epochs ev
    if ev.id = epoch then changesLoop required epoch events epochs true removed
    else if !after || (requiredLabel required ev.label).isNone then
      changesLoop required epoch events epochs after removed
    else
      let removed := removed || ev.type == .unlabeled
      match completeApprovalEpoch epochs with
      | none => changesLoop required epoch events epochs after removed
      | some anchor =>
        if anchor ≠ epoch then (removed, anchor)
        else changesLoop required epoch events epochs after removed

/-- What became of the complete set an entry anchors; nothing if it anchors none. -/
def approvalChangesAfterEpoch (events : List Event) (required : List Text) (epoch : Int) :
    Option (Bool × Int) :=
  if approvalEpochAtOccurrence events required epoch ≠ some epoch then none
  else some (changesLoop required epoch events (noLabels required) false false)

/-- When the approval cycle of an occurrence became complete; the zero instant if it cannot be
told. -/
def cycleStartAtOccurrence (cfg : Config) (events : List Event) (occurrence : Int) : Time :=
  match approvalEpochAtOccurrence events cfg.requiredLabels occurrence with
  | none => 0
  | some anchor =>
    match events.find? fun ev => ev.id == anchor with
    | none => 0
    | some ev => ev.createdAt

end Ben.Review
