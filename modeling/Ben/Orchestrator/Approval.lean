import Ben.Core

/-!
# Content approval

The check that binds the content an agent is shown to the label a person applied: the approving
instant is the latest application among the required labels standing on the change log, and
content edited after it, or in the same second, is refused.
-/

namespace Ben

section

variable [CaseFold]

/-- The refusals of the content check. -/
inductive ApprovalError where
  | instantUnknown
  | editUnknown
  | drift (edited approved : Time)
  | unorderable (both : Time)
  deriving DecidableEq, Repr

/-- Content that passed the check, with the instant it was approved at. -/
structure ApprovedContent where
  content : IssueContent
  at_ : Time
  deriving DecidableEq, Repr

/-- The entry that last applied a label, while the label still stands. -/
def standingLabeledEvent (history : List ClaimEvent) (label : String) : Option ClaimEvent :=
  history.foldl (fun event ev =>
    if !equalFold ev.subject label then event
    else match ev.kind with
      | .labeled => some ev
      | .unlabeled => none
      | _ => event) none

/-- When a standing label was last applied. -/
def standingLabeledAt (history : List ClaimEvent) (label : String) : Option Time :=
  (standingLabeledEvent history label).map (·.at_)

/-- The latest application among the required labels, all of which must stand. -/
def approvingInstant (history : List ClaimEvent) (requiredLabels : List String) : Option Time :=
  if requiredLabels.isEmpty then none
  else requiredLabels.foldl (fun latest want =>
    match latest, standingLabeledAt history want with
    | some l, some t => some (if t > l then t else l)
    | _, _ => none) (some 0)

/-- The content check: admit the content read only if its last edit is provably before the
approving instant, both taken at the tracker's granularity of one second. -/
def checkApproval (history : List ClaimEvent) (requiredLabels : List String)
    (read : ContentApproval) : Except ApprovalError ApprovedContent :=
  match approvingInstant history requiredLabels with
  | none => .error .instantUnknown
  | some approvedAt =>
    match read.edit with
    | .never => .ok ⟨read.content, approvedAt⟩
    | .at t =>
      let editedAt := Time.truncateSecond t
      let approvedSec := Time.truncateSecond approvedAt
      if editedAt > approvedSec then .error (.drift editedAt approvedSec)
      else if editedAt = approvedSec then .error (.unorderable approvedSec)
      else .ok ⟨read.content, approvedAt⟩
    | .unknown => .error .editUnknown

/-- The identity of the entry that last applied a standing label, when it has a positive one. -/
def standingLabeledID (history : List ClaimEvent) (label : String) : Option Int :=
  let last := history.foldl (fun (acc : Int × Bool) ev =>
    if !equalFold ev.subject label then acc
    else match ev.kind with
      | .labeled => (ev.id, true)
      | .unlabeled => (0, false)
      | _ => acc) (0, false)
  if !last.2 || last.1 ≤ 0 then none else some last.1

/-- The anchor of the standing approval: the largest entry that applied a required label, or
zero when the approval does not stand or an entry has no identity. -/
def standingApproval (history : List ClaimEvent) (requiredLabels : List String) : Int :=
  if requiredLabels.isEmpty then 0
  else (requiredLabels.foldl (fun anchor want =>
    match anchor, standingLabeledID history want with
    | some a, some id => some (if id > a then id else a)
    | _, _ => none) (some 0)).getD 0

/-- The same anchor, as the recovery of an interrupted start asks for it. -/
def approvalCycleAnchor (history : List ClaimEvent) (requiredLabels : List String) : Option Int :=
  if requiredLabels.isEmpty then none
  else requiredLabels.foldl (fun anchor want =>
    match anchor, standingLabeledEvent history want with
    | some a, some ev => if ev.id ≤ 0 then none else some (if ev.id > a then ev.id else a)
    | _, _ => none) (some 0)

end

/-- The text of a refusal, as the park comment quotes it. -/
def ApprovalError.text [Platform] : ApprovalError → String
  | .instantUnknown =>
    "the tracker's change log does not say when a required label was applied, " ++
      "so there is no approving instant to bind content to (SPEC §9.5)"
  | .editUnknown => "the tracker cannot say when the issue's title or body was last edited " ++
      "(SPEC §9.5, §9.10)"
  | .drift edited approved =>
      "the issue's title or body was edited after the approving label, so its content is not " ++
      "what a labeler approved (SPEC §9.5): edited " ++ formatTime edited ++
      ", approved " ++ formatTime approved
  | .unorderable both =>
      "the issue's title or body was edited in the same second as the approving label, so the " ++
      "two cannot be ordered (SPEC §9.5, §8.4): both at " ++ formatTime both

end Ben
