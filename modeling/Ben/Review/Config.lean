import Ben.Core
import Ben.Review.Text

/-!
# What the controller is told and what it observes

The configuration of the review controller with its own validation, the selection of a reviewer
profile by label, and one whole observation of an issue and its pull request.
-/

namespace Ben.Review

/-- What a reviewer may return. -/
inductive Verdict where
  | clean
  | changesRequested
  deriving DecidableEq, Repr

/-- The verdict's spelling. -/
def Verdict.text : Verdict → Text
  | .clean => txt "clean"
  | .changesRequested => txt "changes_requested"

/-- The routes the controller records. -/
inductive Outcome where
  | revise
  | humanReview
  | roundCap
  | noProgress
  deriving DecidableEq, Repr

/-- The outcome's spelling. -/
def Outcome.text : Outcome → Text
  | .revise => txt "revise"
  | .humanReview => txt "human-review"
  | .roundCap => txt "round-cap"
  | .noProgress => txt "no-progress"

/-- The one label the controller may add. -/
def humanReviewLabel : Text := txt "human-review"

/-- The namespace of the labels that select a reviewer profile. -/
def reviewerProfileLabelPrefix : Text := txt "review-profile:"

/-- How many reviewer profiles may be configured. -/
def maxReviewerProfiles : Nat := 8

/-- What the controller must be told. -/
structure Config where
  owner : Text
  repo : Text
  issue : Int
  /-- The claim assignee, the one login that may ever be unassigned. -/
  principal : Text
  /-- The login milestone comments are posted as. -/
  trackerAuthor : Text
  /-- The login the controller's own artifacts are published as. -/
  controller : Text
  allowSharedTrackerController : Bool := false
  /-- The complete approval set. -/
  requiredLabels : List Text
  /-- The one required label the controller may remove. -/
  queueLabel : Text
  addHumanReviewLabel : Bool := false
  roundCap : Int
  reviewerProfiles : List Text := []
  defaultReviewerProfile : Text := []
  deriving DecidableEq, Repr

/-- The canonical head branch of the issue. -/
def Config.branch (c : Config) : Text := txt "ben/" ++ itoa c.issue

/-- The name is one a label, a marker field and a log can carry. -/
def validReviewerProfile (name : Text) : Bool :=
  1 ≤ name.length && name.length ≤ 32 && name.head? != some 45 && name.getLast? != some 45 &&
    name.all fun b => (97 ≤ b && b ≤ 122) || (48 ≤ b && b ≤ 57) || b == 45

section

variable [Library]

/-- Some label of the list is the one wanted. -/
def hasLabel (labels : List Text) (want : Text) : Bool := labels.any fun l => eqFold l want

/-- The first required label that is not there. -/
def missingRequiredLabel (labels required : List Text) : Option Text :=
  required.find? fun want => !hasLabel labels want

/-- Every refusal of a configuration begins with this. -/
def invalidConfig (detail : Text) : Text :=
  txt "review: invalid controller configuration: " ++ detail

/-- The label is one that selects a reviewer profile. -/
def hasReviewerProfilePrefix (label : Text) : Bool :=
  let label := trimSpace label
  reviewerProfileLabelPrefix.length ≤ label.length &&
    equalFold (label.take reviewerProfileLabelPrefix.length) reviewerProfileLabelPrefix

/-- The first required label that is blank or repeats an earlier one. -/
def requiredLabelFault : Nat → List Text → List Text → Option Text
  | _, _, [] => none
  | i, seen, label :: labels =>
    let label := trimSpace label
    if label = [] then
      some (txt "required label " ++ itoa i ++ txt " is blank")
    else if hasLabel seen label then
      some (txt "required label " ++ quote label ++ txt " is repeated")
    else requiredLabelFault (i + 1) (seen ++ [label]) labels

/-- The first reviewer profile that is misspelled or repeats an earlier one. -/
def reviewerProfileFault : List Text → List Text → Option Text
  | _, [] => none
  | seen, name :: names =>
    if !validReviewerProfile name then
      some (txt "reviewer profile " ++ quote name ++
        txt " is not a lowercase name of 1-32 letters, digits, or hyphens")
    else if hasLabel seen name then
      some (txt "reviewer profile " ++ quote name ++ txt " is repeated")
    else reviewerProfileFault (seen ++ [name]) names

/-- Refuse profiles that could not be selected unambiguously. -/
def Config.validateReviewerProfiles (c : Config) : Except Text Unit :=
  if c.reviewerProfiles.isEmpty then
    if c.defaultReviewerProfile ≠ [] then
      .error (invalidConfig (txt "default reviewer profile " ++ quote c.defaultReviewerProfile ++
        txt " is set without named reviewer profiles"))
    else .ok ()
  else if !validReviewerProfile c.defaultReviewerProfile then
    .error (invalidConfig (txt "default reviewer profile " ++ quote c.defaultReviewerProfile ++
      txt " is not a lowercase name of 1-32 letters, digits, or hyphens"))
  else if c.reviewerProfiles.length > maxReviewerProfiles then
    .error (invalidConfig (itoa c.reviewerProfiles.length ++
      txt " reviewer profiles exceed the limit of " ++ itoa maxReviewerProfiles))
  else match reviewerProfileFault [] c.reviewerProfiles with
    | some fault => .error (invalidConfig fault)
    | none =>
      if !c.reviewerProfiles.contains c.defaultReviewerProfile then
        .error (invalidConfig (txt "default reviewer profile " ++ quote c.defaultReviewerProfile ++
          txt " is not in the configured set"))
      else .ok ()

/-- The named fields that are blank. -/
def Config.missing (c : Config) : List Text :=
  ([(txt "owner", c.owner), (txt "repo", c.repo), (txt "principal", c.principal),
    (txt "tracker author", c.trackerAuthor), (txt "controller", c.controller),
    (txt "queue label", c.queueLabel)].filter fun f => trimSpace f.2 = []).map (·.1)

/-- Refuse a configuration that could route wrongly. -/
def Config.validate (c : Config) : Except Text Unit :=
  if c.missing ≠ [] then .error (invalidConfig (txt "missing " ++ join (txt ", ") c.missing))
  else if c.requiredLabels.isEmpty then .error (invalidConfig (txt "missing required labels"))
  else match requiredLabelFault 0 [] c.requiredLabels with
    | some fault => .error (invalidConfig fault)
    | none =>
      if c.issue ≤ 0 then
        .error (invalidConfig (txt "issue number " ++ itoa c.issue ++ txt " is not positive"))
      else if c.roundCap < 1 then
        .error (invalidConfig (txt "round cap " ++ itoa c.roundCap ++
          txt " leaves no round to run"))
      else match c.validateReviewerProfiles with
        | .error e => .error e
        | .ok () =>
          if 4 ≤ (trimSpace c.queueLabel).length &&
              equalFold ((trimSpace c.queueLabel).take 4) (txt "ben:") then
            .error (invalidConfig (txt "queue label " ++ quote c.queueLabel ++
              txt " is in BEN's reserved state-label namespace"))
          else if eqFold c.controller c.principal then
            .error (invalidConfig (txt "the controller identity " ++ quote c.controller ++
              txt " is also the claim principal — it would review and unassign itself"))
          else if eqFold c.controller c.trackerAuthor && !c.allowSharedTrackerController then
            .error (invalidConfig (txt "the controller identity " ++ quote c.controller ++
              txt " is also the milestone author — it could trigger its own rounds"))
          else if c.addHumanReviewLabel && eqFold humanReviewLabel c.queueLabel then
            .error (invalidConfig (txt "the fixed informational label " ++
              quote humanReviewLabel ++
              txt " is the required label — adding it would be an approval"))
          else if !hasLabel c.requiredLabels c.queueLabel then
            .error (invalidConfig (txt "queue label " ++ quote c.queueLabel ++
              txt " is not in the complete required-label set"))
          else if c.addHumanReviewLabel && hasLabel c.requiredLabels humanReviewLabel then
            .error (invalidConfig (txt "the fixed informational label " ++
              quote humanReviewLabel ++
              txt " is in the required-label set — adding it would be an approval"))
          else match c.requiredLabels.find? hasReviewerProfilePrefix with
            | some label =>
              .error (invalidConfig (txt "required label " ++ quote label ++
                txt " is in the reviewer-profile namespace; profile choice is operational " ++
                txt "policy, not workflow approval"))
            | none => .ok ()

/-- Read the selecting labels of an issue: how many there are, and the profile the last of them
names. -/
def Config.readProfileLabels (c : Config) : List Text → Text → Nat → Except Text (Text × Nat)
  | [], selected, count => .ok (selected, count)
  | label :: labels, selected, count =>
    if !hasReviewerProfilePrefix label then c.readProfileLabels labels selected count
    else if c.reviewerProfiles.isEmpty then c.readProfileLabels labels selected (count + 1)
    else
      let name := (trimSpace label).drop reviewerProfileLabelPrefix.length
      match c.reviewerProfiles.find? fun allowed => equalFold name allowed with
      | none => .error (txt "reviewer profile label " ++ quote label ++
          txt " names no configured profile")
      | some canonical => c.readProfileLabels labels canonical (count + 1)

/-- The reviewer profile the labels of an issue select; empty without named profiles. -/
def Config.selectReviewerProfile (c : Config) (labels : List Text) : Except Text Text :=
  match c.readProfileLabels labels [] 0 with
  | .error e => .error e
  | .ok (selected, count) =>
    if c.reviewerProfiles.isEmpty then
      if count > 0 then
        .error (txt "reviewer profile labels are not selectable with legacy review.reviewer_argv")
      else .ok []
    else if count > 1 then
      .error (txt "issue carries " ++ itoa count ++
        txt " reviewer profile labels; exactly zero or one is allowed")
    else if selected = [] then .ok c.defaultReviewerProfile
    else .ok selected

end

/-! ## Observations -/

/-- The tracker facts of the issue. -/
structure Issue where
  number : Int := 0
  closed : Bool := false
  labels : List Text := []
  assignees : List Text := []
  deriving DecidableEq, Repr

/-- One issue comment. -/
structure Comment where
  id : Int
  author : Text
  body : Text
  createdAt : Time
  deriving DecidableEq, Repr

/-- The kinds of change-log entries the controller reasons about, and every other one. -/
inductive EventType where
  | assigned
  | unassigned
  | labeled
  | unlabeled
  | other
  deriving DecidableEq, Repr

/-- One entry of the issue's change log. -/
structure Event where
  id : Int
  type : EventType
  actor : Text := []
  assignee : Text := []
  label : Text := []
  createdAt : Time
  deriving DecidableEq, Repr

/-- The reviewed subject. -/
structure PullRequest where
  number : Int := 0
  url : Text := []
  closed : Bool := false
  merged : Bool := false
  branch : Text := []
  head : Text := []
  base : Text := []
  baseSHA : Text := []
  body : Text := []
  deriving DecidableEq, Repr

set_option linter.dupNamespace false in
/-- One published pull request review. -/
structure Review where
  id : Int
  author : Text
  body : Text
  commitID : Text
  state : Text
  submittedAt : Time
  deriving DecidableEq, Repr

/-- One whole observation of an issue and its pull request. -/
structure Snapshot where
  issue : Issue := {}
  comments : List Comment := []
  events : List Event := []
  reviews : List Review := []
  pr : Option PullRequest := none
  deriving DecidableEq, Repr

end Ben.Review
