import Ben.Lib.Runs
import Ben.Review.Authority

/-!
# The controller on a forge

The forge keeps an issue with its comments and its change log, pull requests, and their reviews.
Every write lands as the artifact and the log entry a real one would produce, with the next id and
the current instant.  The controller observes, reduces and executes; it keeps nothing between two
steps, so a crash is a run in which it stops after a write.  Everybody else acts on the same forge
in between.
-/

namespace Ben.Review

/-- The forge. -/
structure Forge where
  issue : Issue := {}
  comments : List Comment := []
  events : List Event := []
  pulls : Int → Option PullRequest := fun _ => none
  /-- The reviews, each with the number of its pull request. -/
  reviews : List (Int × Review) := []
  now : Time := 0
  nextID : Int := 0

namespace Forge

/-- Append an entry to the change log. -/
def record (f : Forge) (type : EventType) (actor assignee label : Text) : Forge :=
  { f with
    nextID := f.nextID + 1
    events := f.events ++ [{ id := f.nextID + 1, type := type, actor := actor, assignee := assignee
                             label := label, createdAt := f.now }] }

/-- Post a comment on the issue. -/
def postComment (f : Forge) (author body : Text) : Forge :=
  { f with
    nextID := f.nextID + 1
    comments := f.comments ++ [{ id := f.nextID + 1, author := author, body := body
                                 createdAt := f.now }] }

/-- Publish a review of a pull request. -/
def publishReview (f : Forge) (number : Int) (author commitID body state : Text) : Forge :=
  { f with
    nextID := f.nextID + 1
    reviews := f.reviews ++ [(number, { id := f.nextID + 1, author := author, body := body
                                        commitID := commitID, state := state
                                        submittedAt := f.now })] }

/-- The reviews of one pull request. -/
def reviewsOf (f : Forge) (number : Int) : List Review :=
  (f.reviews.filter fun p => p.1 == number).map (·.2)

section

variable [Library]

def unassign (f : Forge) (actor login : Text) : Forge :=
  { f with issue := { f.issue with
      assignees := f.issue.assignees.filter fun a => !Library.equalFold a login } }.record
    .unassigned actor login []

def assign (f : Forge) (actor login : Text) : Forge :=
  { f with issue := { f.issue with assignees := f.issue.assignees ++ [login] } }.record
    .assigned actor login []

def removeLabel (f : Forge) (actor label : Text) : Forge :=
  { f with issue := { f.issue with labels := f.issue.labels.filter fun l => l ≠ label } }.record
    .unlabeled actor [] label

def addLabel (f : Forge) (actor label : Text) : Forge :=
  { f with issue := { f.issue with labels := f.issue.labels ++ [label] } }.record
    .labeled actor [] label

/-- One whole observation: the pull request is the one the newest delivery links, if the link is
one of this repository. -/
def observe (cfg : Config) (f : Forge) : Snapshot :=
  let bare : Snapshot := { issue := f.issue, comments := f.comments, events := f.events }
  match latestPublished cfg f.comments with
  | none => bare
  | some t =>
    match parsePRURL t.prURL with
    | .error _ => bare
    | .ok (owner, repo, number) =>
      if !Library.equalFold owner cfg.owner || !Library.equalFold repo cfg.repo then bare
      else match f.pulls number with
        | none => bare
        | some pr => { bare with pr := some pr, reviews := f.reviewsOf number }

end

end Forge

/-- What a reviewer run comes to. -/
inductive Answer where
  | report (verdict : Verdict) (findings : Text)
  /-- The reviewer could not be started. -/
  | refused (reason detail : Text)
  /-- There is no usable verdict, or none yet. -/
  | unusable

variable [Library]

/-- Tell the issue that the review could not be started, once for each head and reason. -/
def surfaceRefusal (cfg : Config) (f : Forge) (step : Step) (reason detail : Text) : Forge :=
  if !validBlockReason reason then f
  else
    let m : ReviewBlockedMarker :=
      { occurrence := step.occurrence, claim := step.claim, approval := step.approval
        head := step.head, reason := reason }
    if (blockedReviewFor cfg f.comments m.occurrence m.head).any fun b => b.reason == reason then f
    else match parseReviewBlockedMarker m.string with
      | .error _ => f
      | .ok _ => f.postComment cfg.controller (reviewBlockedBody m detail)

/-- Publish what the reviewer returned.  The reduction that confirms the subject before the
publication is the one the step came from. -/
def performReview (cfg : Config) (f : Forge) (step : Step) : Answer → Forge
  | .unusable => f
  | .refused reason detail =>
    if step.pr.base = [] || step.pr.baseSHA = [] then f
    else surfaceRefusal cfg f step reason detail
  | .report verdict findings =>
    if step.pr.base = [] || step.pr.baseSHA = [] then f
    else
      let m : ReviewMarker :=
        { occurrence := step.occurrence, claim := step.claim, approval := step.approval
          head := step.head, base := step.pr.baseSHA, verdict := verdict
          reviewerProfile := step.reviewerProfile }
      f.publishReview step.pr.number cfg.controller step.head (reviewBody m findings)
        reviewStateCommented

/-- Execute a step.  Only the removal of the label is more than one write: a crash may come before
the informational label is added. -/
def apply (cfg : Config) (f : Forge) (step : Step) (answer : Answer) (crashed : Bool) : Forge :=
  match step.kind with
  | .nothing => f
  | .review => performReview cfg f step answer
  | .unassign => f.unassign cfg.controller step.principal
  | .revoke =>
    let f := f.removeLabel cfg.controller step.removeLabel
    if crashed || step.addLabel = [] then f else f.addLabel cfg.controller step.addLabel
  | .recordIntent =>
    match step.outcome with
    | none => f
    | some o =>
      let m : RouteIntentMarker :=
        { occurrence := step.occurrence, claim := step.claim, approval := step.approval
          head := step.head, outcome := o }
      match parseRouteIntentMarker m.string with
      | .error _ => f
      | .ok _ => f.postComment cfg.controller (routeIntentBody m step.why)
  | .recordRoute =>
    match step.outcome with
    | none => f
    | some o =>
      let m : RouteMarker :=
        { occurrence := step.occurrence, claim := step.claim, head := step.head, outcome := o }
      match parseRouteMarker m.string with
      | .error _ => f
      | .ok _ => f.postComment cfg.controller (routeBody m step.why)

/-! ## Runs -/

/-- Who acts next, and how. -/
inductive Input where
  /-- The controller observes, reduces and executes. -/
  | control (answer : Answer) (crashed : Bool)
  | wait (d : Nat)
  | label (actor label : Text)
  | unlabel (actor label : Text)
  | assign (actor login : Text)
  | unassign (actor login : Text)
  | close (closed : Bool)
  | comment (author body : Text)
  /-- A pull request is opened, pushed to, edited, closed or deleted. -/
  | pull (number : Int) (pr : Option PullRequest)
  | review (number : Int) (author commitID body state : Text)

/-- The forge, and the mutations of the issue the controller has executed. -/
structure World where
  forge : Forge
  acts : List Step := []

/-- Nobody else acts as the controller.  Its login may be shared with the tracker, which leaves no
markers of the controller and does not remove the queue label. -/
def Input.admissible (cfg : Config) : Input → Bool
  | .unlabel actor name => !(eqFold actor cfg.controller && eqFold name cfg.queueLabel)
  | .comment author body =>
    !eqFold author cfg.controller ||
      match parseRouteMarker body, parseRouteIntentMarker body with
      | .error _, .error _ => true
      | _, _ => false
  | .review _ author _ _ _ => !eqFold author cfg.controller
  | _ => true

/-- The step changes the state of the issue. -/
def Step.mutates (step : Step) : Bool := step.kind == .unassign || step.kind == .revoke

/-- What an input makes of the world. -/
def World.next (cfg : Config) (w : World) : Input → World
  | .control answer crashed =>
    let step := reduce cfg (w.forge.observe cfg)
    { forge := apply cfg w.forge step answer crashed
      acts := if step.mutates then w.acts ++ [step] else w.acts }
  | .wait d => { w with forge := { w.forge with now := w.forge.now + d } }
  | .label actor label => { w with forge := w.forge.addLabel actor label }
  | .unlabel actor label => { w with forge := w.forge.removeLabel actor label }
  | .assign actor login => { w with forge := w.forge.assign actor login }
  | .unassign actor login => { w with forge := w.forge.unassign actor login }
  | .close closed =>
    { w with forge := { w.forge with issue := { w.forge.issue with closed := closed } } }
  | .comment author body => { w with forge := w.forge.postComment author body }
  | .pull number pr =>
    { w with forge := { w.forge with pulls := Function.update w.forge.pulls number pr } }
  | .review number author commitID body state =>
    { w with forge := w.forge.publishReview number author commitID body state }

/-- One step of the system, as long as the forge's ids fit their 64 bits. -/
def World.step (cfg : Config) (w : World) (input : Input) : Option World :=
  if input.admissible cfg && (w.next cfg input).forge.nextID < 2 ^ 63 then
    some (w.next cfg input)
  else none

end Ben.Review
