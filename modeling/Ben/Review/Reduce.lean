import Ben.Review.Epoch
import Ben.Review.Milestone

/-!
# The reducer

One observation of an issue in, one step out.  A terminal decision that was recorded before its
mutation is finished first; a mutation whose route was not recorded is recorded next; only then is
the newest delivery decided on.
-/

namespace Ben.Review

/-- The things the controller may do. -/
inductive StepKind where
  | nothing
  | review
  | unassign
  | revoke
  | recordIntent
  | recordRoute
  deriving DecidableEq, Repr

/-- The only review state the controller trusts as its own record. -/
def reviewStateCommented : Text := txt "COMMENTED"

/-- One executable move and the reason it was chosen. -/
structure Step where
  kind : StepKind
  why : Text
  pr : PullRequest := {}
  occurrence : Int := 0
  claim : Int := 0
  head : Text := []
  approval : Int := 0
  reviewerProfile : Text := []
  outcome : Option Outcome := none
  principal : Text := []
  removeLabel : Text := []
  addLabel : Text := []
  deriving DecidableEq, Repr

def nothing (why : Text) : Step := { kind := .nothing, why := why }

/-- The first twelve digits of a commit. -/
def short (sha : Text) : Text := sha.take 12

def record (pr : PullRequest) (t : Trigger) (claim : Int) (head : Text) (o : Outcome)
    (why : Text) : Step :=
  { kind := .recordRoute, why := why, pr := pr, occurrence := t.occurrence, claim := claim
    head := head, outcome := some o }

def observedPR (s : Snapshot) : PullRequest := s.pr.getD {}

/-! ## Reviews -/

/-- A controller review the forge has confirmed, or the absence of one for an occurrence. -/
structure Published where
  review : Review
  marker : ReviewMarker
  /-- No review was performed for the occurrence. -/
  zero : Bool := false
  deriving DecidableEq, Repr

/-- The head and the claim a route marker records. -/
def Published.headClaim (p : Published) (pr : PullRequest) : Text × Int :=
  if p.zero then (pr.head, p.marker.claim) else (p.marker.head, p.marker.claim)

/-- A route decided without a review of its occurrence. -/
def unreviewed (sourceClaim : Int) : Published :=
  { review := { id := 0, author := [], body := [], commitID := [], state := [], submittedAt := 0 }
    marker := { claim := sourceClaim }, zero := true }

section

variable (reviews : List Published)

/-- The trusted reviews from an instant on. -/
def since (start : Time) : List Published := reviews.filter fun p => !(p.review.submittedAt < start)

/-- The trusted reviews that name an approval. -/
def forApproval (approval : Int) : List Published :=
  reviews.filter fun p => p.marker.approval == approval

/-- The trusted reviews up to an instant. -/
def through (upTo : Time) : List Published := reviews.filter fun p => !(upTo < p.review.submittedAt)

/-- The review of an occurrence with its exact subject. -/
def reviewFor (occurrence claim approval : Int) (head base : Text) : Option Published :=
  reviews.find? fun p => p.marker.occurrence == occurrence && p.marker.claim == claim &&
    p.marker.approval == approval && p.marker.head == head && p.marker.base == base

/-- A review of an occurrence with its head, whatever the base. -/
def reviewForHead (occurrence claim approval : Int) (head : Text) : Option Published :=
  reviews.find? fun p => p.marker.occurrence == occurrence && p.marker.claim == claim &&
    p.marker.approval == approval && p.marker.head == head

/-- The later of two reviews: by instant, then by id. -/
def laterReview (p latest : Published) : Bool :=
  latest.review.submittedAt < p.review.submittedAt ||
    (p.review.submittedAt == latest.review.submittedAt && latest.review.id < p.review.id)

/-- The newest review of an occurrence that was there at an instant. -/
def latestReviewForOccurrenceThrough (occurrence claim approval : Int) (upTo : Time) :
    Option Published :=
  reviews.foldl (fun latest p =>
    if p.marker.occurrence ≠ occurrence || p.marker.claim ≠ claim ||
        p.marker.approval ≠ approval || upTo < p.review.submittedAt then latest
    else match latest with
      | none => some p
      | some l => if laterReview p l then some p else some l) none

/-- A review of an occurrence that names another claim or approval. -/
def mismatchedReviewForOccurrence (occurrence claim approval : Int) : Option Published :=
  reviews.find? fun p => p.marker.occurrence == occurrence &&
    (p.marker.claim != claim || p.marker.approval != approval)

/-- The different heads of reviews, in the order they were first reviewed. -/
def readHeads : List Text → List Published → List Text
  | heads, [] => heads
  | heads, p :: reviews =>
    if heads.contains p.marker.head then readHeads heads reviews
    else readHeads (heads ++ [p.marker.head]) reviews

def distinctHeads : List Text := readHeads [] reviews

end

/-- An outcome and the sentence explaining it. -/
structure Decision where
  outcome : Outcome
  why : Text
  deriving DecidableEq, Repr

/-- What a published verdict is routed to. -/
def outcomeFor (cfg : Config) (reviews : List Published) (cur : ReviewMarker) : Decision :=
  if cur.verdict = .clean then
    { outcome := .humanReview
      why := txt "the review of head " ++ short cur.head ++ txt " is clean" }
  else
    let n := (distinctHeads reviews).length
    if cfg.roundCap ≤ n then
      { outcome := .roundCap
        why := txt "changes are still requested after " ++ itoa n ++
          txt " distinct heads, which is the cap" }
    else
      { outcome := .revise, why := txt "changes are requested on head " ++ short cur.head }

variable [Library] (cfg : Config)

/-- Some login of the list is the one wanted. -/
def containsLogin (logins : List Text) (want : Text) : Bool := logins.any fun l => eqFold l want

/-- A review as the controller's own durable record, if it is one. -/
def controllerReview (events : List Event) (start : Time) (r : Review) : Option Published :=
  if !eqFold r.author cfg.controller || r.state ≠ reviewStateCommented then none
  else if r.submittedAt < start then none
  else match parseReviewMarker r.body with
    | .error _ => none
    | .ok m =>
      if m.head ≠ r.commitID then none
      else if m.approval = 0 then
        let approval := (approvalEpochAtOccurrence events cfg.requiredLabels m.occurrence).getD 0
        if approval = 0 then none
        else some { review := r, marker := { m with approval := approval } }
      else some { review := r, marker := m }

/-- Every review the controller can treat as its own durable record. -/
def controllerReviews (events : List Event) (all : List Review) (start : Time) : List Published :=
  all.filterMap (controllerReview cfg events start)

variable (comments : List Comment)

/-- A completed route of an occurrence. -/
def routeFor (occurrence : Int) : Option RouteMarker :=
  comments.findSome? fun c =>
    if !eqFold c.author cfg.controller then none
    else match parseRouteMarker c.body with
      | .error _ => none
      | .ok m => if m.occurrence ≠ occurrence then none else some m

def routeExists (occurrence : Int) : Bool := (routeFor cfg comments occurrence).isSome

/-- The controller's own statement that a review of a head could not be started. -/
def blockedReviewFor (occurrence : Int) (head : Text) : Option ReviewBlockedMarker :=
  comments.findSome? fun c =>
    if !eqFold c.author cfg.controller then none
    else match parseReviewBlockedMarker c.body with
      | .error _ => none
      | .ok m => if m.occurrence ≠ occurrence || m.head ≠ head then none else some m

/-! ## Terminal decisions -/

/-- The unrouted terminal intents of the controller's comments. -/
def unroutedIntents : List RouteIntentMarker :=
  comments.filterMap fun c =>
    if !eqFold c.author cfg.controller then none
    else match parseRouteIntentMarker c.body with
      | .error _ => none
      | .ok m => if routeExists cfg comments m.occurrence then none else some m

/-- The first intent of each occurrence. -/
def firstIntents : List RouteIntentMarker → List RouteIntentMarker → List RouteIntentMarker
  | seen, [] => seen
  | seen, m :: ms =>
    if seen.any fun prior => prior.occurrence == m.occurrence then firstIntents seen ms
    else firstIntents (seen ++ [m]) ms

/-- The oldest terminal decision without a route, the first comment of its occurrence. -/
def oldestIntent : Option RouteIntentMarker :=
  ((firstIntents [] (unroutedIntents cfg comments)).insertionSort
    fun a b => a.occurrence ≤ b.occurrence).head?

/-- Finish the oldest terminal decision that has no route marker. -/
def resumeTerminalIntent (s : Snapshot) (events : List Event) : Option Step :=
  match oldestIntent cfg s.comments with
  | none => none
  | some m =>
    some <|
    -- another intent of the occurrence says something else
    if (unroutedIntents cfg s.comments).any fun n => n.occurrence == m.occurrence && n != m then
      nothing (txt "occurrence " ++ itoa m.occurrence ++
        txt " has conflicting terminal route intents")
    else if !publishedOccurrenceOnLog events m.occurrence cfg.trackerAuthor then
      nothing (txt "terminal route intent occurrence " ++ itoa m.occurrence ++
        txt " is not a tracker-authored published transition")
    else
      let claim := claimEpochAtOccurrence events cfg.principal m.occurrence
      if !claim.2 || claim.1 ≠ m.claim then
        nothing (txt "terminal route intent occurrence " ++ itoa m.occurrence ++
          txt " names claim " ++ itoa m.claim ++ txt ", but its source claim is " ++ itoa claim.1)
      else match approvalEpochAtOccurrence events cfg.requiredLabels m.occurrence with
        | none =>
          nothing (txt "terminal route intent occurrence " ++ itoa m.occurrence ++
            txt " names approval epoch " ++ itoa m.approval ++
            txt ", but its source approval is " ++ itoa 0)
        | some sourceApproval =>
          -- an intent may still name the queue label's own application
          if m.approval ≠ sourceApproval ∧
              labelEpochAtOccurrence events cfg.queueLabel m.occurrence ≠ some m.approval then
            nothing (txt "terminal route intent occurrence " ++ itoa m.occurrence ++
              txt " names approval epoch " ++ itoa m.approval ++
              txt ", but its source approval is " ++ itoa sourceApproval)
          else match approvalChangesAfterEpoch events cfg.requiredLabels sourceApproval with
            | none =>
              nothing (txt "terminal route intent occurrence " ++ itoa m.occurrence ++
                txt " resolves to approval epoch " ++ itoa sourceApproval ++
                txt ", which is not a complete required-label anchor")
            | some (approvalRemoved, newerApproval) =>
              let trigger : Trigger := { occurrence := m.occurrence }
              let why := txt "resuming durable " ++ m.outcome.text ++ txt " intent for head " ++
                short m.head
              if !hasLabel s.issue.labels cfg.queueLabel then
                record (observedPR s) trigger m.claim m.head m.outcome
                  (why ++ txt "; the required label removal is complete")
              else if newerApproval ≠ 0 then
                record (observedPR s) trigger m.claim m.head m.outcome
                  (why ++ txt "; preserving newer human approval epoch " ++ itoa newerApproval)
              else if approvalRemoved then
                record (observedPR s) trigger m.claim m.head m.outcome
                  (why ++ txt "; the observed approval epoch was withdrawn")
              else
                { kind := .revoke, why := why, pr := observedPR s, occurrence := m.occurrence
                  claim := m.claim, head := m.head, outcome := some m.outcome
                  removeLabel := cfg.queueLabel
                  addLabel := if cfg.addHumanReviewLabel then humanReviewLabel else [] }

/-! ## Completed routes -/

/-- A route whose mutation landed but whose marker did not. -/
structure CompletedRoute where
  trigger : Trigger
  claim : Int
  head : Text
  outcome : Outcome
  why : Text
  deriving DecidableEq, Repr

/-- The log's entries that delivered occurrences name, with their places. -/
def publishedPositions (triggers : List Trigger) (events : List Event) : List (Int × Nat) :=
  events.zipIdx.filterMap fun (ev, i) =>
    if !(triggers.any fun t => t.occurrence == ev.id) || ev.type ≠ .unlabeled ||
        !eqFold ev.actor cfg.trackerAuthor ||
        !(eqFold ev.label (txt "ben:claimed") || eqFold ev.label (txt "ben:running")) then none
    else some (ev.id, i)

/-- The place of an occurrence; the last one where an id comes twice. -/
def positionOf (positions : List (Int × Nat)) (occurrence : Int) : Option Nat :=
  positions.reverse.lookup occurrence

/-- The delivery a mutation could have completed: the last one before it. -/
def publicationBeforeMutation (triggers : List Trigger) (positions : List (Int × Nat))
    (mutation : Event) (place : Nat) : Option Trigger :=
  (triggers.foldl (fun (latest : Option (Trigger × Nat)) trigger =>
    match positionOf positions trigger.occurrence with
    | none => latest
    | some position =>
      if place ≤ position || mutation.createdAt < trigger.at_ then latest
      else match latest with
        | none => some (trigger, position)
        | some l => if l.2 < position then some (trigger, position) else some l) none).map (·.1)

/-- The route an entry of the log completed for a delivery. -/
def completedBy (triggers : List Trigger) (positions : List (Int × Nat))
    (events : List Event) (reviews : List Published) (trigger : Trigger) (claim approval : Int)
    (ev : Event) (place : Nat) : Option CompletedRoute :=
  let isStop := ev.type == .unlabeled && eqFold ev.actor cfg.controller &&
    eqFold ev.label cfg.queueLabel
  let isHandoff := ev.type == .unassigned && eqFold ev.assignee cfg.principal
  if !isStop && !isHandoff then none
  else if (publicationBeforeMutation triggers positions ev place).map (·.occurrence) ≠
      some trigger.occurrence then none
  else match latestReviewForOccurrenceThrough reviews trigger.occurrence claim approval
      ev.createdAt with
    | none => none
    | some prior =>
      let cycle := through (forApproval (since reviews
        (cycleStartAtOccurrence cfg events trigger.occurrence)) approval) ev.createdAt
      let d := outcomeFor cfg cycle prior.marker
      if isStop then
        -- the label was removed, so the route cannot have been a revision
        let d : Decision := if d.outcome = .revise then
            { outcome := .humanReview
              why := txt "the controller already removed the required label after the review" }
          else d
        some { trigger := trigger, claim := claim, head := prior.marker.head, outcome := d.outcome
               why := d.why ++ txt "; the required label is no longer standing because the " ++
                 txt "terminal mutation already landed, recording its original route" }
      else if prior.marker.verdict = .changesRequested then
        if d.outcome ≠ .revise then none
        else some { trigger := trigger, claim := claim, head := prior.marker.head
                    outcome := .revise
                    why := d.why ++ txt "; the source claim has already been handed back, " ++
                      txt "recording the route" }
      else none

/-- The oldest delivery with a completed route and no marker. -/
def completedUnroutedRoute (comments : List Comment) (triggers : List Trigger)
    (events : List Event) (reviews : List Published) : Option CompletedRoute :=
  let positions := publishedPositions cfg triggers events
  triggers.findSome? fun trigger =>
    if routeExists cfg comments trigger.occurrence then none
    else if (positionOf positions trigger.occurrence).isNone then none
    else
      let claim := claimEpochAtOccurrence events cfg.principal trigger.occurrence
      if !claim.2 then none
      else match approvalEpochAtOccurrence events cfg.requiredLabels trigger.occurrence with
        | none => none
        | some approval =>
          events.zipIdx.findSome? fun (ev, i) =>
            completedBy cfg triggers positions events reviews trigger claim.1 approval ev i

/-! ## Reviewing, routing and stopping -/

variable (s : Snapshot) (events : List Event)

/-- Review the current head, if the claim and the approval of the delivery still stand. -/
def beginReview (pr : PullRequest) (t : Trigger) (sourceClaim : Int) (why : Text) : Step :=
  match missingRequiredLabel s.issue.labels cfg.requiredLabels with
  | some missing =>
    nothing (quote missing ++ txt " is not standing on issue #" ++ itoa cfg.issue ++
      txt "; automation is revoked")
  | none =>
    let epoch := claimEpoch events cfg.principal
    if epoch = 0 then
      nothing (txt "no standing claim by " ++ cfg.principal ++ txt " to review under")
    else if epoch ≠ sourceClaim then
      nothing (txt "occurrence " ++ itoa t.occurrence ++ txt " belongs to claim " ++
        itoa sourceClaim ++ txt ", but the current claim is " ++ itoa epoch ++
        txt "; a stale delivery never reviews or routes the newer claim")
    else match approvalEpochAtOccurrence events cfg.requiredLabels t.occurrence with
      | none =>
        nothing (txt "occurrence " ++ itoa t.occurrence ++
          txt " has no datable required-label approval to anchor a review to")
      | some approval =>
        match approvalChangesAfterEpoch events cfg.requiredLabels approval with
        | none =>
          nothing (txt "occurrence " ++ itoa t.occurrence ++ txt " approval epoch " ++
            itoa approval ++ txt " is not a complete required-label anchor")
        | some (removed, newer) =>
          if newer ≠ 0 then
            nothing (txt "occurrence " ++ itoa t.occurrence ++ txt " belongs to approval epoch " ++
              itoa approval ++ txt ", but it was replaced by epoch " ++ itoa newer ++
              txt "; stale output never reviews or routes the replacement cycle")
          else if removed then
            nothing (txt "occurrence " ++ itoa t.occurrence ++ txt " approval epoch " ++
              itoa approval ++ txt " was withdrawn; stale output never reviews or routes a " ++
              txt "replacement cycle")
          else match cfg.selectReviewerProfile s.issue.labels with
            | .error e =>
              nothing (txt "issue #" ++ itoa cfg.issue ++
                txt " cannot select a reviewer invocation: " ++ e)
            | .ok profile =>
              { kind := .review
                why := if profile ≠ [] then why ++ txt " using reviewer profile " ++ quote profile
                  else why
                pr := pr, occurrence := t.occurrence, claim := sourceClaim, approval := approval
                head := pr.head, reviewerProfile := profile }

/-- End automation: remove the required label, or first record that it will be. -/
def stop (pr : PullRequest) (t : Trigger) (cur : Published) (d : Decision) : Step :=
  let (head, claim) := cur.headClaim pr
  match approvalEpochAtOccurrence events cfg.requiredLabels t.occurrence with
  | none =>
    nothing (txt "occurrence " ++ itoa t.occurrence ++
      txt " has no standing required-label approval epoch")
  | some approval =>
    if !cur.zero && cur.marker.approval ≠ approval then
      nothing (txt "occurrence " ++ itoa t.occurrence ++ txt " review names approval " ++
        itoa cur.marker.approval ++ txt ", but its source approval is " ++ itoa approval ++
        txt "; a contested review never routes")
    else if cur.zero then
      { kind := .recordIntent, why := d.why, pr := pr, occurrence := t.occurrence, claim := claim
        head := head, approval := approval, outcome := some d.outcome }
    else match approvalChangesAfterEpoch events cfg.requiredLabels approval with
      | none =>
        nothing (txt "occurrence " ++ itoa t.occurrence ++ txt " approval epoch " ++
          itoa approval ++ txt " is not a complete required-label anchor")
      | some (approvalRemoved, newerApproval) =>
        if newerApproval ≠ 0 then
          record pr t claim head d.outcome
            (d.why ++ txt "; preserving newer human approval epoch " ++ itoa newerApproval)
        else if approvalRemoved then
          record pr t claim head d.outcome
            (d.why ++ txt "; the occurrence's approval epoch was withdrawn")
        else if hasLabel s.issue.labels cfg.queueLabel then
          { kind := .revoke, why := d.why, pr := pr, occurrence := t.occurrence, claim := claim
            head := head, outcome := some d.outcome, removeLabel := cfg.queueLabel
            addLabel := if cfg.addHumanReviewLabel then humanReviewLabel else [] }
        else
          record pr t claim head d.outcome
            (d.why ++ txt "; the label is already gone, recording the route")

/-- Confirm that the world still looks the way it did, then take the one mutation the outcome
authorises. -/
def route (pr : PullRequest) (t : Trigger) (cur : Published) (d : Decision) : Step :=
  if d.outcome ≠ .revise then stop cfg s events pr t cur d
  else
    let handedBack := unassignedAfterClaim events cfg.principal cur.marker.claim
    let missing := missingRequiredLabel s.issue.labels cfg.requiredLabels
    if missing.isSome && !handedBack then
      stop cfg s events pr t cur
        { outcome := .humanReview
          why := txt "required label " ++ quote (missing.getD []) ++
            txt " was withdrawn before the revision could be routed" }
    else
      let approval := approvalEpochAtOccurrence events cfg.requiredLabels t.occurrence
      if approval ≠ some cur.marker.approval then
        nothing (txt "occurrence " ++ itoa t.occurrence ++ txt " review names approval " ++
          itoa cur.marker.approval ++ txt ", but its source approval is " ++
          itoa (approval.getD 0) ++ txt "; a contested review never routes")
      else match approvalChangesAfterEpoch events cfg.requiredLabels cur.marker.approval with
        | none =>
          nothing (txt "occurrence " ++ itoa t.occurrence ++ txt " approval epoch " ++
            itoa cur.marker.approval ++ txt " is not a complete required-label anchor")
        | some (approvalRemoved, newerApproval) =>
          if newerApproval ≠ 0 then
            record pr t cur.marker.claim cur.marker.head d.outcome
              (d.why ++ txt "; preserving newer human approval epoch " ++ itoa newerApproval)
          else if approvalRemoved then
            nothing (txt "occurrence " ++ itoa t.occurrence ++ txt " approval epoch " ++
              itoa cur.marker.approval ++
              txt " was withdrawn; waiting for issue state to converge")
          else if pr.head ≠ cur.marker.head then
            nothing (txt "head moved from " ++ short cur.marker.head ++ txt " to " ++
              short pr.head ++ txt " since the review; a stale verdict never routes")
          else if pr.baseSHA ≠ cur.marker.base then
            nothing (txt "base moved from " ++ short cur.marker.base ++ txt " to " ++
              short pr.baseSHA ++ txt " since the review; a stale verdict never routes")
          else
            let epoch := claimEpoch events cfg.principal
            if epoch ≠ cur.marker.claim then
              if handedBack then
                record pr t cur.marker.claim cur.marker.head .revise
                  (txt "the claim has been handed back; recording the route")
              else
                stop cfg s events pr t cur
                  { outcome := .humanReview
                    why := txt "the claim epoch moved from " ++ itoa cur.marker.claim ++
                      txt " to " ++ itoa epoch ++
                      txt " with no unassignment of ours; the state is contested" }
            else if !containsLogin s.issue.assignees cfg.principal then
              nothing (txt "the change log holds claim epoch " ++ itoa epoch ++ txt " for " ++
                cfg.principal ++ txt " but the assignee list does not; retrying")
            else if s.issue.assignees.length ≠ 1 then
              stop cfg s events pr t cur
                { outcome := .humanReview
                  why := txt "issue #" ++ itoa cfg.issue ++ txt " has " ++
                    itoa s.issue.assignees.length ++
                    txt " assignees; no assignee is removed when a human shares the claim" }
            else
              { kind := .unassign
                why := d.why ++ txt "; handing the claim back to " ++ cfg.principal
                pr := pr, occurrence := t.occurrence, claim := cur.marker.claim
                head := cur.marker.head, principal := cfg.principal }

/-! ## The newest delivery -/

/-- Decide on a delivery whose claim, approval and subject were established. -/
def decideDelivery (all : List Published)
    (selectedProfile : Text) (pr : PullRequest) (trigger : Trigger)
    (sourceClaim sourceApproval : Int) : Step :=
  let reviews := forApproval (since all (cycleStartAtOccurrence cfg events trigger.occurrence))
    sourceApproval
  match reviewFor all trigger.occurrence sourceClaim sourceApproval pr.head pr.baseSHA with
  | some cur =>
    -- a verdict stands for the profile that produced it
    if cur.marker.reviewerProfile ≠ [] ∧ cur.marker.reviewerProfile ≠ selectedProfile then
      nothing (txt "occurrence " ++ itoa trigger.occurrence ++ txt " was reviewed with profile " ++
        quote cur.marker.reviewerProfile ++ txt ", but the issue now selects " ++
        quote selectedProfile ++
        txt "; the durable verdict cannot route under a different profile")
    else route cfg s events pr trigger cur (outcomeFor cfg reviews cur.marker)
  | none =>
    match mismatchedReviewForOccurrence all trigger.occurrence sourceClaim sourceApproval with
    | some cur =>
      stop cfg s events pr trigger (unreviewed sourceClaim)
        { outcome := .humanReview
          why := txt "occurrence " ++ itoa trigger.occurrence ++ txt " belongs to claim " ++
            itoa sourceClaim ++ txt " and approval " ++ itoa sourceApproval ++
            txt ", but a controller review names claim " ++ itoa cur.marker.claim ++
            txt " and approval " ++ itoa cur.marker.approval ++
            txt "; the durable record is contested" }
    | none =>
      let heads := distinctHeads reviews
      match reviewForHead all trigger.occurrence sourceClaim sourceApproval pr.head with
      | some prior =>
        beginReview cfg s events pr trigger sourceClaim
          (txt "base moved from " ++ short prior.marker.base ++ txt " to " ++ short pr.baseSHA ++
            txt " while occurrence " ++ itoa trigger.occurrence ++ txt " still names head " ++
            short pr.head ++
            txt "; reviewing the current diff without consuming another head round")
      | none =>
        if heads.contains pr.head then
          route cfg s events pr trigger (unreviewed sourceClaim)
            { outcome := .noProgress
              why := txt "head " ++ short pr.head ++
                txt " was already reviewed this cycle and has not moved" }
        else if cfg.roundCap ≤ heads.length then
          route cfg s events pr trigger (unreviewed sourceClaim)
            { outcome := .roundCap
              why := itoa heads.length ++
                txt " distinct heads have been reviewed this cycle, which is the cap" }
        else
          beginReview cfg s events pr trigger sourceClaim
            (txt "occurrence " ++ itoa trigger.occurrence ++ txt " delivered head " ++
              short pr.head ++ txt ", which round " ++ itoa (heads.length + 1) ++ txt " of " ++
              itoa cfg.roundCap ++ txt " has not reviewed")

/-- Decide on the newest delivery. -/
def decideLatest (all : List Published) (selectedProfile : Text) (trigger : Trigger) : Step :=
  if !publishedOccurrenceOnLog events trigger.occurrence cfg.trackerAuthor then
    nothing (txt "occurrence " ++ itoa trigger.occurrence ++
      txt " is not a tracker-authored published transition on issue #" ++ itoa cfg.issue)
  else match routeFor cfg s.comments trigger.occurrence with
    | some routed =>
      nothing (txt "occurrence " ++ itoa trigger.occurrence ++ txt " already routed as " ++
        routed.outcome.text)
    | none =>
      let sourceClaim := claimEpochAtOccurrence events cfg.principal trigger.occurrence
      if !sourceClaim.2 then
        nothing (txt "occurrence " ++ itoa trigger.occurrence ++
          txt " has no ordered standing claim by " ++ cfg.principal)
      else match validateSubject cfg trigger s.pr with
        | .error e =>
          nothing (txt "occurrence " ++ itoa trigger.occurrence ++ txt " does not validate: " ++ e)
        | .ok () =>
          match approvalEpochAtOccurrence events cfg.requiredLabels trigger.occurrence with
          | none =>
            nothing (txt "occurrence " ++ itoa trigger.occurrence ++
              txt " has no ordered standing complete required-label approval")
          | some sourceApproval =>
            decideDelivery cfg s events all selectedProfile (observedPR s) trigger sourceClaim.1
              sourceApproval

/-- The next move for one issue from one observation. -/
def reduce (s : Snapshot) : Step :=
  match cfg.validate with
  | .error e => nothing e
  | .ok () =>
    match cfg.selectReviewerProfile s.issue.labels with
    | .error e =>
      nothing (txt "issue #" ++ itoa cfg.issue ++ txt " cannot select a reviewer invocation: " ++ e)
    | .ok selectedProfile =>
      let triggers := publishedMilestones cfg s.comments
      let events := sortEvents s.events
      let all := controllerReviews cfg events s.reviews 0
      match resumeTerminalIntent cfg s events with
      | some step => step
      | none =>
        match completedUnroutedRoute cfg s.comments triggers events all with
        | some done => record (observedPR s) done.trigger done.claim done.head done.outcome done.why
        | none =>
          if s.issue.closed then nothing (txt "issue #" ++ itoa cfg.issue ++ txt " is closed")
          else match triggers.getLast? with
            | none => nothing (txt "no published milestone by " ++ cfg.trackerAuthor ++
                txt " to act on")
            | some trigger => decideLatest cfg s events all selectedProfile trigger

end Ben.Review
