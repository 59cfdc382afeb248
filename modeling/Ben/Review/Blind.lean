import Ben.Review.Reduce
import Ben.Review.RoundTrip

/-!
# What the reducer does not read

Two snapshots that the reducer cannot tell apart.  Text by anyone but the tracker identity and the
controller, and reviews that are not the controller's own record, are dropped before anything is
decided (`reduce_trusted`).  While a terminal intent is unrouted, the pull request and the reviews
are not looked at either (`intent_fixes_step`).
-/

namespace Ben.Review

open List

section

variable [Library] (cfg : Config)

/-! ## Third parties -/

/-- The comment is by the tracker identity or by the controller. -/
def trustedComment (c : Comment) : Bool :=
  eqFold c.author cfg.trackerAuthor || eqFold c.author cfg.controller

/-- The review is by the controller, advisory, and carries a marker for the commit the forge binds
it to. -/
def trustedReview (r : Review) : Bool :=
  eqFold r.author cfg.controller && r.state == reviewStateCommented &&
    match parseReviewMarker r.body with
    | .ok m => m.head == r.commitID
    | .error _ => false

/-- The snapshot without what third parties can write. -/
def Snapshot.trusted (s : Snapshot) : Snapshot :=
  { s with
    comments := s.comments.filter (trustedComment cfg)
    reviews := s.reviews.filter (trustedReview cfg) }

lemma readMilestones_trusted (seen) (comments : List Comment) :
    readMilestones cfg seen (comments.filter (trustedComment cfg)) =
      readMilestones cfg seen comments := by
  induction comments generalizing seen with
  | nil => rfl
  | cons c comments ih =>
    by_cases hauthor : eqFold c.author cfg.trackerAuthor
    · rw [filter_cons_of_pos (by simp [trustedComment, hauthor])]
      simp only [readMilestones, hauthor, ih]
    · rw [Bool.not_eq_true] at hauthor
      have hskip : readMilestones cfg seen (c :: comments) = readMilestones cfg seen comments := by
        simp [readMilestones, hauthor]
      rw [hskip, filter_cons]
      split
      · simp only [readMilestones, hauthor, ih, Bool.not_false, if_true]
      · exact ih seen

lemma routeFor_trusted (comments : List Comment) (occurrence : Int) :
    routeFor cfg (comments.filter (trustedComment cfg)) occurrence =
      routeFor cfg comments occurrence := by
  induction comments with
  | nil => rfl
  | cons c comments ih =>
    unfold routeFor at ih ⊢
    rw [filter_cons]
    split
    · rw [findSome?_cons, findSome?_cons, ih]
    · rename_i huntrusted
      have hauthor : eqFold c.author cfg.controller = false := by
        simp only [trustedComment, Bool.or_eq_true, not_or, Bool.not_eq_true] at huntrusted
        exact huntrusted.2
      rw [ih, findSome?_cons]
      simp [hauthor]

lemma unroutedIntents_trusted (comments : List Comment) :
    unroutedIntents cfg (comments.filter (trustedComment cfg)) = unroutedIntents cfg comments := by
  unfold unroutedIntents
  simp only [routeExists, routeFor_trusted]
  rw [filterMap_filter]
  refine filterMap_congr fun c _ => ?_
  split
  · rfl
  · rename_i huntrusted
    have hauthor : eqFold c.author cfg.controller = false := by
      simp only [trustedComment, Bool.or_eq_true, not_or, Bool.not_eq_true] at huntrusted
      exact huntrusted.2
    simp [hauthor]

/-- The controller's own record is a trusted review. -/
lemma trustedReview_of_controllerReview {events} {start : Time} {r p}
    (h : controllerReview cfg events start r = some p) :
    trustedReview cfg r := by
  unfold controllerReview at h
  split at h
  · cases h
  · rename_i hown
    simp only [Bool.or_eq_true, Bool.not_eq_true', decide_eq_true_eq, not_or, not_not,
      Bool.not_eq_false] at hown
    split at h
    · cases h
    · split at h
      · cases h
      · rename_i m hparse
        split at h
        · cases h
        · rename_i hhead
          simp [trustedReview, hown.1, hown.2, hparse, not_not.1 hhead]

lemma controllerReviews_trusted (events) (reviews : List Review) (start : Time) :
    controllerReviews cfg events (reviews.filter (trustedReview cfg)) start =
      controllerReviews cfg events reviews start := by
  unfold controllerReviews
  rw [filterMap_filter]
  refine filterMap_congr fun r _ => ?_
  split
  · rfl
  · rename_i huntrusted
    cases hreview : controllerReview cfg events start r with
    | none => rfl
    | some p => exact absurd (trustedReview_of_controllerReview cfg hreview) huntrusted

lemma publishedMilestones_trusted (comments : List Comment) :
    publishedMilestones cfg (comments.filter (trustedComment cfg)) =
      publishedMilestones cfg comments := by
  rw [publishedMilestones, readMilestones_trusted, publishedMilestones]

lemma completedUnroutedRoute_trusted (comments : List Comment) (triggers events all) :
    completedUnroutedRoute cfg (comments.filter (trustedComment cfg)) triggers events all =
      completedUnroutedRoute cfg comments triggers events all := by
  unfold completedUnroutedRoute
  simp only [routeExists, routeFor_trusted]

lemma resumeTerminalIntent_trusted (s : Snapshot) (events) :
    resumeTerminalIntent cfg (s.trusted cfg) events = resumeTerminalIntent cfg s events := by
  unfold resumeTerminalIntent oldestIntent
  simp only [Snapshot.trusted, unroutedIntents_trusted]
  rfl

lemma decideLatest_trusted (s : Snapshot) (events all profile trigger) :
    decideLatest cfg (s.trusted cfg) events all profile trigger =
      decideLatest cfg s events all profile trigger := by
  unfold decideLatest
  simp only [Snapshot.trusted, routeFor_trusted]
  rfl

/-- Nothing a third party can write is read. -/
lemma reduce_trusted (s : Snapshot) : reduce cfg (s.trusted cfg) = reduce cfg s := by
  unfold reduce
  simp only [resumeTerminalIntent_trusted, decideLatest_trusted]
  simp only [Snapshot.trusted, publishedMilestones_trusted, controllerReviews_trusted,
    completedUnroutedRoute_trusted]
  rfl

/-- Two snapshots that differ only in comments by others than the tracker identity and the
controller, and in reviews that are not the controller's own record, get the same step. -/
theorem step_of_trusted_eq (s s' : Snapshot) (hissue : s'.issue = s.issue)
    (hevents : s'.events = s.events) (hpr : s'.pr = s.pr)
    (hcomments : s'.comments.filter (trustedComment cfg) =
      s.comments.filter (trustedComment cfg))
    (hreviews : s'.reviews.filter (trustedReview cfg) = s.reviews.filter (trustedReview cfg)) :
    reduce cfg s' = reduce cfg s := by
  have hsame : s'.trusted cfg = s.trusted cfg := by
    simp only [Snapshot.trusted, hissue, hevents, hpr, hcomments, hreviews]
  rw [← reduce_trusted cfg s', hsame, reduce_trusted]

/-! ## Subjects of durable intents -/

/-- The step without the pull request it carries. -/
def Step.unbound (step : Step) : Step := { step with pr := {} }

/-- The step finishes the intent: it removes the label or records the route for exactly what the
intent names. -/
structure Step.Finishes (step : Step) (m : RouteIntentMarker) : Prop where
  kind : step.kind = .revoke ∨ step.kind = .recordRoute
  occurrence : step.occurrence = m.occurrence
  claim : step.claim = m.claim
  head : step.head = m.head
  outcome : step.outcome = some m.outcome

omit [Library] in
lemma mem_firstIntents {seen ms m} (hm : m ∈ firstIntents seen ms) : m ∈ seen ∨ m ∈ ms := by
  induction ms generalizing seen with
  | nil => exact .inl hm
  | cons n ms ih =>
    rw [firstIntents] at hm
    split at hm
    · exact (ih hm).imp_right (.tail n)
    · obtain hm | hm := ih hm
      · rw [mem_append, mem_singleton] at hm
        obtain hm | rfl := hm
        · exact .inl hm
        · exact .inr (.head _)
      · exact .inr (.tail n hm)

omit [Library] in
/-- Every occurrence with an intent has a first one. -/
lemma exists_mem_firstIntents (seen) {ms} {m : RouteIntentMarker} (hm : m ∈ seen ∨ m ∈ ms) :
    ∃ n ∈ firstIntents seen ms, n.occurrence = m.occurrence := by
  induction ms generalizing seen m with
  | nil =>
    obtain hm | hm := hm
    · exact ⟨m, hm, rfl⟩
    · cases hm
  | cons n ms ih =>
    rw [firstIntents]
    split
    · rename_i hseen
      obtain ⟨prior, hprior, hsame⟩ := any_eq_true.1 hseen
      rw [beq_iff_eq] at hsame
      obtain hm | hm := hm
      · exact ih _ (.inl hm)
      · obtain rfl | hm := mem_cons.1 hm
        · obtain ⟨k, hk, hkocc⟩ := ih _ (.inl hprior)
          exact ⟨k, hk, hkocc.trans hsame⟩
        · exact ih _ (.inr hm)
    · obtain hm | hm := hm
      · exact ih _ (.inl (mem_append_left _ hm))
      · obtain rfl | hm := mem_cons.1 hm
        · exact ih _ (.inl (by simp))
        · exact ih _ (.inr hm)

/-- Where there is an unrouted intent, the oldest one is found. -/
lemma exists_oldestIntent {comments m} (hm : m ∈ unroutedIntents cfg comments) :
    ∃ n ∈ unroutedIntents cfg comments, oldestIntent cfg comments = some n ∧
      ∀ k ∈ unroutedIntents cfg comments, n.occurrence ≤ k.occurrence := by
  have hsorted := pairwise_insertionSort
    (fun a b : RouteIntentMarker => a.occurrence ≤ b.occurrence)
    (firstIntents [] (unroutedIntents cfg comments))
  unfold oldestIntent
  cases hlist : (firstIntents [] (unroutedIntents cfg comments)).insertionSort
      fun a b : RouteIntentMarker => a.occurrence ≤ b.occurrence with
  | nil =>
    obtain ⟨k, hk, -⟩ := exists_mem_firstIntents [] (.inr hm)
    rw [← mem_insertionSort fun a b : RouteIntentMarker => a.occurrence ≤ b.occurrence, hlist] at hk
    cases hk
  | cons n rest =>
    rw [hlist, pairwise_cons] at hsorted
    have hn : n ∈ unroutedIntents cfg comments := by
      have hmem : n ∈ firstIntents [] (unroutedIntents cfg comments) := by
        rw [← mem_insertionSort fun a b : RouteIntentMarker => a.occurrence ≤ b.occurrence, hlist]
        exact .head _
      exact (mem_firstIntents hmem).resolve_left not_mem_nil
    refine ⟨n, hn, rfl, fun k hk => ?_⟩
    obtain ⟨k', hk', hocc⟩ := exists_mem_firstIntents [] (.inr hk)
    rw [← mem_insertionSort fun a b : RouteIntentMarker => a.occurrence ≤ b.occurrence,
      hlist, mem_cons] at hk'
    obtain rfl | hk' := hk'
    · exact hocc.le
    · exact (hsorted.1 k' hk').trans_eq hocc

/-- Resuming an intent does nothing or finishes it. -/
lemma resumeTerminalIntent_finishes (s : Snapshot) (events) {m}
    (hm : oldestIntent cfg s.comments = some m) :
    ∃ step, resumeTerminalIntent cfg s events = some step ∧
      (step.kind = .nothing ∨ step.Finishes m) := by
  unfold resumeTerminalIntent
  rw [hm]
  refine ⟨_, rfl, ?_⟩
  split
  · exact .inl rfl
  split
  · exact .inl rfl
  dsimp only
  split
  · exact .inl rfl
  split
  · exact .inl rfl
  split
  · exact .inl rfl
  split
  · exact .inl rfl
  · refine .inr ?_
    split
    · exact ⟨.inr rfl, rfl, rfl, rfl, rfl⟩
    split
    · exact ⟨.inr rfl, rfl, rfl, rfl, rfl⟩
    split
    · exact ⟨.inr rfl, rfl, rfl, rfl, rfl⟩
    · exact ⟨.inl rfl, rfl, rfl, rfl, rfl⟩

/-- What is resumed depends on the pull request by the subject it carries only. -/
lemma resumeTerminalIntent_unbound (s s' : Snapshot) (events) (hissue : s'.issue = s.issue)
    (hcomments : s'.comments = s.comments) :
    (resumeTerminalIntent cfg s' events).map Step.unbound =
      (resumeTerminalIntent cfg s events).map Step.unbound := by
  unfold resumeTerminalIntent
  rw [hissue, hcomments]
  cases oldestIntent cfg s.comments with
  | none => rfl
  | some m =>
    simp only [Option.map_some, Option.some.injEq]
    split
    · rfl
    split
    · rfl
    split
    · rfl
    cases approvalEpochAtOccurrence events cfg.requiredLabels m.occurrence with
    | none => rfl
    | some approval =>
      dsimp only
      split
      · rfl
      cases approvalChangesAfterEpoch events cfg.requiredLabels approval with
      | none => rfl
      | some changes =>
        dsimp only
        split
        · rfl
        split
        · rfl
        split <;> rfl

/-- While the comments hold an unrouted terminal intent of the controller, the step does not depend
on the pull request or the reviews, the subject it carries apart, and it finishes the oldest such
intent or does nothing. -/
theorem intent_fixes_step (issue : Issue) (comments : List Comment) (events : List Event)
    (m : RouteIntentMarker) (hm : m ∈ unroutedIntents cfg comments) :
    ∃ n ∈ unroutedIntents cfg comments, n.occurrence ≤ m.occurrence ∧
      ∀ (pr pr' : Option PullRequest) (reviews reviews' : List Review),
        (reduce cfg ⟨issue, comments, events, reviews, pr⟩).unbound =
          (reduce cfg ⟨issue, comments, events, reviews', pr'⟩).unbound ∧
        ((reduce cfg ⟨issue, comments, events, reviews, pr⟩).kind = .nothing ∨
          (reduce cfg ⟨issue, comments, events, reviews, pr⟩).Finishes n) := by
  obtain ⟨n, hn, hold, hleast⟩ := exists_oldestIntent cfg hm
  refine ⟨n, hn, hleast m hm, fun pr pr' reviews reviews' => ?_⟩
  have hsame := resumeTerminalIntent_unbound cfg ⟨issue, comments, events, reviews', pr'⟩
    ⟨issue, comments, events, reviews, pr⟩ (sortEvents events) rfl rfl
  obtain ⟨step, hstep, hfinishes⟩ := resumeTerminalIntent_finishes cfg
    ⟨issue, comments, events, reviews, pr⟩ (sortEvents events) hold
  obtain ⟨step', hstep', -⟩ := resumeTerminalIntent_finishes cfg
    ⟨issue, comments, events, reviews', pr'⟩ (sortEvents events) hold
  rw [hstep, hstep', Option.map_some, Option.map_some, Option.some.injEq] at hsame
  unfold reduce
  cases cfg.validate with
  | error e => exact ⟨rfl, .inl rfl⟩
  | ok u =>
    dsimp only
    cases cfg.selectReviewerProfile issue.labels with
    | error e => exact ⟨rfl, .inl rfl⟩
    | ok profile =>
      dsimp only
      rw [hstep, hstep']
      exact ⟨hsame, hfinishes⟩

end

namespace Sample

/-- A controller of one queue label and three rounds. -/
def config : Config :=
  { owner := txt "acme", repo := txt "ben", issue := 11, principal := txt "ben-claim-bot"
    trackerAuthor := txt "ben-tracker-bot", controller := txt "ben-review-bot"
    requiredLabels := [txt "ben-queue"], queueLabel := txt "ben-queue", roundCap := 3 }

/-- The issue, queued and claimed. -/
def issue : Issue :=
  { number := 11, labels := [txt "ben-queue"], assignees := [txt "ben-claim-bot"] }

/-- The log up to the first publication: approval, claim, and the state label cleared. -/
def log : List Event :=
  [{ id := 900, type := .labeled, actor := txt "a-human", label := txt "ben-queue"
     createdAt := 10 },
   { id := 1000, type := .assigned, actor := txt "ben-tracker-bot"
     assignee := txt "ben-claim-bot", createdAt := 20 },
   { id := 1001, type := .unlabeled, actor := txt "ben-tracker-bot", label := txt "ben:claimed"
     createdAt := 30 }]

/-- The milestone of an occurrence. -/
def milestone (occurrence : Int) (createdAt : Time) : Comment :=
  { id := occurrence + 100, author := txt "ben-tracker-bot", createdAt := createdAt
    body := txt "**BEN published a pull request.**\n\n- pull request: " ++
      txt "https://github.com/acme/ben/pull/42\n" ++
      renderMarker markerMilestone
        [(txt "kind", txt "published"), (txt "occurrence", itoa occurrence)] ++ txt "\n" }

/-- The pull request at a head. -/
def pullRequest (head : Text) : PullRequest :=
  { number := 42, url := txt "https://github.com/acme/ben/pull/42", branch := txt "ben/11"
    head := head, base := txt "main", baseSHA := commit 101, body := txt "Fixes #11" }

/-- A terminal intent for the first publication. -/
def intent : RouteIntentMarker :=
  { occurrence := 1001, claim := 1000, approval := 900, head := commit 97, outcome := .noProgress }

/-- The comment that carries the intent. -/
def intentComment : Comment :=
  { id := 1200, author := txt "ben-review-bot", createdAt := 50
    body := routeIntentBody intent (txt "no commit since") }

/-- A comment by someone else that looks like a route. -/
def forgedRoute : Comment :=
  { id := 1201, author := txt "mallory", createdAt := 60
    body := routeBody { occurrence := 1001, claim := 1000, head := commit 97, outcome := .revise }
      (txt "trust me") }

end Sample

open Review.Sample

/-- With the intent there, the step is its revocation, whether or not there is a pull request. -/
theorem intent_fixes_step_intent :
    intent ∈ unroutedIntents config [milestone 1001 40, intentComment] ∧
    ∃ n, n.occurrence ≤ intent.occurrence ∧
      (reduce config ⟨issue, [milestone 1001 40, intentComment], log, [], none⟩).unbound =
      (reduce config ⟨issue, [milestone 1001 40, intentComment],
        log, [], some (pullRequest (commit 98))⟩).unbound ∧
      (reduce config ⟨issue, [milestone 1001 40, intentComment],
        log, [], none⟩).Finishes n := by
  have hmem : intent ∈
      unroutedIntents config [milestone 1001 40, intentComment] := by
    decide +kernel
  obtain ⟨n, -, hle, hsteps⟩ := intent_fixes_step config issue _ log _ hmem
  obtain ⟨hsame, hkind⟩ := hsteps none (some (pullRequest (commit 98))) [] []
  refine ⟨hmem, n, hle, hsame, hkind.resolve_left ?_⟩
  decide +kernel

/-- The step carries the pull request as it was observed, not only its number. -/
theorem intent_step_carries_observed :
    let step (head : Text) := reduce config
      ⟨issue, [milestone 1001 40, intentComment], log, [], some (pullRequest head)⟩
    intent ∈ unroutedIntents config [milestone 1001 40, intentComment] ∧
      (step (commit 97)).pr.number = (step (commit 98)).pr.number ∧
      (step (commit 97)).pr.head ≠ (step (commit 98)).pr.head := by
  decide +kernel

/-- A forged route changes nothing. -/
theorem step_of_trusted_eq_forgedRoute :
    reduce config ⟨issue, [milestone 1001 40, forgedRoute], log,
      [], some (pullRequest (commit 97))⟩ =
    reduce config ⟨issue, [milestone 1001 40], log, [], some (pullRequest (commit 97))⟩ :=
  step_of_trusted_eq config _ _ rfl rfl rfl (by decide +kernel) rfl

end Ben.Review
