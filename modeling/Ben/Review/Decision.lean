import Ben.Review.Blind

/-!
# What a step was decided on

The guards of the reducer are spread over early returns.  Each function of it is read back here as
a relation between its inputs and its step (`Stops`, `Routes`, `Delivers`, `Resumes`, `Reduces`),
with the guards that were passed on the way as the hypotheses of the case; every property of the
steps is then a case analysis.
-/

namespace Ben.Review

variable [Library]

/-- The ordered log of a snapshot. -/
def Snapshot.log (s : Snapshot) : List Event := sortEvents s.events

/-- The controller's own reviews of a snapshot. -/
def Snapshot.verdicts (cfg : Config) (s : Snapshot) : List Published :=
  controllerReviews cfg s.log s.reviews 0

/-- The reviews that count towards the rounds of a delivery. -/
def cycleReviews (cfg : Config) (events : List Event) (all : List Published)
    (occurrence approval : Int) : List Published :=
  forApproval (since all (cycleStartAtOccurrence cfg events occurrence)) approval

variable {cfg : Config} {s : Snapshot} {events : List Event} {pr : PullRequest} {t : Trigger}

/-! ## Stopping and routing -/

variable (cfg s events pr t) in
/-- The steps of ending automation with an outcome. -/
inductive Stops (cur : Published) (o : Outcome) : Step → Prop
  | idle {why : Text} : Stops cur o (nothing why)
  | intends {why : Text} {approval : Int} (hzero : cur.zero = true)
      (happroval : approvalEpochAtOccurrence events cfg.requiredLabels t.occurrence =
        some approval) :
      Stops cur o { kind := .recordIntent, why := why, pr := pr, occurrence := t.occurrence
                    claim := cur.marker.claim, head := pr.head, approval := approval
                    outcome := some o }
  | records {why : Text} (hzero : cur.zero = false) :
      Stops cur o (record pr t cur.marker.claim cur.marker.head o why)
  | revokes {why : Text} (hzero : cur.zero = false)
      (happroval : approvalEpochAtOccurrence events cfg.requiredLabels t.occurrence =
        some cur.marker.approval)
      (hchanges : approvalChangesAfterEpoch events cfg.requiredLabels cur.marker.approval =
        some (false, 0))
      (hlabel : hasLabel s.issue.labels cfg.queueLabel = true) :
      Stops cur o { kind := .revoke, why := why, pr := pr, occurrence := t.occurrence
                    claim := cur.marker.claim, head := cur.marker.head, outcome := some o
                    removeLabel := cfg.queueLabel
                    addLabel := if cfg.addHumanReviewLabel then humanReviewLabel else [] }

lemma stops (cur) (d : Decision) :
    Stops cfg s events pr t cur d.outcome (stop cfg s events pr t cur d) := by
  unfold stop
  dsimp only
  split
  · exact .idle
  rename_i approval happroval
  split
  · exact .idle
  rename_i hcontested
  cases hzero : cur.zero with
  | true =>
    have hsubject : cur.headClaim pr = (pr.head, cur.marker.claim) := by
      rw [Published.headClaim, if_pos hzero]
    rw [hsubject, if_pos rfl]
    exact .intends hzero happroval
  | false =>
    have hsubject : cur.headClaim pr = (cur.marker.head, cur.marker.claim) := by
      rw [Published.headClaim, if_neg (by simp [hzero])]
    have hown : cur.marker.approval = approval := by simpa [hzero] using hcontested
    subst hown
    rw [hsubject, if_neg (by simp)]
    split
    · exact .idle
    rename_i removed newer hchanges
    split
    · exact .records hzero
    rename_i hnewer
    split
    · exact .records hzero
    rename_i hremoved
    split
    · rename_i hlabel
      rw [not_not.1 hnewer, eq_false_of_ne_true hremoved] at hchanges
      exact .revokes hzero happroval hchanges hlabel
    · exact .records hzero

variable (cfg s events pr t) in
/-- The steps of routing a verdict. -/
inductive Routes (cur : Published) (d : Decision) : Step → Prop
  | idle {why : Text} : Routes cur d (nothing why)
  | stops {o : Outcome} {step : Step} (h : Stops cfg s events pr t cur o step) : Routes cur d step
  | records {why : Text} (hrevise : d.outcome = .revise) :
      Routes cur d (record pr t cur.marker.claim cur.marker.head .revise why)
  | handsBack {why : Text} (hrevise : d.outcome = .revise)
      (hlabels : missingRequiredLabel s.issue.labels cfg.requiredLabels = none ∨
        unassignedAfterClaim events cfg.principal cur.marker.claim = true)
      (happroval : approvalEpochAtOccurrence events cfg.requiredLabels t.occurrence =
        some cur.marker.approval)
      (hchanges : approvalChangesAfterEpoch events cfg.requiredLabels cur.marker.approval =
        some (false, 0))
      (hhead : pr.head = cur.marker.head) (hbase : pr.baseSHA = cur.marker.base)
      (hclaim : claimEpoch events cfg.principal = cur.marker.claim)
      (hassigned : containsLogin s.issue.assignees cfg.principal = true)
      (hsole : s.issue.assignees.length = 1) :
      Routes cur d { kind := .unassign, why := why, pr := pr, occurrence := t.occurrence
                     claim := cur.marker.claim, head := cur.marker.head
                     principal := cfg.principal }

lemma routes (cur d) : Routes cfg s events pr t cur d (route cfg s events pr t cur d) := by
  unfold route
  refine iteInduction (fun _ => .stops (stops cur d)) fun hrevise => ?_
  rw [not_not] at hrevise
  refine iteInduction (fun _ => .stops (stops cur _)) fun hwithdrawn => ?_
  refine iteInduction (fun _ => .idle) fun happroval => ?_
  rw [not_not] at happroval
  cases hchanges : approvalChangesAfterEpoch events cfg.requiredLabels cur.marker.approval with
  | none => exact .idle
  | some changes =>
    obtain ⟨removed, newer⟩ := changes
    dsimp only
    refine iteInduction (fun _ => ?_) fun hnewer => ?_
    · rw [hrevise]
      exact .records hrevise
    refine iteInduction (fun _ => .idle) fun hremoved => ?_
    rw [not_not.1 hnewer, eq_false_of_ne_true hremoved] at hchanges
    refine iteInduction (fun _ => .idle) fun hhead => ?_
    refine iteInduction (fun _ => .idle) fun hbase => ?_
    refine iteInduction (fun _ => ?_) fun hclaim => ?_
    · exact iteInduction (fun _ => .records hrevise) fun _ => .stops (stops cur _)
    refine iteInduction (fun _ => .idle) fun hassigned => ?_
    refine iteInduction (fun _ => .stops (stops cur _)) fun hsole => ?_
    refine .handsBack hrevise ?_ happroval hchanges (not_not.1 hhead) (not_not.1 hbase)
      (not_not.1 hclaim) (by simpa using hassigned) (not_not.1 hsole)
    cases hmissing : missingRequiredLabel s.issue.labels cfg.requiredLabels with
    | none => exact .inl rfl
    | some label => exact .inr (by simpa [hmissing] using hwithdrawn)

/-! ## Deliveries -/

variable (cfg s events pr t) in
/-- The steps of deciding on a delivery whose claim and approval were established. -/
inductive Delivers (all : List Published) (claim approval : Int) : Step → Prop
  | idle {why : Text} : Delivers all claim approval (nothing why)
  | routes {cur : Published} {step : Step}
      (hcur : reviewFor all t.occurrence claim approval pr.head pr.baseSHA = some cur)
      (h : Routes cfg s events pr t cur
        (outcomeFor cfg (cycleReviews cfg events all t.occurrence approval) cur.marker) step) :
      Delivers all claim approval step
  | stops {o : Outcome} {step : Step} (hterminal : o ≠ .revise)
      (hnone : reviewFor all t.occurrence claim approval pr.head pr.baseSHA = none)
      (h : Stops cfg s events pr t (unreviewed claim) o step) : Delivers all claim approval step
  | reviews {why profile : Text}
      (hround : (reviewForHead all t.occurrence claim approval pr.head).isSome = true ∨
        pr.head ∉ distinctHeads (cycleReviews cfg events all t.occurrence approval) ∧
          (distinctHeads (cycleReviews cfg events all t.occurrence approval)).length <
            cfg.roundCap)
      (hlabels : missingRequiredLabel s.issue.labels cfg.requiredLabels = none)
      (hclaim : claimEpoch events cfg.principal = claim) (hne : claim ≠ 0)
      (hchanges : approvalChangesAfterEpoch events cfg.requiredLabels approval =
        some (false, 0))
      (hprofile : cfg.selectReviewerProfile s.issue.labels = .ok profile) :
      Delivers all claim approval
        { kind := .review, why := why, pr := pr, occurrence := t.occurrence, claim := claim
          approval := approval, head := pr.head, reviewerProfile := profile }

/-- A review is begun only while the claim and the approval of the delivery stand. -/
lemma delivers_beginReview {all} {claim approval : Int} (why)
    (happroval : approvalEpochAtOccurrence events cfg.requiredLabels t.occurrence = some approval)
    (hround : (reviewForHead all t.occurrence claim approval pr.head).isSome ∨
      pr.head ∉ distinctHeads (cycleReviews cfg events all t.occurrence approval) ∧
      (distinctHeads (cycleReviews cfg events all t.occurrence approval)).length < cfg.roundCap) :
    Delivers cfg s events pr t all claim approval
      (beginReview cfg s events pr t claim why) := by
  unfold beginReview
  split
  · exact .idle
  rename_i hlabels
  dsimp only
  split
  · exact .idle
  rename_i hne
  split
  · exact .idle
  rename_i hclaim
  rw [not_not] at hclaim
  rw [happroval]
  dsimp only
  split
  · exact .idle
  rename_i removed newer hchanges
  split
  · exact .idle
  rename_i hnewer
  split
  · exact .idle
  rename_i hremoved
  rw [not_not.1 hnewer, eq_false_of_ne_true hremoved] at hchanges
  split
  · exact .idle
  rename_i profile hprofile
  exact .reviews hround hlabels hclaim (hclaim ▸ hne) hchanges hprofile

lemma delivers (all profile) {claim approval : Int}
    (happroval : approvalEpochAtOccurrence events cfg.requiredLabels t.occurrence = some approval) :
    Delivers cfg s events pr t all claim approval
      (decideDelivery cfg s events all profile pr t claim approval) := by
  unfold decideDelivery
  dsimp only
  split
  · rename_i cur hcur
    split
    · exact .idle
    · exact .routes hcur (routes cur _)
  rename_i hnone
  split
  · exact .stops (by simp) hnone (stops _ _)
  split
  · rename_i prior hprior
    exact delivers_beginReview _ happroval (.inl (by rw [hprior]; rfl))
  split
  · rw [route, if_pos (by simp)]
    exact .stops (by simp) hnone (stops _ _)
  rename_i hnew
  split
  · rw [route, if_pos (by simp)]
    exact .stops (by simp) hnone (stops _ _)
  rename_i hcap
  exact delivers_beginReview _ happroval
    (.inr ⟨by simpa [cycleReviews] using hnew, by simpa [cycleReviews] using hcap⟩)

/-! ## Terminal intents -/

variable (cfg s events) in
/-- The steps of finishing a terminal intent. -/
inductive Resumes (m : RouteIntentMarker) : Step → Prop
  | idle {why : Text} : Resumes m (nothing why)
  | records {why : Text} :
      Resumes m (record (observedPR s) { occurrence := m.occurrence } m.claim m.head m.outcome why)
  | revokes {why : Text} {approval : Int}
      (hpublished : publishedOccurrenceOnLog events m.occurrence cfg.trackerAuthor = true)
      (happroval : approvalEpochAtOccurrence events cfg.requiredLabels m.occurrence =
        some approval)
      (hchanges : approvalChangesAfterEpoch events cfg.requiredLabels approval =
        some (false, 0))
      (hlabel : hasLabel s.issue.labels cfg.queueLabel = true) :
      Resumes m { kind := .revoke, why := why, pr := observedPR s, occurrence := m.occurrence
                  claim := m.claim, head := m.head, outcome := some m.outcome
                  removeLabel := cfg.queueLabel
                  addLabel := if cfg.addHumanReviewLabel then humanReviewLabel else [] }

variable (s events) in
/-- Where there are unrouted intents, the oldest of them is finished. -/
lemma resumes {m} (hm : oldestIntent cfg s.comments = some m) :
    ∃ step, resumeTerminalIntent cfg s events = some step ∧ Resumes cfg s events m step := by
  unfold resumeTerminalIntent
  rw [hm]
  refine ⟨_, rfl, ?_⟩
  refine iteInduction (fun _ => .idle) fun _ => ?_
  refine iteInduction (fun _ => .idle) fun hpublished => ?_
  refine iteInduction (fun _ => .idle) fun _ => ?_
  cases happroval : approvalEpochAtOccurrence events cfg.requiredLabels m.occurrence with
  | none => exact .idle
  | some approval =>
    dsimp only
    refine iteInduction (fun _ => .idle) fun _ => ?_
    cases hchanges : approvalChangesAfterEpoch events cfg.requiredLabels approval with
    | none => exact .idle
    | some changes =>
      obtain ⟨removed, newer⟩ := changes
      dsimp only
      refine iteInduction (fun _ => .records) fun hlabel => ?_
      refine iteInduction (fun _ => .records) fun hnewer => ?_
      refine iteInduction (fun _ => .records) fun hremoved => ?_
      rw [not_not.1 hnewer, eq_false_of_ne_true hremoved] at hchanges
      exact .revokes (by simpa using hpublished) happroval hchanges (by simpa using hlabel)

/-- Nothing is resumed only where every intent has its route. -/
lemma unroutedIntents_eq_nil_of_resumeTerminalIntent
    (h : resumeTerminalIntent cfg s events = none) : unroutedIntents cfg s.comments = [] := by
  rw [List.eq_nil_iff_forall_not_mem]
  intro m hm
  obtain ⟨n, -, hold, -⟩ := exists_oldestIntent cfg hm
  obtain ⟨step, hstep, -⟩ := resumes s events hold
  rw [h] at hstep
  cases hstep

lemma mem_unroutedIntents_of_oldestIntent {comments m} (h : oldestIntent cfg comments = some m) :
    m ∈ unroutedIntents cfg comments := by
  have hmem := List.mem_of_mem_head? (Option.mem_def.2 h)
  rw [List.mem_insertionSort] at hmem
  exact (mem_firstIntents hmem).resolve_left List.not_mem_nil

/-! ## The reducer -/

variable (cfg s) in
/-- The reducer gets to the decision on the newest delivery. -/
structure Decides (t : Trigger) (claim approval : Int) : Prop where
  valid : cfg.validate = .ok ()
  settled : unroutedIntents cfg s.comments = []
  caughtUp : completedUnroutedRoute cfg s.comments (publishedMilestones cfg s.comments) s.log
    (s.verdicts cfg) = none
  opened : s.issue.closed = false
  latest : latestPublished cfg s.comments = some t
  published : publishedOccurrenceOnLog s.log t.occurrence cfg.trackerAuthor = true
  unrouted : routeFor cfg s.comments t.occurrence = none
  claimed : claimEpochAtOccurrence s.log cfg.principal t.occurrence = (claim, true)
  subject : validateSubject cfg t s.pr = .ok ()
  approved : approvalEpochAtOccurrence s.log cfg.requiredLabels t.occurrence = some approval

variable (cfg s) in
/-- The steps of the reducer. -/
inductive Reduces : Step → Prop
  | idle {why : Text} : Reduces (nothing why)
  | resumes {m : RouteIntentMarker} {step : Step} (hm : oldestIntent cfg s.comments = some m)
      (h : Resumes cfg s s.log m step) : Reduces step
  | completes {done : CompletedRoute} (settled : unroutedIntents cfg s.comments = [])
      (h : completedUnroutedRoute cfg s.comments (publishedMilestones cfg s.comments) s.log
        (s.verdicts cfg) = some done) :
      Reduces (record (observedPR s) done.trigger done.claim done.head done.outcome done.why)
  | delivers {t : Trigger} {claim approval : Int} {step : Step}
      (hd : Decides cfg s t claim approval)
      (h : Delivers cfg s s.log (observedPR s) t (s.verdicts cfg) claim approval step) :
      Reduces step

variable (cfg s) in
/-- Every step of the reducer is one of these. -/
lemma reduces : Reduces cfg s (reduce cfg s) := by
  unfold reduce
  cases hvalid : cfg.validate with
  | error e => exact .idle
  | ok u =>
    dsimp only
    cases cfg.selectReviewerProfile s.issue.labels with
    | error e => exact .idle
    | ok profile =>
      dsimp only
      cases hresume : resumeTerminalIntent cfg s (sortEvents s.events) with
      | some step =>
        cases hold : oldestIntent cfg s.comments with
        | none =>
          rw [resumeTerminalIntent, hold] at hresume
          cases hresume
        | some m =>
          obtain ⟨step', hstep', hresumes⟩ := resumes s s.log hold
          cases hstep'.symm.trans hresume
          exact .resumes hold hresumes
      | none =>
        have hsettled := unroutedIntents_eq_nil_of_resumeTerminalIntent hresume
        dsimp only
        split
        · rename_i done hdone
          exact .completes hsettled hdone
        · rename_i hcaughtUp
          refine iteInduction (fun _ => .idle) fun hopened => ?_
          cases hlatest : (publishedMilestones cfg s.comments).getLast? with
          | none => exact .idle
          | some t =>
            dsimp only
            unfold decideLatest
            refine iteInduction (fun _ => .idle) fun hpublished => ?_
            cases hroute : routeFor cfg s.comments t.occurrence with
            | some m => exact .idle
            | none =>
              dsimp only
              refine iteInduction (fun _ => .idle) fun hclaimed => ?_
              cases hsubject : validateSubject cfg t s.pr with
              | error e => exact .idle
              | ok u =>
                dsimp only
                cases happroval : approvalEpochAtOccurrence (sortEvents s.events)
                    cfg.requiredLabels t.occurrence with
                | none => exact .idle
                | some approval =>
                  refine .delivers ⟨hvalid, hsettled, hcaughtUp, by simpa using hopened,
                    hlatest, by simpa [Snapshot.log] using hpublished, hroute, ?_, hsubject,
                    happroval⟩ (delivers _ profile happroval)
                  rw [Prod.ext_iff]
                  exact ⟨rfl, by simpa [Snapshot.log] using hclaimed⟩

end Ben.Review
