import Ben.Review.Decision
import Ben.Review.Deliveries
import Ben.Review.Replay

/-!
# What a mutation presupposes

The controller mutates an issue in two ways: it hands the claim back, or it removes the required
label.  `unassign_authorized` and `revoke_authorized` say what holds of a snapshot whenever the
reducer answers with one of them, in terms of the snapshot's comments, reviews and ordered log.
-/

namespace Ben.Review

open List

section

variable [Library] {cfg : Config} {s : Snapshot} {step : Step}

/-! ## Rounds -/

section

omit [Library]

lemma mem_readHeads_iff {heads reviews head} :
    head ∈ readHeads heads reviews ↔ head ∈ heads ∨ ∃ p ∈ reviews, p.marker.head = head := by
  induction reviews generalizing heads with
  | nil => simp [readHeads]
  | cons p reviews ih =>
    rw [readHeads]
    split
    · rename_i hseen
      rw [contains_eq_mem, decide_eq_true_eq] at hseen
      rw [ih, exists_mem_cons_iff]
      constructor
      · rintro (h | h)
        · exact .inl h
        · exact .inr (.inr h)
      · rintro (h | rfl | h)
        · exact .inl h
        · exact .inl hseen
        · exact .inr h
    · rw [ih, mem_append, mem_singleton, or_assoc, exists_mem_cons_iff, eq_comm (a := head)]

lemma nodup_readHeads {heads : List Text} (h : heads.Nodup) (reviews) :
    (readHeads heads reviews).Nodup := by
  induction reviews generalizing heads with
  | nil => exact h
  | cons p reviews ih =>
    rw [readHeads]
    split
    · exact ih h
    · rename_i hnew
      rw [contains_eq_mem, decide_eq_true_eq] at hnew
      exact ih (nodup_append.2 ⟨h, nodup_singleton _, fun a ha b hb hab => hnew (by
        rw [mem_singleton.1 hb] at hab
        exact hab ▸ ha)⟩)

lemma mem_distinctHeads_iff {reviews head} :
    head ∈ distinctHeads reviews ↔ ∃ p ∈ reviews, p.marker.head = head := by
  rw [distinctHeads, mem_readHeads_iff]
  simp

/-- No list of different reviewed heads is longer than the one that is counted. -/
lemma length_le_distinctHeads {reviews} {heads : List Text} (hnodup : heads.Nodup)
    (h : ∀ head ∈ heads, ∃ p ∈ reviews, p.marker.head = head) :
    heads.length ≤ (distinctHeads reviews).length :=
  (subperm_of_subset hnodup fun head hhead => mem_distinctHeads_iff.2 (h head hhead)).length_le

lemma revise_of_outcomeFor {reviews} {m : ReviewMarker}
    (h : (outcomeFor cfg reviews m).outcome = .revise) :
    m.verdict = .changesRequested ∧ (distinctHeads reviews).length < cfg.roundCap := by
  unfold outcomeFor at h
  split at h
  · cases h
  · rename_i hverdict
    dsimp only at h
    split at h
    · cases h
    · rename_i hcap
      refine ⟨?_, not_le.1 hcap⟩
      cases hm : m.verdict with
      | clean => exact absurd hm hverdict
      | changesRequested => rfl

end

/-! ## Reviews -/

omit [Library] in
lemma reviewFor_eq_some {all} {occurrence claim approval : Int} {head base} {cur : Published}
    (h : reviewFor all occurrence claim approval head base = some cur) :
    cur ∈ all ∧ cur.marker.occurrence = occurrence ∧ cur.marker.claim = claim ∧
      cur.marker.approval = approval ∧ cur.marker.head = head ∧ cur.marker.base = base := by
  have hfound := find?_some h
  simp only [Bool.and_eq_true, beq_iff_eq] at hfound
  exact ⟨mem_of_find?_eq_some h, hfound.1.1.1.1, hfound.1.1.1.2, hfound.1.1.2, hfound.1.2, hfound.2⟩

/-- A controller review is on the forge, advisory, by the controller, and bound to the commit its
marker names. -/
lemma controllerReview_eq_some {events} {start : Time} {r : Review} {p : Published}
    (h : controllerReview cfg events start r = some p) :
    p.review = r ∧ eqFold r.author cfg.controller ∧ r.state = reviewStateCommented ∧
      ∃ m, parseReviewMarker r.body = .ok m ∧ m.head = r.commitID ∧
        (p.marker = m ∧ m.approval ≠ 0 ∨ m.approval = 0 ∧ ∃ approval,
          p.marker = { m with approval := approval } ∧
            approvalEpochAtOccurrence events cfg.requiredLabels m.occurrence = some approval) := by
  unfold controllerReview at h
  split at h
  · cases h
  · rename_i hown
    simp only [Bool.or_eq_true, Bool.not_eq_true', decide_eq_true_eq, not_or, not_not,
      Bool.not_eq_false] at hown
    split at h
    · cases h
    split at h
    · cases h
    rename_i m hparse
    split at h
    · cases h
    rename_i hhead
    rw [not_not] at hhead
    split at h
    · rename_i hlegacy
      dsimp only at h
      split at h
      · cases h
      · rename_i happroval
        cases h
        refine ⟨rfl, hown.1, hown.2, m, hparse, hhead, .inr ⟨hlegacy, _, rfl, ?_⟩⟩
        cases hat : approvalEpochAtOccurrence events cfg.requiredLabels m.occurrence with
        | none => simp [hat] at happroval
        | some approval => rfl
    · rename_i hnamed
      cases h
      exact ⟨rfl, hown.1, hown.2, m, hparse, hhead, .inl ⟨rfl, hnamed⟩⟩

/-- A commit was reviewed by the controller under an approval: after the entry that anchors it, in
a review that names it. -/
def ReviewedUnder (cfg : Config) (s : Snapshot) (approval : Int) (head : Text) : Prop :=
  ∃ p ∈ s.verdicts cfg, p.marker.approval = approval ∧ p.marker.head = head ∧
    ∃ ev ∈ s.events, ev.id = approval ∧ ev.createdAt ≤ p.review.submittedAt

/-! ## Handing back -/

/-- What the reducer saw when it answered with a handoff. -/
structure Handoff (cfg : Config) (s : Snapshot) (step : Step) (t : Trigger) (approval : Int)
    (cur : Published) : Prop where
  decides : Decides cfg s t step.claim approval
  review : reviewFor (s.verdicts cfg) t.occurrence step.claim approval (observedPR s).head
    (observedPR s).baseSHA = some cur
  revise : (outcomeFor cfg (cycleReviews cfg s.log (s.verdicts cfg) t.occurrence approval)
    cur.marker).outcome = .revise
  labels : missingRequiredLabel s.issue.labels cfg.requiredLabels = none ∨
    unassignedAfterClaim s.log cfg.principal step.claim = true
  changes : approvalChangesAfterEpoch s.log cfg.requiredLabels approval = some (false, 0)
  claim : claimEpoch s.log cfg.principal = step.claim
  assigned : containsLogin s.issue.assignees cfg.principal = true
  sole : s.issue.assignees.length = 1
  occurrence : step.occurrence = t.occurrence
  head : step.head = (observedPR s).head
  principal : step.principal = cfg.principal

lemma Stops.kind_ne_unassign {events pr t cur o} (h : Stops cfg s events pr t cur o step) :
    step.kind ≠ .unassign := by
  cases h <;> exact StepKind.noConfusion

/-- A handoff comes from a delivery that was reviewed. -/
lemma Reduces.handoff (hr : Reduces cfg s step) (h : step.kind = .unassign) :
    ∃ t approval cur, Handoff cfg s step t approval cur := by
  cases hr with
  | idle => cases h
  | resumes _ hm => cases hm <;> cases h
  | completes => cases h
  | delivers hd hdelivers =>
    cases hdelivers with
    | idle => cases h
    | stops _ _ hstops => exact absurd h hstops.kind_ne_unassign
    | reviews => cases h
    | routes hcur hroutes =>
      rename_i t claim approval cur
      obtain ⟨-, -, rfl, rfl, hhead, -⟩ := reviewFor_eq_some hcur
      cases hroutes with
      | idle => cases h
      | stops hstops => exact absurd h hstops.kind_ne_unassign
      | records => cases h
      | handsBack hrevise hlabels happroval hchanges hhead' hbase hclaim hassigned hsole =>
        exact ⟨t, cur.marker.approval, cur, hd, hcur, hrevise, hlabels, hchanges, hclaim, hassigned,
          hsole, rfl, hhead, rfl⟩

/-- The comment is a milestone of the tracker identity that delivers an occurrence. -/
def Announces (cfg : Config) (c : Comment) (occurrence : Int) : Prop :=
  ∃ t, milestoneOf cfg c = some t ∧ t.occurrence = occurrence

/-- The entry of the log is the tracker clearing its state label. -/
def Publishes (cfg : Config) (ev : Event) : Prop :=
  ev.type = .unlabeled ∧ eqFold ev.actor cfg.trackerAuthor = true ∧
    (eqFold ev.label (txt "ben:claimed") = true ∨ eqFold ev.label (txt "ben:running") = true)

/-- The controller left no route marker for an occurrence. -/
def Unrouted (cfg : Config) (comments : List Comment) (occurrence : Int) : Prop :=
  ∀ c ∈ comments, eqFold c.author cfg.controller = true →
    ∀ m, parseRouteMarker c.body = .ok m → m.occurrence ≠ occurrence

/-- The controller left no terminal intent for an occurrence. -/
def Unintended (cfg : Config) (comments : List Comment) (occurrence : Int) : Prop :=
  ∀ c ∈ comments, eqFold c.author cfg.controller = true →
    ∀ m, parseRouteIntentMarker c.body = .ok m → m.occurrence ≠ occurrence

/-- The controller's review of a subject: on the forge, advisory, with changes requested. -/
structure RequestsChanges (cfg : Config) (r : Review) (m : ReviewMarker) (pr : PullRequest) :
    Prop where
  author : eqFold r.author cfg.controller = true
  state : r.state = reviewStateCommented
  marker : parseReviewMarker r.body = .ok m
  commit : r.commitID = pr.head
  head : m.head = pr.head
  base : m.base = pr.baseSHA
  verdict : m.verdict = .changesRequested

/-- Everything a handoff presupposes, for the approval it is made under. -/
structure HandoffAuthorized (cfg : Config) (s : Snapshot) (step : Step) (approval : Int) :
    Prop where
  opened : s.issue.closed = false
  sole : ∃ a, s.issue.assignees = [a] ∧ eqFold a cfg.principal = true
  principal : step.principal = cfg.principal
  labels : ∀ label ∈ cfg.requiredLabels, hasLabel s.issue.labels label = true
  announced : ∃ c ∈ s.comments, Announces cfg c step.occurrence
  latest : ∀ c ∈ s.comments, ∀ n, Announces cfg c n → n ≤ step.occurrence
  published : ∃ ev ∈ s.events, ev.id = step.occurrence ∧ Publishes cfg ev
  unrouted : Unrouted cfg s.comments step.occurrence
  unintended : Unintended cfg s.comments step.occurrence
  /-- The review may predate the approval field; it then stands for the one at its occurrence. -/
  review : ∃ pr r m, s.pr = some pr ∧ r ∈ s.reviews ∧ RequestsChanges cfg r m pr ∧
    m.occurrence = step.occurrence ∧ m.claim = step.claim ∧
      (m.approval = approval ∨ m.approval = 0) ∧ step.head = pr.head
  claim : claimEpochAtOccurrence s.log cfg.principal step.occurrence = (step.claim, true) ∧
    claimEpoch s.log cfg.principal = step.claim
  approved : approvalEpochAtOccurrence s.log cfg.requiredLabels step.occurrence = some approval
  stands : Stands cfg.requiredLabels s.log approval
  rounds : ∀ heads : List Text, heads.Nodup →
    (∀ head ∈ heads, ReviewedUnder cfg s approval head) → heads.length < cfg.roundCap

lemma routeFor_eq_none_iff {comments} {occurrence : Int} :
    routeFor cfg comments occurrence = none ↔ Unrouted cfg comments occurrence := by
  rw [routeFor, findSome?_eq_none_iff]
  refine forall₂_congr fun c _ => ?_
  cases hauthor : eqFold c.author cfg.controller with
  | false => simp
  | true =>
    cases hparse : parseRouteMarker c.body with
    | error e => simp
    | ok m => simp

/-- The intents of an occurrence without a route are all unrouted. -/
lemma unintended_of_unroutedIntents {comments} {occurrence : Int}
    (hroute : routeFor cfg comments occurrence = none)
    (h : ∀ m ∈ unroutedIntents cfg comments, m.occurrence ≠ occurrence) :
    Unintended cfg comments occurrence := by
  rintro c hc hauthor m hparse rfl
  refine h m (mem_filterMap.2 ⟨c, hc, ?_⟩) rfl
  simp [hauthor, hparse, routeExists, hroute]

lemma publishes_of_publishedOccurrenceOnLog {events} {occurrence : Int}
    (h : publishedOccurrenceOnLog events occurrence cfg.trackerAuthor) :
    ∃ ev ∈ events, ev.id = occurrence ∧ Publishes cfg ev := by
  unfold publishedOccurrenceOnLog at h
  split at h
  · cases h
  · rename_i ev hfind
    simp only [Bool.and_eq_true, beq_iff_eq, Bool.or_eq_true] at h
    exact ⟨ev, mem_of_find?_eq_some hfind, by simpa using find?_some hfind, h.1.1, h.1.2, h.2⟩

omit [Library] in
lemma Snapshot.mem_log_iff {ev} : ev ∈ s.log ↔ ev ∈ s.events := mem_insertionSort Event.le

lemma latest_of_latestPublished {comments} {t : Trigger}
    (h : latestPublished cfg comments = some t) :
    (∃ c ∈ comments, Announces cfg c t.occurrence) ∧
      ∀ c ∈ comments, ∀ n, Announces cfg c n → n ≤ t.occurrence := by
  obtain ⟨hmem, hgreatest⟩ := latestPublished_eq_some_iff.1 h
  constructor
  · obtain ⟨before, c, after, rfl, hc, -⟩ := mem_publishedMilestones_iff.1 hmem
    exact ⟨c, by simp, t, hc, rfl⟩
  · rintro c hc n ⟨u, hu, rfl⟩
    obtain ⟨v, hv, hocc⟩ := exists_mem_publishedMilestones hc hu
    exact hocc ▸ hgreatest v hv

/-- What counts for the rounds of a delivery is what was reviewed under its approval. -/
lemma mem_cycleReviews_of_reviewedUnder {occurrence approval : Int} {head}
    (hnodup : (s.log.map (·.id)).Nodup)
    (happroval : approvalEpochAtOccurrence s.log cfg.requiredLabels occurrence = some approval)
    (h : ReviewedUnder cfg s approval head) :
    ∃ p ∈ cycleReviews cfg s.log (s.verdicts cfg) occurrence approval, p.marker.head = head := by
  obtain ⟨p, hp, hnames, hhead, ev, hev, hid, hsince⟩ := h
  have hfind : s.log.find? (fun ev => ev.id == approval) = some ev := by
    obtain ⟨before, after, heq⟩ := append_of_mem (Snapshot.mem_log_iff.2 hev)
    have hat := Replay.at_of_nodup hnodup heq hid
    refine find?_eq_some_iff_append.2 ⟨by simpa using hid, before, after, heq, fun e he => ?_⟩
    simpa using hat.unique e (mem_append_left _ he)
  refine ⟨p, mem_filter.2 ⟨mem_filter.2 ⟨hp, ?_⟩, by simpa using hnames⟩, hhead⟩
  simp only [cycleStartAtOccurrence, happroval, hfind]
  simpa using hsince

/-- With positive and distinct event ids, a handoff has all of its authority. -/
theorem unassign_authorized (cfg : Config) (s : Snapshot) (hpos : ∀ ev ∈ s.events, 0 < ev.id)
    (hnodup : (s.events.map (·.id)).Nodup) (h : (reduce cfg s).kind = .unassign) :
    ∃ approval, HandoffAuthorized cfg s (reduce cfg s) approval := by
  obtain ⟨t, approval, cur, hoff⟩ := (reduces cfg s).handoff h
  obtain ⟨hd, hreview, hrevise, hlabels, hchanges, hclaim, hassigned, hsole, hocc, hhead,
    hprincipal⟩ := hoff
  have hpos' : ∀ ev ∈ s.log, 0 < ev.id := fun ev hev => hpos ev (Snapshot.mem_log_iff.1 hev)
  have hnodup' : (s.log.map (·.id)).Nodup :=
    ((perm_insertionSort Event.le s.events).map (·.id)).nodup_iff.2 hnodup
  obtain ⟨hmem, hcurOcc, hcurClaim, hcurApproval, hcurHead, hcurBase⟩ := reviewFor_eq_some hreview
  obtain ⟨hverdict, hcap⟩ := revise_of_outcomeFor hrevise
  obtain ⟨hannounced, hlatest⟩ := latest_of_latestPublished hd.latest
  refine ⟨approval, hd.opened, ?_, hprincipal, ?_, hocc ▸ hannounced, hocc ▸ hlatest, ?_, ?_,
    ?_, ?_, ⟨hocc ▸ hd.claimed, hclaim⟩, hocc ▸ hd.approved,
    stands_of_approvalChangesAfterEpoch hpos' hchanges, ?_⟩
  · -- the only assignee is the one that was found
    obtain ⟨a, ha⟩ := length_eq_one_iff.1 hsole
    rw [ha] at hassigned
    exact ⟨a, ha, by simpa [containsLogin] using hassigned⟩
  · -- a claim that stands was not handed back, so no label was found missing
    obtain hmissing | hhanded := hlabels
    · intro label hlabel
      have hthere := find?_eq_none.1 hmissing label hlabel
      simpa using hthere
    · have hpositive := (claimEpochAtOccurrence_eq_iff.1 hd.claimed).1
      exact absurd hclaim (claimEpoch_ne_of_unassignedAfterClaim hnodup' hpositive.ne' hhanded)
  · obtain ⟨ev, hev, hid, hpublishes⟩ := publishes_of_publishedOccurrenceOnLog hd.published
    exact ⟨ev, Snapshot.mem_log_iff.1 hev, hid.trans hocc.symm, hpublishes⟩
  · rw [hocc]
    exact routeFor_eq_none_iff.1 hd.unrouted
  · rw [hocc]
    exact unintended_of_unroutedIntents hd.unrouted (by simp [hd.settled])
  · obtain ⟨r, hr, hcontroller⟩ := mem_filterMap.1 hmem
    obtain ⟨-, hauthor, hstate, m, hparse, hcommit, hmarker⟩ := controllerReview_eq_some hcontroller
    -- the marker is the one that was read, its approval apart
    have hsame : m.occurrence = cur.marker.occurrence ∧ m.claim = cur.marker.claim ∧
        m.head = cur.marker.head ∧ m.base = cur.marker.base ∧ m.verdict = cur.marker.verdict ∧
        (m.approval = cur.marker.approval ∨ m.approval = 0) := by
      obtain ⟨hm, -⟩ | ⟨hlegacy, a, hm, -⟩ := hmarker
      · rw [hm]
        exact ⟨rfl, rfl, rfl, rfl, rfl, .inl rfl⟩
      · rw [hm]
        exact ⟨rfl, rfl, rfl, rfl, rfl, .inr hlegacy⟩
    obtain ⟨hmOcc, hmClaim, hmHead, hmBase, hmVerdict, hmApproval⟩ := hsame
    cases hpr : s.pr with
    | none =>
      have hsubject := hd.subject
      rw [hpr] at hsubject
      cases hsubject
    | some pr =>
      have hobserved : observedPR s = pr := by rw [observedPR, hpr, Option.getD_some]
      rw [hobserved] at hcurHead hcurBase hhead
      refine ⟨pr, r, m, rfl, hr, ⟨hauthor, hstate, hparse, ?_, ?_, ?_, ?_⟩, ?_, ?_, ?_, hhead⟩
      · rw [← hcommit, hmHead, hcurHead]
      · rw [hmHead, hcurHead]
      · rw [hmBase, hcurBase]
      · rw [hmVerdict, hverdict]
      · rw [hmOcc, hcurOcc, hocc]
      · rw [hmClaim, hcurClaim]
      · rwa [hcurApproval] at hmApproval
  · intro heads hheads hall
    refine lt_of_le_of_lt ?_ hcap
    exact_mod_cast length_le_distinctHeads hheads fun head hhead =>
      mem_cycleReviews_of_reviewedUnder hnodup' hd.approved (hall head hhead)

/-! ## Removing the label -/

/-- What the reducer saw when it answered with a removal: the approval of the occurrence, found
neither removed nor replaced. -/
structure Revocation (cfg : Config) (s : Snapshot) (step : Step) (approval : Int) : Prop where
  published : publishedOccurrenceOnLog s.log step.occurrence cfg.trackerAuthor = true
  unrouted : routeFor cfg s.comments step.occurrence = none
  approved : approvalEpochAtOccurrence s.log cfg.requiredLabels step.occurrence = some approval
  changes : approvalChangesAfterEpoch s.log cfg.requiredLabels approval = some (false, 0)
  label : hasLabel s.issue.labels cfg.queueLabel = true
  removes : step.removeLabel = cfg.queueLabel
  adds : step.addLabel = if cfg.addHumanReviewLabel then humanReviewLabel else []

/-- Where a removal comes from: a verdict on the newest delivery, or an intent left earlier. -/
inductive RevocationSource (cfg : Config) (s : Snapshot) (step : Step) : Prop
  | fresh {t : Trigger} {approval : Int} (decides : Decides cfg s t step.claim approval)
      (occurrence : step.occurrence = t.occurrence)
  | resumed {m : RouteIntentMarker} (intent : oldestIntent cfg s.comments = some m)
      (occurrence : step.occurrence = m.occurrence)

/-- An intent that is resumed has no route. -/
lemma routeFor_of_mem_unroutedIntents {comments} {m : RouteIntentMarker}
    (h : m ∈ unroutedIntents cfg comments) : routeFor cfg comments m.occurrence = none := by
  obtain ⟨c, -, hc⟩ := mem_filterMap.1 h
  split at hc
  · cases hc
  split at hc
  · cases hc
  split at hc
  · cases hc
  · rename_i hunrouted
    cases hc
    simpa [routeExists] using hunrouted

/-- The removal of a verdict that was routed. -/
lemma Stops.revocation {t} {claim approval : Int} {cur : Published} {o}
    (hd : Decides cfg s t claim approval) (hcur : cur.marker.claim = claim)
    (hstops : Stops cfg s s.log (observedPR s) t cur o step) (h : step.kind = .revoke) :
    RevocationSource cfg s step ∧ ∃ approval, Revocation cfg s step approval := by
  cases hstops with
  | idle => cases h
  | intends => cases h
  | records => cases h
  | revokes hzero happroval hchanges hlabel =>
    exact ⟨.fresh (hcur ▸ hd) rfl, _, hd.published, hd.unrouted, happroval, hchanges, hlabel, rfl,
      rfl⟩

/-- Every removal has a source, and was checked against the log. -/
lemma Reduces.revocation (hr : Reduces cfg s step) (h : step.kind = .revoke) :
    RevocationSource cfg s step ∧ ∃ approval, Revocation cfg s step approval := by
  cases hr with
  | idle => cases h
  | completes => cases h
  | resumes hm hresumes =>
    cases hresumes with
    | idle => cases h
    | records => cases h
    | revokes hpublished happroval hchanges hlabel =>
      exact ⟨.resumed hm rfl, _, hpublished,
        routeFor_of_mem_unroutedIntents (mem_unroutedIntents_of_oldestIntent hm), happroval,
        hchanges, hlabel, rfl, rfl⟩
  | delivers hd hdelivers =>
    cases hdelivers with
    | idle => cases h
    | reviews => cases h
    | stops _ _ hstops => exact hstops.revocation hd rfl h
    | routes hcur hroutes =>
      cases hroutes with
      | idle => cases h
      | records => cases h
      | handsBack => cases h
      | stops hstops => exact hstops.revocation hd (reviewFor_eq_some hcur).2.2.1 h

/-- Everything a removal presupposes. -/
structure RevocationAuthorized (cfg : Config) (s : Snapshot) (step : Step) : Prop where
  removes : step.removeLabel = cfg.queueLabel
  label : hasLabel s.issue.labels step.removeLabel = true
  /-- The occurrence is a published transition on the log. -/
  published : ∃ ev ∈ s.events, ev.id = step.occurrence ∧ Publishes cfg ev
  /-- It is announced by a milestone, unless the removal was intended earlier. -/
  announced : (∃ c ∈ s.comments, Announces cfg c step.occurrence) ∨
    ¬ Unintended cfg s.comments step.occurrence
  unrouted : Unrouted cfg s.comments step.occurrence
  /-- The anchor that stood at the occurrence is the one at the end of the log, and no label of the
  set was removed since. -/
  stands : ∃ approval before ev after, Replay.At (hasId step.occurrence) s.log before ev after ∧
    standingAnchor cfg.requiredLabels (before ++ [ev]) = some approval ∧
    standingAnchor cfg.requiredLabels s.log = some approval ∧
    ∀ e ∈ after, e.type = .unlabeled → requiredLabel cfg.requiredLabels e.label = none

/-- With positive event ids, a removal has all of its authority, whether it is fresh or resumed. -/
theorem revoke_authorized (cfg : Config) (s : Snapshot) (hpos : ∀ ev ∈ s.events, 0 < ev.id)
    (h : (reduce cfg s).kind = .revoke) : RevocationAuthorized cfg s (reduce cfg s) := by
  obtain ⟨hsource, approval, hpublished, hunrouted, happroved, hchanges, hlabel, hremoves, -⟩ :=
    (reduces cfg s).revocation h
  have hstands := stands_of_approvalChangesAfterEpoch
    (fun ev hev => hpos ev (Snapshot.mem_log_iff.1 hev)) hchanges
  obtain ⟨before, ev, after, hat, hanchor⟩ := approvalEpochAtOccurrence_eq_some_iff.1 happroved
  refine ⟨hremoves, hremoves ▸ hlabel, ?_, ?_, routeFor_eq_none_iff.1 hunrouted,
    approval, before, ev, after, hat, hanchor, hstands.anchored, hstands.kept_since hat hanchor⟩
  · obtain ⟨e, he, hid, hpublishes⟩ := publishes_of_publishedOccurrenceOnLog hpublished
    exact ⟨e, Snapshot.mem_log_iff.1 he, hid, hpublishes⟩
  · cases hsource with
    | fresh hd hocc =>
      rw [hocc]
      exact .inl (latest_of_latestPublished hd.latest).1
    | resumed hm hocc =>
      obtain ⟨c, hc, hintent⟩ := mem_filterMap.1 (mem_unroutedIntents_of_oldestIntent hm)
      refine .inr fun hnone => ?_
      split at hintent
      · cases hintent
      rename_i hauthor
      split at hintent
      · cases hintent
      rename_i m hparse
      split at hintent
      · cases hintent
      obtain rfl := Option.some.inj hintent
      exact hnone c hc (by simpa using hauthor) m hparse hocc.symm

end

namespace Sample

/-- A review of a commit for the first publication. -/
def review (id : Int) (head : Text) (verdict : Verdict) (submittedAt : Time) : Review :=
  { id := id, author := txt "ben-review-bot", commitID := head, state := reviewStateCommented
    submittedAt := submittedAt
    body := reviewBody { occurrence := 1001, claim := 1000, approval := 900, head := head
                         base := commit 101, verdict := verdict } (txt "findings") }

/-- Changes were requested on the delivered commit. -/
def changesRequested : Snapshot :=
  { issue := issue, comments := [milestone 1001 40], events := log
    reviews := [review 1300 (commit 97) .changesRequested 50]
    pr := some (pullRequest (commit 97)) }

/-- The delivered commit is clean. -/
def clean : Snapshot := { changesRequested with reviews := [review 1300 (commit 97) .clean 50] }

/-- The assignment's id comes twice in the log, around a handoff, and the label is gone. -/
def repeatedAssignment : Snapshot :=
  { changesRequested with
    issue := { issue with labels := [] }
    events :=
      [{ id := 900, type := .labeled, actor := txt "a-human", label := txt "ben-queue"
         createdAt := 10 },
       { id := 1000, type := .assigned, actor := txt "ben-tracker-bot"
         assignee := txt "ben-claim-bot", createdAt := 20 },
       { id := 999, type := .unassigned, actor := txt "ben-tracker-bot"
         assignee := txt "ben-claim-bot", createdAt := 24 },
       { id := 1000, type := .assigned, actor := txt "ben-tracker-bot"
         assignee := txt "ben-claim-bot", createdAt := 26 },
       { id := 1001, type := .unlabeled, actor := txt "ben-tracker-bot"
         label := txt "ben:claimed", createdAt := 30 }] }

/-- The required label is applied again, as an entry with the id zero. -/
def reappliedAtZero : Snapshot :=
  { changesRequested with
    events := log ++ [{ id := 0, type := .labeled, actor := txt "a-human"
                        label := txt "ben-queue", createdAt := 60 }] }

/-- An intent whose milestone is not among the comments. -/
def unannounced : Snapshot := { changesRequested with comments := [intentComment], reviews := [] }

end Sample

open Review.Sample

/-- The handoff of a delivery with changes requested has its authority. -/
theorem unassign_authorized_changesRequested : (reduce config changesRequested).kind = .unassign ∧
      ∃ approval, HandoffAuthorized config changesRequested
        (reduce config changesRequested) approval := by
  have hkind : (reduce config changesRequested).kind = .unassign := by
    decide +kernel
  exact ⟨hkind, unassign_authorized config changesRequested (by decide)
    (by decide) hkind⟩

/-- An assignment id that comes twice lets a handoff through without the required label, and a
label applied again under the id zero lets one through after the approval was replaced. -/
theorem unassign_without_label : ((reduce config repeatedAssignment).kind = .unassign ∧
      ∃ label ∈ config.requiredLabels,
        hasLabel repeatedAssignment.issue.labels label = false) ∧
    (reappliedAtZero.events.map (·.id)).Nodup ∧
      (reduce config reappliedAtZero).kind = .unassign ∧
      standingAnchor config.requiredLabels reappliedAtZero.log = none := by
  refine ⟨⟨by decide +kernel, txt "ben-queue", by decide +kernel, by decide +kernel⟩,
    by decide, by decide +kernel, by decide +kernel⟩

/-- The removal for a clean delivery has its authority. -/
theorem revoke_authorized_clean : (reduce config clean).kind = .revoke ∧
      RevocationAuthorized config clean (reduce config clean) := by
  have hkind : (reduce config clean).kind = .revoke := by decide +kernel
  exact ⟨hkind, revoke_authorized config clean (by decide) hkind⟩

/-- A resumed intent removes the label for an occurrence no milestone announces. -/
theorem revoke_unannounced : (∀ ev ∈ unannounced.events, 0 < ev.id) ∧
      (unannounced.events.map (·.id)).Nodup ∧
      (reduce config unannounced).kind = .revoke ∧
      publishedMilestones config unannounced.comments = [] := by
  refine ⟨by decide +kernel, by decide +kernel, by decide +kernel, by decide +kernel⟩

end Ben.Review
