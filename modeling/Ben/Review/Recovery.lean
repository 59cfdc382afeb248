import Ben.Review.Authority

/-!
# Recognising a landed mutation

A mutation whose route marker is missing is recognised from the log: the newest delivery before it
is the one it completed, and the newest review of that delivery before it is the one it was decided
on.  Both are maxima over lists (`latestReview_spec`, `publicationBeforeMutation_spec`).
-/

namespace Ben.Review

open List

/-! ## Reviews -/

section

variable {reviews : List Published} {occurrence claim approval : Int} {upTo : Time}
  {p q : Published}

/-- The review is one of the delivery, and was there at an instant. -/
def Covers (occurrence claim approval : Int) (upTo : Time) (p : Published) : Prop :=
  p.marker.occurrence = occurrence ∧ p.marker.claim = claim ∧ p.marker.approval = approval ∧
    p.review.submittedAt ≤ upTo

instance (occurrence claim approval : Int) (upTo : Time) :
    DecidablePred (Covers occurrence claim approval upTo) := fun p =>
  inferInstanceAs (Decidable (p.marker.occurrence = occurrence ∧ p.marker.claim = claim ∧
    p.marker.approval = approval ∧ p.review.submittedAt ≤ upTo))

lemma laterReview_better : Replay.Better laterReview := by
  refine ⟨fun p => by simp [laterReview], fun p q r hpq hqr => ?_, fun p q r hpq hqr => ?_⟩
  · simp only [laterReview, Bool.or_eq_true, Bool.and_eq_true, decide_eq_true_eq, beq_iff_eq] at *
    grind
  · simp only [laterReview, Bool.or_eq_false_iff, Bool.and_eq_false_iff, decide_eq_false_iff_not,
      beq_eq_false_iff_ne] at *
    grind

lemma latestReviewForOccurrenceThrough_eq :
    latestReviewForOccurrenceThrough reviews occurrence claim approval upTo =
      Replay.best laterReview (reviews.filter (Covers occurrence claim approval upTo)) := by
  rw [latestReviewForOccurrenceThrough, Replay.best, foldl_filter]
  congr 1
  funext latest p
  by_cases hcovers : Covers occurrence claim approval upTo p
  · obtain ⟨hocc, hclaim, happroval, htime⟩ := id hcovers
    rw [if_pos (decide_eq_true hcovers), if_neg (by simp [hocc, hclaim, happroval, htime])]
    cases latest <;> rfl
  · rw [if_pos, if_neg (by simpa using hcovers)]
    simp only [Covers, not_and, not_le] at hcovers
    simp only [ne_eq, decide_not, Bool.or_eq_true, Bool.not_eq_true', decide_eq_false_iff_not,
      decide_eq_true_eq]
    tauto

/-- The newest review of a delivery: it covers the delivery, and none that does is later. -/
lemma latestReview_spec
    (h : latestReviewForOccurrenceThrough reviews occurrence claim approval upTo = some q) :
    q ∈ reviews ∧ Covers occurrence claim approval upTo q ∧
      ∀ p ∈ reviews, Covers occurrence claim approval upTo p → laterReview p q = false := by
  rw [latestReviewForOccurrenceThrough_eq] at h
  obtain ⟨hmem, hall⟩ := Replay.best_spec laterReview_better h
  rw [mem_filter, decide_eq_true_eq] at hmem
  exact ⟨hmem.1, hmem.2, fun p hp hcovers => hall p (mem_filter.2 ⟨hp, decide_eq_true hcovers⟩)⟩

/-- A delivery with a review has a newest one. -/
lemma exists_latestReview (hp : p ∈ reviews) (hcovers : Covers occurrence claim approval upTo p) :
    ∃ q, latestReviewForOccurrenceThrough reviews occurrence claim approval upTo = some q := by
  rw [← Option.isSome_iff_exists, latestReviewForOccurrenceThrough_eq]
  exact Replay.best_isSome (mem_filter.2 ⟨hp, decide_eq_true hcovers⟩)

end

/-! ## Deliveries before a mutation -/

variable [Library] {cfg : Config} {triggers : List Trigger} {events : List Event}

/-- The delivery was announced before an entry of the log, and its occurrence stands before it. -/
def candidate (positions : List (Int × Nat)) (mutation : Event) (place : Nat) (t : Trigger) :
    Option (Trigger × Nat) :=
  (positionOf positions t.occurrence).bind fun position =>
    if place ≤ position || mutation.createdAt < t.at_ then none else some (t, position)

variable {positions : List (Int × Nat)} {place i : Nat} {trigger t : Trigger} {mutation : Event}

section

omit [Library]

lemma publicationBeforeMutation_eq (positions : List (Int × Nat)) (mutation) (place : Nat) :
    publicationBeforeMutation triggers positions mutation place =
      (Replay.best (fun a b : Trigger × Nat => b.2 < a.2)
        (triggers.filterMap (candidate positions mutation place))).map (·.1) := by
  rw [publicationBeforeMutation, Replay.best, foldl_filterMap]
  congr 2
  funext latest t
  unfold candidate
  cases positionOf positions t.occurrence with
  | none => rfl
  | some position =>
    rw [Option.bind_some]
    dsimp only
    split
    · rfl
    · cases latest with
      | none => rfl
      | some l => simp [Replay.pick]

lemma later_better : Replay.Better fun a b : Trigger × Nat => decide (b.2 < a.2) := by
  refine ⟨by simp, fun a b c hab hbc => ?_, fun a b c hab hbc => ?_⟩
  · simp only [decide_eq_true_eq] at *
    omega
  · simp only [decide_eq_false_iff_not] at *
    omega

lemma candidate_eq_some_iff {c : Trigger × Nat} :
    candidate positions mutation place t = some c ↔ c.1 = t ∧
      positionOf positions t.occurrence = some c.2 ∧ c.2 < place ∧
        t.at_ ≤ mutation.createdAt := by
  unfold candidate
  cases positionOf positions t.occurrence with
  | none => simp
  | some position =>
    rw [Option.bind_some]
    split
    · rename_i hlate
      simp only [Bool.or_eq_true, decide_eq_true_eq] at hlate
      constructor
      · intro h
        cases h
      · rintro ⟨-, hposition, hplace, hat⟩
        cases hposition
        obtain hlate | hlate := hlate
        · omega
        · exact absurd hat (not_le.2 hlate)
    · rename_i htime
      simp only [Bool.or_eq_true, decide_eq_true_eq, not_or, not_le, not_lt] at htime
      constructor
      · intro h
        cases h
        exact ⟨rfl, rfl, htime.1, htime.2⟩
      · rintro ⟨rfl, hposition, -, -⟩
        cases hposition
        rfl

/-- The delivery a mutation completed was announced before it, and of those it is the last on the
log. -/
lemma publicationBeforeMutation_spec
    (h : publicationBeforeMutation triggers positions mutation place = some t) :
    t ∈ triggers ∧ t.at_ ≤ mutation.createdAt ∧
      ∃ i, positionOf positions t.occurrence = some i ∧ i < place ∧
        ∀ u ∈ triggers, ∀ j, positionOf positions u.occurrence = some j → j < place →
          u.at_ ≤ mutation.createdAt → j ≤ i := by
  rw [publicationBeforeMutation_eq, Option.map_eq_some_iff] at h
  obtain ⟨c, hbest, rfl⟩ := h
  obtain ⟨hmem, hall⟩ := Replay.best_spec later_better hbest
  obtain ⟨u, hu, hc⟩ := mem_filterMap.1 hmem
  obtain ⟨rfl, hposition, hplace, hat⟩ := candidate_eq_some_iff.1 hc
  refine ⟨hu, hat, c.2, hposition, hplace, fun v hv j hj hjplace hvat => ?_⟩
  have hnot := hall (v, j) (mem_filterMap.2
    ⟨v, hv, candidate_eq_some_iff.2 ⟨rfl, hj, hjplace, hvat⟩⟩)
  exact not_lt.1 (of_decide_eq_false hnot)

lemma exists_publicationBeforeMutation (ht : t ∈ triggers)
    (hposition : positionOf positions t.occurrence = some i) (hplace : i < place)
    (hat : t.at_ ≤ mutation.createdAt) :
    ∃ u, publicationBeforeMutation triggers positions mutation place = some u := by
  have hcandidate : candidate positions mutation place t = some (t, i) :=
    candidate_eq_some_iff.2 ⟨rfl, hposition, hplace, hat⟩
  rw [publicationBeforeMutation_eq, ← Option.isSome_iff_exists, Option.isSome_map]
  exact Replay.best_isSome (mem_filterMap.2 ⟨t, ht, hcandidate⟩)

end

/-! ## Places on the log -/

lemma mem_publishedPositions_iff {n : Int} :
    (n, i) ∈ publishedPositions cfg triggers events ↔
      ∃ ev, events[i]? = some ev ∧ ev.id = n ∧ (∃ t ∈ triggers, t.occurrence = n) ∧
        Publishes cfg ev := by
  rw [publishedPositions, mem_filterMap]
  constructor
  · rintro ⟨⟨ev, j⟩, hmem, h⟩
    rw [mem_zipIdx_iff_getElem?] at hmem
    dsimp only at h hmem
    split at h
    · cases h
    · rename_i hnot
      cases h
      simp only [Bool.or_eq_true, Bool.not_eq_true', decide_eq_true_eq, not_or, not_not,
        Bool.not_eq_false, any_eq_true, beq_iff_eq] at hnot
      exact ⟨ev, hmem, rfl, hnot.1.1.1, hnot.1.1.2, hnot.1.2, hnot.2⟩
  · rintro ⟨ev, hev, rfl, ht, htype, hactor, hlabel⟩
    refine ⟨(ev, i), mem_zipIdx_iff_getElem?.2 hev, ?_⟩
    obtain ⟨t, ht, hocc⟩ := ht
    have hany : (triggers.any fun t => t.occurrence == ev.id) :=
      any_eq_true.2 ⟨t, ht, by simpa using hocc⟩
    have hstate : (eqFold ev.label (txt "ben:claimed") || eqFold ev.label (txt "ben:running")) =
        true := by simpa using hlabel
    simp [hany, htype, hactor, hstate]

/-- With distinct ids, an occurrence has its one place. -/
lemma positionOf_eq_some_iff (hnodup : (events.map (·.id)).Nodup) {n : Int} :
    positionOf (publishedPositions cfg triggers events) n = some i ↔
      (n, i) ∈ publishedPositions cfg triggers events := by
  have hof {j : Nat} (h : positionOf (publishedPositions cfg triggers events) n = some j) :
      (n, j) ∈ publishedPositions cfg triggers events := by
    obtain ⟨l1, l2, heq, -⟩ := lookup_eq_some_iff.1 h
    rw [← mem_reverse, heq]
    exact mem_append_right _ (.head _)
  refine ⟨hof, fun hmem => ?_⟩
  cases hlookup : positionOf (publishedPositions cfg triggers events) n with
  | none =>
    have hne := lookup_eq_none_iff.1 hlookup (n, i) (mem_reverse.2 hmem)
    simp at hne
  | some j =>
    obtain ⟨ev, hev, hid, -⟩ := mem_publishedPositions_iff.1 (hof hlookup)
    obtain ⟨ev', hev', hid', -⟩ := mem_publishedPositions_iff.1 hmem
    have hmap : (events.map (·.id))[j]? = (events.map (·.id))[i]? := by
      rw [List.getElem?_map, List.getElem?_map, hev, hev', Option.map_some, Option.map_some, hid,
        hid']
    rw [List.nodup_iff_injective_getElem] at hnodup
    obtain ⟨hj, -⟩ := List.getElem?_eq_some_iff.1 hev
    obtain ⟨hi, -⟩ := List.getElem?_eq_some_iff.1 hev'
    have hj' : j < (events.map (·.id)).length := by simpa using hj
    have hi' : i < (events.map (·.id)).length := by simpa using hi
    rw [getElem?_eq_getElem hj', getElem?_eq_getElem hi', Option.some.injEq] at hmap
    have := @hnodup ⟨j, hj'⟩ ⟨i, hi'⟩ hmap
    rw [Fin.mk.injEq] at this
    rw [this]

/-! ## Completed routes -/

/-- The controller removing the queue label. -/
def isStop (cfg : Config) (ev : Event) : Bool :=
  ev.type == .unlabeled && eqFold ev.actor cfg.controller && eqFold ev.label cfg.queueLabel

variable {reviews : List Published} {done : CompletedRoute}

/-- What is recognised in an entry of the log: the newest delivery before it, and the newest review
of that delivery. -/
lemma completedBy_spec {claim approval : Int}
    {ev : Event}
    (h : completedBy cfg triggers positions events reviews trigger claim approval ev place =
      some done) :
    done.trigger = trigger ∧ done.claim = claim ∧
      (∃ u, publicationBeforeMutation triggers positions ev place = some u ∧
        u.occurrence = trigger.occurrence) ∧
      ∃ prior, latestReviewForOccurrenceThrough reviews trigger.occurrence claim approval
          ev.createdAt = some prior ∧ done.head = prior.marker.head ∧
        (isStop cfg ev ∨ unassigns cfg.principal ev ∧ done.outcome = .revise) := by
  unfold completedBy at h
  dsimp only at h
  split at h
  · cases h
  rename_i hmutation
  split at h
  · cases h
  rename_i hpublication
  rw [not_not, Option.map_eq_some_iff] at hpublication
  split at h
  · cases h
  rename_i prior hprior
  split at h
  · rename_i hstop
    cases h
    exact ⟨rfl, rfl, hpublication, prior, hprior, rfl, .inl hstop⟩
  rename_i hstop
  split at h
  · split at h
    · cases h
    · cases h
      refine ⟨rfl, rfl, hpublication, prior, hprior, rfl, .inr ⟨?_, rfl⟩⟩
      simp only [eq_false_of_ne_true hstop, Bool.not_false, Bool.true_and] at hmutation
      simpa [unassigns] using hmutation
  · cases h

/-- A handoff is recognised if the newest review of its delivery requested changes within the
cap. -/
lemma completedBy_handoff {u : Trigger}
    {claim approval : Int} {ev : Event} {prior : Published}
    (hunassigns : unassigns cfg.principal ev)
    (hpublication : publicationBeforeMutation triggers positions ev place = some u)
    (hu : u.occurrence = trigger.occurrence)
    (hprior : latestReviewForOccurrenceThrough reviews trigger.occurrence claim approval
      ev.createdAt = some prior)
    (hverdict : prior.marker.verdict = .changesRequested)
    (hcap : (distinctHeads (cycleReviews cfg events reviews trigger.occurrence approval)).length <
      cfg.roundCap) :
    (completedBy cfg triggers positions events reviews trigger claim approval ev place).isSome =
      true := by
  have htype : ev.type = .unassigned := by
    simp only [unassigns, Bool.and_eq_true, beq_iff_eq] at hunassigns
    exact hunassigns.1
  have hrevise : (outcomeFor cfg (through (cycleReviews cfg events reviews trigger.occurrence
      approval) ev.createdAt) prior.marker).outcome = .revise := by
    have hle := length_le_distinctHeads (nodup_readHeads nodup_nil (through (cycleReviews cfg
      events reviews trigger.occurrence approval) ev.createdAt)) fun head hhead => by
        obtain ⟨p, hp, hphead⟩ := mem_distinctHeads_iff.1 hhead
        exact ⟨p, (mem_filter.1 hp).1, hphead⟩
    rw [outcomeFor, if_neg (by simp [hverdict])]
    dsimp only
    rw [if_neg]
    rw [distinctHeads]
    omega
  unfold completedBy
  dsimp only
  rw [if_neg, if_neg, hprior]
  · dsimp only
    rw [if_neg (by simp [htype]), if_pos hverdict]
    rw [cycleReviews] at hrevise
    rw [if_neg (by simp [hrevise])]
    rfl
  · simp [hpublication, hu]
  · simp only [unassigns] at hunassigns
    simp [hunassigns]

lemma completed_spec {comments}
    (h : completedUnroutedRoute cfg comments triggers events reviews = some done) :
    done.trigger ∈ triggers ∧ routeFor cfg comments done.trigger.occurrence = none ∧
      claimEpochAtOccurrence events cfg.principal done.trigger.occurrence = (done.claim, true) ∧
      ∃ approval, approvalEpochAtOccurrence events cfg.requiredLabels done.trigger.occurrence =
          some approval ∧
        ∃ (ev : Event) (place : Nat), events[place]? = some ev ∧
          completedBy cfg triggers (publishedPositions cfg triggers events) events reviews
            done.trigger done.claim approval ev place = some done := by
  unfold completedUnroutedRoute at h
  obtain ⟨trigger, htrigger, h⟩ := exists_of_findSome?_eq_some h
  split at h
  · cases h
  rename_i hroute
  split at h
  · cases h
  dsimp only at h
  split at h
  · cases h
  rename_i hclaim
  split at h
  · cases h
  rename_i approval happroval
  obtain ⟨⟨ev, place⟩, hmem, h⟩ := exists_of_findSome?_eq_some h
  rw [mem_zipIdx_iff_getElem?] at hmem
  obtain ⟨rfl, hdone, -⟩ := completedBy_spec h
  rw [hdone]
  refine ⟨htrigger, by simpa [routeExists] using hroute, Prod.ext rfl (by simpa using hclaim),
    approval, happroval, ev, place, hmem, h⟩

/-- One recognised entry is enough. -/
lemma completed_isSome {comments} {claim approval : Int} {ev}
    (htrigger : trigger ∈ triggers) (hroute : routeFor cfg comments trigger.occurrence = none)
    (hposition : positionOf (publishedPositions cfg triggers events) trigger.occurrence = some i)
    (hclaim : claimEpochAtOccurrence events cfg.principal trigger.occurrence = (claim, true))
    (happroval : approvalEpochAtOccurrence events cfg.requiredLabels trigger.occurrence =
      some approval) (hev : events[place]? = some ev)
    (h : (completedBy cfg triggers (publishedPositions cfg triggers events) events reviews trigger
      claim approval ev place).isSome) :
    (completedUnroutedRoute cfg comments triggers events reviews).isSome := by
  unfold completedUnroutedRoute
  refine findSome?_isSome_iff.2 ⟨trigger, htrigger, ?_⟩
  rw [if_neg (by simp [routeExists, hroute]), if_neg (by simp [hposition]), hclaim]
  dsimp only
  rw [if_neg (by simp), happroval]
  exact findSome?_isSome_iff.2 ⟨(ev, place), mem_zipIdx_iff_getElem?.2 hev, h⟩

end Ben.Review
