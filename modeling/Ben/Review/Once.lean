import Ben.Review.Rounds

/-!
# One mutation for each occurrence

A handoff whose route was not recorded is recognised on the next pass from the newest review of its
delivery.  As long as a handoff is decided on that newest review, the reducer does not get to the
delivery a second time (`Landed.lt_of_decides`), so every occurrence is mutated at most once
(`acts_once`) and what is recorded for it is what was decided (`route_as_decided`).  When the pull
request goes back to an earlier reviewed commit the handoff is decided on an older review, and both
fail (`acts_twice`, `route_not_as_decided`).
-/

namespace Ben.Review

open List

section

variable [Library] {cfg : Config} {f f' : Forge} {w w' : World} {a : Step}

/-- Where the pull request is at a subject on which changes were requested for the newest delivery,
that review is the newest one of the delivery. -/
def Forge.settled (cfg : Config) (f : Forge) : Bool :=
  match latestPublished cfg f.comments with
  | none => true
  | some t =>
    match parsePRURL t.prURL with
    | .error _ => true
    | .ok (_, _, number) =>
      match f.pulls number with
      | none => true
      | some pr =>
        let all := controllerReviews cfg (sortEvents f.events) (f.reviewsOf number) 0
        all.all fun p =>
          !(p.marker.occurrence == t.occurrence && p.marker.verdict == .changesRequested &&
            p.marker.head == pr.head && p.marker.base == pr.baseSHA) ||
          all.all fun q => q.marker.occurrence != t.occurrence || q == p || laterReview p q

/-- The controller acts only while the subject's review is the newest one. -/
def Settled (cfg : Config) (w : World) (input : Input) : Prop :=
  input.acts = true → w.forge.settled cfg = true

instance (cfg : Config) (w : World) (input : Input) : Decidable (Settled cfg w input) :=
  inferInstanceAs (Decidable (input.acts = true → w.forge.settled cfg = true))

/-! ## Handoffs that have landed -/

/-- What a handoff was decided on, and where it stands on the log. -/
structure Landing where
  trigger : Trigger
  approval : Int
  number : Int
  review : Published
  before : List Event
  entry : Event

/-- A handoff that has landed: what it was decided on is still there, and nothing that was written
since belongs to its occurrence. -/
structure Landed (cfg : Config) (f : Forge) (a : Step) (l : Landing) : Prop where
  occurrence : a.occurrence = l.trigger.occurrence
  delivered : l.trigger ∈ publishedMilestones cfg f.comments
  links : l.trigger.Links l.number
  log : ∃ after, f.events = l.before ++ l.entry :: after
  entry : unassigns cfg.principal l.entry = true
  announced : l.trigger.at_ ≤ l.entry.createdAt
  published : ∃ ev ∈ l.before, ev.id = l.trigger.occurrence ∧ Publishes cfg ev
  claimed : claimEpochAtOccurrence l.before cfg.principal l.trigger.occurrence = (a.claim, true)
  standing : claimEpoch l.before cfg.principal = a.claim
  approved : approvalEpochAtOccurrence l.before cfg.requiredLabels l.trigger.occurrence =
    some l.approval
  stands : Stands cfg.requiredLabels l.before l.approval
  review : l.review ∈ f.verdicts cfg l.number
  covers : Covers l.trigger.occurrence a.claim l.approval l.entry.createdAt l.review
  head : l.review.marker.head = a.head
  verdict : l.review.marker.verdict = .changesRequested
  newest : ∀ number, ∀ q ∈ f.verdicts cfg number, q.marker.occurrence = l.trigger.occurrence →
    q = l.review ∨ laterReview l.review q = true
  room : latestPublished cfg f.comments = some l.trigger →
    (distinctHeads (cycleReviews cfg f.events (f.verdicts cfg l.number) l.trigger.occurrence
      l.approval)).length < cfg.roundCap
  intents : ∀ m ∈ unroutedIntents cfg f.comments, l.trigger.occurrence < m.occurrence
  stops : ∀ e ∈ f.events, l.entry.id < e.id → isStop cfg e = true →
    ∃ t ∈ publishedMilestones cfg f.comments, l.trigger.occurrence < t.occurrence ∧
      t.at_ ≤ e.createdAt ∧ ∃ ev ∈ f.events, ev.id = t.occurrence ∧ Publishes cfg ev ∧ ev.id < e.id

/-! ## Places and ids -/

section

omit [Library]

/-- On an ordered log the later place has the greater id. -/
lemma Forge.Ordered.id_lt_of_lt (hord : f.Ordered) {i j : Nat} {x y : Event}
    (hx : f.events[i]? = some x) (hy : f.events[j]? = some y) (h : i < j) : x.id < y.id := by
  obtain ⟨hi, rfl⟩ := List.getElem?_eq_some_iff.1 hx
  obtain ⟨hj, rfl⟩ := List.getElem?_eq_some_iff.1 hy
  exact pairwise_iff_getElem.1 hord.ids i j hi hj h

lemma Forge.Ordered.lt_of_id_lt (hord : f.Ordered) {i j : Nat} {x y : Event}
    (hx : f.events[i]? = some x) (hy : f.events[j]? = some y) (h : x.id < y.id) : i < j := by
  rcases Nat.lt_trichotomy i j with hlt | rfl | hgt
  · exact hlt
  · rw [Option.some.inj (hx.symm.trans hy)] at h
    exact absurd h (lt_irrefl _)
  · exact absurd h (hord.id_lt_of_lt hy hx hgt).asymm

/-- What has a greater id than an entry comes after it. -/
lemma mem_after_of_id_lt {events before after : List Event} {x e : Event}
    (hids : events.Pairwise fun a b => a.id < b.id) (heq : events = before ++ x :: after)
    (he : e ∈ events) (hlt : x.id < e.id) : e ∈ after := by
  rw [heq] at hids he
  obtain he | he := mem_append.1 he
  · exact absurd hlt ((pairwise_append.1 hids).2.2 e he x (.head _)).asymm
  · obtain rfl | he := mem_cons.1 he
    · exact absurd hlt (lt_irrefl _)
    · exact he

end

variable {t : Trigger} {approval number : Int} {ev e : Event}

/-- An announced occurrence on the log has its place. -/
lemma Forge.Ordered.positionOf (hord : f.Ordered) (ht : t ∈ publishedMilestones cfg f.comments)
    (hev : ev ∈ f.events) (hid : ev.id = t.occurrence) (hpublishes : Publishes cfg ev) :
    ∃ i, Review.positionOf (publishedPositions cfg (publishedMilestones cfg f.comments) f.events)
      t.occurrence = some i ∧ f.events[i]? = some ev := by
  obtain ⟨i, hi⟩ := mem_iff_getElem?.1 hev
  exact ⟨i, (positionOf_eq_some_iff hord.nodup).2
    (mem_publishedPositions_iff.2 ⟨ev, hi, hid, ⟨t, ht, rfl⟩, hpublishes⟩), hi⟩

/-- The delivery a mutation completed, by ids: it is on the log before the mutation, and no other
that was announced by then is after it. -/
lemma Forge.Ordered.publication_spec (hord : f.Ordered) {mutation : Event} {place : Nat}
    (hplace : f.events[place]? = some mutation)
    (h : publicationBeforeMutation (publishedMilestones cfg f.comments)
      (publishedPositions cfg (publishedMilestones cfg f.comments) f.events) mutation place =
        some t) :
    t ∈ publishedMilestones cfg f.comments ∧ t.occurrence < mutation.id ∧
      ∀ u ∈ publishedMilestones cfg f.comments, ∀ ev ∈ f.events, ev.id = u.occurrence →
        Publishes cfg ev → u.occurrence < mutation.id → u.at_ ≤ mutation.createdAt →
          u.occurrence ≤ t.occurrence := by
  obtain ⟨ht, -, i, hi, hlt, hlast⟩ := publicationBeforeMutation_spec h
  obtain ⟨ev, hev, hid, -, -⟩ :=
    mem_publishedPositions_iff.1 ((positionOf_eq_some_iff hord.nodup).1 hi)
  refine ⟨ht, hid ▸ hord.id_lt_of_lt hev hplace hlt,
    fun u hu x hx hxid hpublishes hbefore hat => ?_⟩
  obtain ⟨j, hj, hxj⟩ := hord.positionOf hu hx hxid hpublishes
  have hji := hlast u hu j hj (hord.lt_of_id_lt hxj hplace (hxid ▸ hbefore)) hat
  rcases Nat.lt_or_eq_of_le hji with hlt' | rfl
  · rw [← hxid, ← hid]
    exact (hord.id_lt_of_lt hxj hev hlt').le
  · rw [← hxid, ← hid, Option.some.inj (hxj.symm.trans hev)]

/-! ## Recognition -/

variable {l : Landing}

lemma Landed.claimed_now (hord : f.Ordered) (h : Landed cfg f a l) :
    claimEpochAtOccurrence f.events cfg.principal l.trigger.occurrence = (a.claim, true) := by
  obtain ⟨after, hlog⟩ := h.log
  have hids := hord.ids
  rw [hlog] at hids ⊢
  exact claimEpochAtOccurrence_append hids h.claimed

lemma Landed.approved_now (hord : f.Ordered) (h : Landed cfg f a l) :
    approvalEpochAtOccurrence f.events cfg.requiredLabels l.trigger.occurrence =
      some l.approval := by
  obtain ⟨after, hlog⟩ := h.log
  have hids := hord.ids
  rw [hlog] at hids ⊢
  exact approvalEpochAtOccurrence_append hids h.approved

lemma Landed.entry_at (h : Landed cfg f a l) : f.events[l.before.length]? = some l.entry := by
  obtain ⟨after, hlog⟩ := h.log
  rw [hlog]
  simp

lemma Landed.mem_before (h : Landed cfg f a l) {ev} (hev : ev ∈ l.before) : ev ∈ f.events := by
  obtain ⟨after, hlog⟩ := h.log
  rw [hlog]
  exact mem_append_left _ hev

/-- Entries before the handoff have lesser ids. -/
lemma Landed.lt_entry (hord : f.Ordered) (h : Landed cfg f a l) (hev : ev ∈ l.before) :
    ev.id < l.entry.id := by
  obtain ⟨after, hlog⟩ := h.log
  have hids := hord.ids
  rw [hlog] at hids
  exact (pairwise_append.1 hids).2.2 ev hev l.entry (.head _)

/-- The newest review of the delivery, whenever one is looked for from the handoff on, is the one
the handoff was decided on. -/
lemma Landed.eq_review (h : Landed cfg f a l) {upTo : Time} (hupTo : l.entry.createdAt ≤ upTo)
    {prior} (hprior : latestReviewForOccurrenceThrough (f.verdicts cfg l.number)
      l.trigger.occurrence a.claim l.approval upTo = some prior) : prior = l.review := by
  obtain ⟨hmem, hcovers, hlast⟩ := latestReview_spec hprior
  obtain hsame | hlater := h.newest _ prior hmem hcovers.1
  · exact hsame
  · obtain ⟨hocc, hclaim, happroval, htime⟩ := h.covers
    have hnot := hlast l.review h.review ⟨hocc, hclaim, happroval, htime.trans hupTo⟩
    rw [hlater] at hnot
    cases hnot

/-- While its delivery is the newest and has no route, a handoff is recognised. -/
lemma Landed.recognised (hord : f.Ordered) (h : Landed cfg f a l)
    (hlatest : latestPublished cfg f.comments = some l.trigger)
    (hroute : routeFor cfg f.comments l.trigger.occurrence = none) :
    (completedUnroutedRoute cfg f.comments (publishedMilestones cfg f.comments) f.events
      (f.verdicts cfg l.number)).isSome := by
  obtain ⟨ev, hev, hid, hpublishes⟩ := h.published
  obtain ⟨i, hposition, hi⟩ := hord.positionOf h.delivered (h.mem_before hev) hid hpublishes
  have hplace : i < l.before.length := hord.lt_of_id_lt hi h.entry_at (h.lt_entry hord hev)
  obtain ⟨u, hu⟩ := exists_publicationBeforeMutation h.delivered hposition hplace h.announced
  -- no delivery is newer, and this one was announced before the handoff
  have hocc : u.occurrence = l.trigger.occurrence := by
    obtain ⟨humem, -, hlast⟩ := hord.publication_spec h.entry_at hu
    refine le_antisymm ((latestPublished_eq_some_iff.1 hlatest).2 u humem) ?_
    exact hlast _ h.delivered ev (h.mem_before hev) hid hpublishes (hid ▸ h.lt_entry hord hev)
      h.announced
  obtain ⟨prior, hprior⟩ := exists_latestReview h.review h.covers
  have hreview := h.eq_review le_rfl hprior
  exact completed_isSome h.delivered hroute hposition (h.claimed_now hord) (h.approved_now hord)
    h.entry_at (completedBy_handoff h.entry hu hocc hprior (hreview ▸ h.verdict) (h.room hlatest))

/-- What is decided on is the newest delivery of the forge. -/
lemma Decides.newest {claim : Int} (hd : Decides cfg (f.observe cfg) t claim approval) :
    latestPublished cfg f.comments = some t := by
  rw [← hd.latest, Forge.observe_comments]

/-- The reducer only decides on deliveries newer than that of a handoff. -/
lemma Landed.lt_of_decides (hord : f.Ordered) (h : Landed cfg f a l)
    {claim : Int} (hd : Decides cfg (f.observe cfg) t claim approval) :
    l.trigger.occurrence < t.occurrence := by
  have hlatest := hd.newest
  have hroute := hd.unrouted
  have hcaughtUp := hd.caughtUp
  rw [Forge.observe_comments] at hroute hcaughtUp
  obtain ⟨ht, hgreatest⟩ := latestPublished_eq_some_iff.1 hlatest
  refine lt_of_le_of_ne (hgreatest _ h.delivered) fun hocc => ?_
  obtain rfl := eq_of_mem_publishedMilestones ht h.delivered hocc.symm
  obtain ⟨number, pr, hlinks, -, -, -, hverdicts, -⟩ := hd.subject_eq hord
  obtain rfl := h.links.unique hlinks
  have hsome := h.recognised hord hlatest hroute
  rw [hverdicts, hord.log_eq] at hcaughtUp
  rw [hcaughtUp] at hsome
  cases hsome

/-! ## What is written later -/

section

variable {events : List Event} {comments : List Comment} {reviews : List (Int × Review)}

section

variable (hext : f.Extends f' events comments reviews)

include hext

lemma Forge.Extends.verdicts_mono (hord' : f'.Ordered)
    (hown : f.Own cfg) (hown' : f'.Own cfg) {q} (hq : q ∈ f.verdicts cfg number) :
    q ∈ f'.verdicts cfg number := by
  obtain ⟨r, m, hmem, hauthor, hposted, rfl⟩ := hown.mem_verdicts_iff.1 hq
  exact hown'.mem_verdicts_iff.2
    ⟨r, m, hext.reviews ▸ mem_append_left _ hmem, hauthor, hposted.mono hext hord', rfl⟩

/-- A verdict was there before, or is one of the new reviews. -/
lemma Forge.Extends.verdicts_cases (hown : f.Own cfg)
    (hown' : f'.Own cfg) {q : Published} (hq : q ∈ f'.verdicts cfg number) :
    q ∈ f.verdicts cfg number ∨ ∃ p ∈ reviews, eqFold p.2.author cfg.controller ∧
      parseReviewMarker p.2.body = .ok q.marker := by
  obtain ⟨r, m, hmem, hauthor, hposted, rfl⟩ := hown'.mem_verdicts_iff.1 hq
  rw [hext.reviews] at hmem
  obtain hmem | hmem := mem_append.1 hmem
  · obtain ⟨m', hposted'⟩ := hown _ hmem hauthor
    cases hposted.parse.symm.trans hposted'.parse
    exact .inl (hown.mem_verdicts_iff.2 ⟨r, m, hmem, hauthor, hposted', rfl⟩)
  · exact .inr ⟨_, hmem, hauthor, hposted.parse⟩

/-- The start of an approval cycle does not move. -/
lemma Forge.Extends.cycleStart (hord' : f'.Ordered) {n : Int}
    (happroved : approvalEpochAtOccurrence f.events cfg.requiredLabels n = some approval) :
    cycleStartAtOccurrence cfg f'.events n = cycleStartAtOccurrence cfg f.events n := by
  obtain ⟨before, ev, after, hat, -⟩ := approvalEpochAtOccurrence_eq_some_iff.1 happroved
  rw [hext.events]
  refine cycleStartAtOccurrence_append_of_ne (fun e he => ?_) happroved
  rw [← hasId_eq_true_iff.1 hat.pass]
  exact ((pairwise_append.1 (hext.ids hord')).2.2 ev hat.mem e he).ne'

lemma Forge.Extends.latest {t}
    (ht : t ∈ publishedMilestones cfg f.comments) (h : latestPublished cfg f'.comments = some t) :
    latestPublished cfg f.comments = some t :=
  latestPublished_eq_some_iff.2 ⟨ht, fun _ hu =>
    (latestPublished_eq_some_iff.1 h).2 _ (hext.mem_milestones hu)⟩

end

/-- A landed handoff stays so under whatever does not belong to its occurrence. -/
lemma Landed.mono (hord : f.Ordered) (hord' : f'.Ordered) (hown : f.Own cfg) (hown' : f'.Own cfg)
    (h : Landed cfg f a l) (hext : f.Extends f' events comments reviews)
    (hreviews : ∀ p ∈ reviews, eqFold p.2.author cfg.controller →
      (∀ m, parseReviewMarker p.2.body = .ok m → m.occurrence ≠ l.trigger.occurrence) ∧
        latestPublished cfg f.comments ≠ some l.trigger)
    (hintents : ∀ c ∈ comments, eqFold c.author cfg.controller →
      ∀ m, parseRouteIntentMarker c.body = .ok m → l.trigger.occurrence < m.occurrence)
    (hstops : ∀ e ∈ events, isStop cfg e →
      ∃ t ∈ publishedMilestones cfg f.comments, l.trigger.occurrence < t.occurrence ∧
        t.at_ ≤ e.createdAt ∧ ∃ ev ∈ f.events, ev.id = t.occurrence ∧ Publishes cfg ev ∧
          ev.id < e.id) : Landed cfg f' a l := by
  obtain ⟨after, hlog⟩ := h.log
  have hold {ev : Event} (hev : ev ∈ f.events) : ev ∈ f'.events :=
    hext.events ▸ mem_append_left _ hev
  refine { h with
    delivered := hext.mem_milestones h.delivered
    log := ⟨after ++ events, by rw [hext.events, hlog, append_assoc, cons_append]⟩
    review := hext.verdicts_mono hord' hown hown' h.review
    newest := fun number q hq hocc => ?_
    room := fun hlatest => ?_
    intents := fun m hm => ?_
    stops := fun e he hlt hstop => ?_ }
  · obtain hq | ⟨p, hp, hauthor, hparse⟩ := hext.verdicts_cases hown hown' hq
    · exact h.newest number q hq hocc
    · exact absurd hocc ((hreviews p hp hauthor).1 q.marker hparse)
  · have hlatest' := hext.latest h.delivered hlatest
    refine lt_of_le_of_lt ?_ (h.room hlatest')
    exact_mod_cast length_le_distinctHeads (nodup_readHeads nodup_nil _) fun head hhead => by
      obtain ⟨p, hp, rfl⟩ := mem_distinctHeads_iff.1 hhead
      simp only [cycleReviews, forApproval, since, mem_filter] at hp ⊢
      rw [hext.cycleStart hord' (h.approved_now hord)] at hp
      obtain hold | ⟨x, hx, hauthor, -⟩ := hext.verdicts_cases hown hown' hp.1.1
      · exact ⟨p, ⟨⟨hold, hp.1.2⟩, hp.2⟩, rfl⟩
      · exact absurd hlatest' (hreviews x hx hauthor).2
  · rw [hext.comments] at hm
    obtain hm | ⟨c, hc, hauthor, hparse⟩ := mem_unroutedIntents_append hm
    · exact h.intents m hm
    · exact hintents c hc hauthor m hparse
  · rw [hext.events] at he
    have hfound : ∃ t ∈ publishedMilestones cfg f.comments, l.trigger.occurrence < t.occurrence ∧
        t.at_ ≤ e.createdAt ∧ ∃ ev ∈ f.events, ev.id = t.occurrence ∧ Publishes cfg ev ∧
          ev.id < e.id := by
      obtain he | he := mem_append.1 he
      · exact h.stops e he hlt hstop
      · exact hstops e he hstop
    obtain ⟨t, ht, hocc, hat, ev, hev, hrest⟩ := hfound
    exact ⟨t, hext.mem_milestones ht, hocc, hat, ev, hold hev, hrest⟩

end

/-! ## Intents and removals -/

/-- Every intent of the controller is for a delivery. -/
def Forge.Announced (cfg : Config) (f : Forge) : Prop :=
  ∀ c ∈ f.comments, eqFold c.author cfg.controller = true →
    ∀ m, parseRouteIntentMarker c.body = .ok m →
      ∃ t ∈ publishedMilestones cfg f.comments, t.occurrence = m.occurrence

/-- A removal that has landed: a label of the approval it was decided under was removed after the
entry that anchors the approval. -/
def Revoked (cfg : Config) (f : Forge) (a : Step) : Prop :=
  ∃ approval, approvalEpochAtOccurrence f.events cfg.requiredLabels a.occurrence = some approval ∧
    ∃ e ∈ f.events, approval < e.id ∧ e.type = .unlabeled ∧
      (requiredLabel cfg.requiredLabels e.label).isSome = true

/-- The approval of an occurrence whose removal has landed does not stand any more. -/
lemma Revoked.not_stands (hord : f.Ordered) (h : Revoked cfg f a)
    (happroved : approvalEpochAtOccurrence f.events cfg.requiredLabels a.occurrence =
      some approval) : ¬ Stands cfg.requiredLabels f.events approval := by
  obtain ⟨approval', happroved', e, he, hlt, htype, hlabel⟩ := h
  cases happroved.symm.trans happroved'
  intro hstands
  obtain ⟨before, ev, after, hat, hkept⟩ := hstands.kept
  have hafter := mem_after_of_id_lt hord.ids hat.eq he (hasId_eq_true_iff.1 hat.pass ▸ hlt)
  rw [hkept e hafter htype] at hlabel
  cases hlabel

lemma Revoked.mono {events comments} {reviews : List (Int × Review)} (hord' : f'.Ordered)
    (hext : f.Extends f' events comments reviews) (h : Revoked cfg f a) :
    Revoked cfg f' a := by
  obtain ⟨approval, happroved, e, he, hrest⟩ := h
  refine ⟨approval, ?_, e, hext.events ▸ mem_append_left _ he, hrest⟩
  rw [hext.events]
  exact approvalEpochAtOccurrence_append (hext.ids hord') happroved

lemma stands_of_changes (hord : f.Ordered)
    (h : approvalChangesAfterEpoch (f.observe cfg).log cfg.requiredLabels approval =
      some (false, 0)) : Stands cfg.requiredLabels f.events approval := by
  rw [hord.log_eq] at h
  exact stands_of_approvalChangesAfterEpoch (fun ev hev => (hord.entries ev hev).1) h

/-- A removal leaves its trace. -/
lemma Revocation.revoked (hord' : f'.Ordered) (hord : f.Ordered) {step} {tail comments}
    {reviews : List (Int × Review)} (hrev : Revocation cfg (f.observe cfg) step approval)
    (hremoves : ev.type = .unlabeled ∧ (requiredLabel cfg.requiredLabels ev.label).isSome)
    (hext : f.Extends f' (ev :: tail) comments reviews) : Revoked cfg f' step := by
  have happroved := hrev.approved
  rw [hord.log_eq] at happroved
  obtain ⟨x, hx, hid, -⟩ := exists_mem_of_approvalEpochAtOccurrence happroved
  refine ⟨approval, ?_, ev, ?_, ?_, hremoves⟩
  · rw [hext.events]
    exact approvalEpochAtOccurrence_append (hext.ids hord') happroved
  · rw [hext.events]
    simp
  · rw [← hid]
    exact (pairwise_append.1 (hext.ids hord')).2.2 x hx ev (.head _)

/-- Every delivery was announced by now. -/
lemma Forge.Ordered.announced_by (hord : f.Ordered) (ht : t ∈ publishedMilestones cfg f.comments) :
    t.at_ ≤ f.now := by
  obtain ⟨before, c, after, heq, hc, -⟩ := mem_publishedMilestones_iff.1 ht
  have htime := hord.comments c (by rw [heq]; simp)
  unfold milestoneOf at hc
  split at hc
  · cases hc
  split at hc
  · cases hc
  obtain ⟨url, -, rfl⟩ := Option.map_eq_some_iff.1 hc
  exact htime

/-- The occurrence of a removal is delivered. -/
lemma RevocationSource.delivered (hannounced : f.Announced cfg) {step : Step}
    (h : RevocationSource cfg (f.observe cfg) step) :
    ∃ t ∈ publishedMilestones cfg f.comments, t.occurrence = step.occurrence := by
  cases h with
  | fresh hd hocc =>
    exact ⟨_, (latestPublished_eq_some_iff.1 hd.newest).1, hocc.symm⟩
  | resumed hm hocc =>
    rw [Forge.observe_comments] at hm
    obtain ⟨c, hc, hintent⟩ := mem_filterMap.1 (mem_unroutedIntents_of_oldestIntent hm)
    split at hintent
    · cases hintent
    rename_i hauthor
    split at hintent
    · cases hintent
    rename_i m hparse
    split at hintent
    · cases hintent
    obtain rfl := Option.some.inj hintent
    obtain ⟨t, ht, htocc⟩ := hannounced c hc (by simpa using hauthor) m hparse
    exact ⟨t, ht, htocc.trans hocc.symm⟩

/-- A removal is for a later delivery than a handoff that has landed. -/
lemma Landed.lt_of_revocation (hord : f.Ordered) (h : Landed cfg f a l) {step : Step}
    (hsource : RevocationSource cfg (f.observe cfg) step) :
    l.trigger.occurrence < step.occurrence := by
  cases hsource with
  | fresh hd hocc => exact hocc ▸ h.lt_of_decides hord hd
  | resumed hm hocc =>
    rw [Forge.observe_comments] at hm
    exact hocc ▸ h.intents _ (mem_unroutedIntents_of_oldestIntent hm)

/-! ## One step -/

lemma isStop_of_unassigns {ev} (h : unassigns cfg.principal ev) : isStop cfg ev = false := by
  simp only [unassigns, Bool.and_eq_true, beq_iff_eq] at h
  simp [isStop, h.1]

/-- A landed handoff stays so in every step of the system. -/
lemma Landed.moves (hord : w.forge.Ordered) (hord' : w'.forge.Ordered) (hown : w.forge.Own cfg)
    (hannounced : w.forge.Announced cfg) (h : Landed cfg w.forge a l) {input}
    (hmoves : Moves cfg w input w') : Landed cfg w'.forge a l := by
  have hown' := hmoves.own hord hord' hown
  cases hmoves with
  | quiet hext hevents hcomments hreviews =>
    refine h.mono hord hord' hown hown' hext (fun p hp hauthor => ?_)
      (fun c hc hauthor m hm => absurd hm (hcomments c hc hauthor m)) fun e he hstop => ?_
    · rw [hreviews p hp] at hauthor
      cases hauthor
    · rw [hevents e he] at hstop
      cases hstop
  | verdict _ hposts hext =>
    have hlt := h.lt_of_decides hord hposts.decides
    refine h.mono hord hord' hown hown' hext (fun p hp _ => ?_) (by simp) (by simp)
    rw [mem_singleton.1 hp]
    refine ⟨fun m hm => ?_, fun hlatest => ?_⟩
    · rw [← Except.ok.inj (hposts.parse.symm.trans hm), hposts.occurrence]
      exact hlt.ne'
    · have hlatest' := hposts.decides.newest
      rw [hlatest, Option.some.injEq] at hlatest'
      rw [hlatest'] at hlt
      exact absurd hlt (lt_irrefl _)
  | intent hd hparse hocc hext =>
    refine h.mono hord hord' hown hown' hext (by simp) (fun c hc _ m hm => ?_) (by simp)
    rw [mem_singleton.1 hc] at hm
    rw [← Except.ok.inj (hparse.symm.trans hm), hocc]
    exact h.lt_of_decides hord hd
  | handoff _ _ _ hunassigns _ hext =>
    refine h.mono hord hord' hown hown' hext (by simp) (by simp) fun e he hstop => ?_
    rw [mem_singleton.1 he, isStop_of_unassigns hunassigns] at hstop
    cases hstop
  | revocation _ hsource hrev _ _ htime htail hext =>
    refine h.mono hord hord' hown hown' hext (by simp) (by simp) fun e he hstop => ?_
    obtain rfl | he := mem_cons.1 he
    · obtain ⟨t, ht, hocc⟩ := hsource.delivered hannounced
      have hpublished := hrev.published
      rw [hord.log_eq] at hpublished
      obtain ⟨x, hx, hid, hpublishes⟩ := publishes_of_publishedOccurrenceOnLog hpublished
      refine ⟨t, ht, hocc ▸ h.lt_of_revocation hord hsource, htime ▸ hord.announced_by ht, x, hx,
        hid.trans hocc.symm, hpublishes, ?_⟩
      exact (pairwise_append.1 (hext.ids hord')).2.2 x hx _ (.head _)
    · rw [htail e he] at hstop
      cases hstop

/-- In a settled forge the review of a handoff is the newest one of its delivery. -/
lemma newest_of_settled (hord : f.Ordered) (hsettled : f.settled cfg) {cur pr}
    (hoff : Handoff cfg (f.observe cfg) a t approval cur) (hlinks : t.Links number)
    (hpull : f.pulls number = some pr) (hobserved : observedPR (f.observe cfg) = pr)
    (hverdicts : (f.observe cfg).verdicts cfg = f.verdicts cfg number) :
    ∀ q ∈ f.verdicts cfg number, q.marker.occurrence = t.occurrence →
      q = cur ∨ laterReview cur q := by
  intro q hq hocc
  have hlatest := hoff.decides.newest
  have hreview := hoff.review
  rw [hverdicts, hobserved] at hreview
  obtain ⟨hcur, hcurOcc, -, -, hcurHead, hcurBase⟩ := reviewFor_eq_some hreview
  obtain ⟨owner, repo, hlink⟩ := hlinks
  rw [Forge.settled, hlatest] at hsettled
  dsimp only at hsettled
  rw [hlink] at hsettled
  dsimp only at hsettled
  rw [hpull, hord.sortEvents_eq] at hsettled
  have hp := all_eq_true.1 hsettled cur hcur
  rw [hcurOcc, hcurHead, hcurBase, (revise_of_outcomeFor hoff.revise).1] at hp
  simp only [beq_self_eq_true, Bool.and_self, Bool.not_true, Bool.false_or] at hp
  have hq' := all_eq_true.1 hp q hq
  rw [hocc] at hq'
  simpa using hq'

/-- A handoff the controller executes has landed. -/
lemma Handoff.landed (hord : f.Ordered) (hord' : f'.Ordered) (hown : f.Own cfg) (hown' : f'.Own cfg)
    (hsettled : f.settled cfg) {t} {cur} (hoff : Handoff cfg (f.observe cfg) a t approval cur)
    (hunassigns : unassigns cfg.principal ev) (htime : ev.createdAt = f.now)
    (hext : f.Extends f' [ev] [] []) :
    ∃ number, Landed cfg f' a ⟨t, approval, number, cur, f.events, ev⟩ := by
  obtain ⟨number, pr, hlinks, -, hobserved, hpull, hverdicts, -⟩ := hoff.decides.subject_eq hord
  have hnewest := newest_of_settled hord hsettled hoff hlinks hpull hobserved hverdicts
  obtain ⟨hd, hreview, hrevise, -, hchanges, hclaim, -, -, hocc, hhead, -⟩ := hoff
  have hlatest := hd.newest
  have hsettledIntents := hd.settled
  have hpublished := hd.published
  have hclaimed := hd.claimed
  have happroved := hd.approved
  rw [Forge.observe_comments] at hsettledIntents
  rw [hord.log_eq] at hpublished hclaimed happroved hclaim
  rw [hverdicts] at hreview
  rw [hverdicts, hord.log_eq] at hrevise
  obtain ⟨hcur, hcurOcc, hcurClaim, hcurApproval, hcurHead, -⟩ := reviewFor_eq_some hreview
  obtain ⟨hverdict, hcap⟩ := revise_of_outcomeFor hrevise
  have hcomments : f'.comments = f.comments := by rw [hext.comments, append_nil]
  have hdelivered := (latestPublished_eq_some_iff.1 hlatest).1
  have hsubset {n : Int} {q : Published} (hq : q ∈ f'.verdicts cfg n) : q ∈ f.verdicts cfg n := by
    obtain hq | ⟨p, hp, -⟩ := hext.verdicts_cases hown hown' hq
    · exact hq
    · cases hp
  refine ⟨number, hocc, hext.mem_milestones hdelivered, hlinks, ⟨[], hext.events⟩, hunassigns,
    htime ▸ hord.announced_by hdelivered, publishes_of_publishedOccurrenceOnLog hpublished,
    hclaimed, hclaim, happroved, stands_of_changes hord hchanges,
    hext.verdicts_mono hord' hown hown' hcur, ⟨hcurOcc, hcurClaim, hcurApproval, ?_⟩,
    hcurHead.trans hhead.symm, hverdict, fun n q hq hqocc => ?_, fun _ => ?_, ?_, ?_⟩
  · obtain ⟨r, m, hmem, -, -, rfl⟩ := hown.mem_verdicts_iff.1 hcur
    exact htime ▸ hord.reviews _ hmem
  · -- reviews of the occurrence are all on the pull request it links
    have hq' := hsubset hq
    obtain ⟨r, m, hmem, hauthor, hposted, rfl⟩ := hown.mem_verdicts_iff.1 hq'
    obtain ⟨u, hu, huocc, hulinks⟩ := hposted.delivered
    obtain rfl := eq_of_mem_publishedMilestones hu hdelivered (huocc.trans hqocc)
    obtain rfl := hulinks.unique hlinks
    exact hnewest _ hq' hqocc
  · refine lt_of_le_of_lt ?_ hcap
    exact_mod_cast length_le_distinctHeads (nodup_readHeads nodup_nil _) fun head hhead => by
      obtain ⟨p, hp, rfl⟩ := mem_distinctHeads_iff.1 hhead
      simp only [cycleReviews, forApproval, since, mem_filter] at hp ⊢
      rw [hext.cycleStart hord' happroved] at hp
      exact ⟨p, ⟨⟨hsubset hp.1.1, hp.1.2⟩, hp.2⟩, rfl⟩
  · rw [hcomments, hsettledIntents]
    simp
  · intro e he hlt
    rw [hext.events] at he
    dsimp only at hlt
    obtain he | he := mem_append.1 he
    · have hbefore := (pairwise_append.1 (hext.ids hord')).2.2 e he ev (.head _)
      omega
    · rw [mem_singleton.1 he] at hlt
      exact absurd hlt (lt_irrefl _)

lemma Forge.Announced.mono {events comments} {reviews : List (Int × Review)} (h : f.Announced cfg)
    (hext : f.Extends f' events comments reviews)
    (hcomments : ∀ c ∈ comments, eqFold c.author cfg.controller →
      ∀ m, parseRouteIntentMarker c.body = .ok m →
        ∃ t ∈ publishedMilestones cfg f.comments, t.occurrence = m.occurrence) :
    f'.Announced cfg := by
  intro c hc hauthor m hm
  rw [hext.comments] at hc
  have hfound : ∃ t ∈ publishedMilestones cfg f.comments, t.occurrence = m.occurrence := by
    obtain hc | hc := mem_append.1 hc
    · exact h c hc hauthor m hm
    · exact hcomments c hc hauthor m hm
  obtain ⟨t, ht, hocc⟩ := hfound
  exact ⟨t, hext.mem_milestones ht, hocc⟩

lemma Moves.announced {input} (hmoves : Moves cfg w input w') (h : w.forge.Announced cfg) :
    w'.forge.Announced cfg := by
  cases hmoves with
  | quiet hext _ hcomments _ =>
    exact h.mono hext fun c hc hauthor m hm => absurd hm (hcomments c hc hauthor m)
  | verdict _ _ hext => exact h.mono hext (by simp)
  | handoff _ _ _ _ _ hext => exact h.mono hext (by simp)
  | revocation _ _ _ _ _ _ _ hext => exact h.mono hext (by simp)
  | intent hd hparse hocc hext =>
    refine h.mono hext fun c hc _ m hm => ?_
    rw [mem_singleton.1 hc] at hm
    rw [← Except.ok.inj (hparse.symm.trans hm), hocc]
    exact ⟨_, (latestPublished_eq_some_iff.1 hd.newest).1, rfl⟩

/-! ## Whole runs -/

/-- The invariant of the runs: every mutation has left its trace on the forge, and no occurrence was
mutated twice. -/
structure World.Sound (cfg : Config) (w : World) : Prop where
  ordered : w.forge.Ordered
  own : w.forge.Own cfg
  announced : w.forge.Announced cfg
  traced : ∀ a ∈ w.acts, (∃ l, Landed cfg w.forge a l) ∨ Revoked cfg w.forge a
  handed : ∀ a ∈ w.acts, a.kind = .unassign → ∃ l, Landed cfg w.forge a l
  once : (w.acts.map (·.occurrence)).Nodup

omit [Library] in
lemma nodup_snoc {acts : List Step} {step : Step} (h : (acts.map (·.occurrence)).Nodup)
    (hnew : ∀ b ∈ acts, b.occurrence ≠ step.occurrence) :
    ((acts ++ [step]).map (·.occurrence)).Nodup := by
  rw [map_append, map_singleton]
  refine nodup_append.2 ⟨h, nodup_singleton _, fun x hx y hy hxy => ?_⟩
  obtain ⟨b, hb, rfl⟩ := mem_map.1 hx
  exact hnew b hb (hxy.trans (mem_singleton.1 hy))

/-- What was traced stays traced. -/
lemma World.Sound.traced_moves (h : w.Sound cfg) (hord' : w'.forge.Ordered) {input}
    (hmoves : Moves cfg w input w') (ha : a ∈ w.acts) :
    (∃ l, Landed cfg w'.forge a l) ∨ Revoked cfg w'.forge a := by
  obtain ⟨l, hl⟩ | hrevoked := h.traced a ha
  · exact .inl ⟨l, hl.moves h.ordered hord' h.own h.announced hmoves⟩
  · refine .inr ?_
    cases hmoves with
    | quiet hext => exact hrevoked.mono hord' hext
    | verdict _ _ hext => exact hrevoked.mono hord' hext
    | intent _ _ _ hext => exact hrevoked.mono hord' hext
    | handoff _ _ _ _ _ hext => exact hrevoked.mono hord' hext
    | revocation _ _ _ _ _ _ _ hext => exact hrevoked.mono hord' hext

/-- Every step from a settled forge keeps the invariant. -/
lemma World.Sound.step (h : w.Sound cfg) {input} (hsettled : Settled cfg w input)
    (hstep : w.step cfg input = some w') : w'.Sound cfg := by
  have hord' := World.ordered h.ordered hstep
  have hmoves := World.moves h.ordered hstep
  have hown' := hmoves.own h.ordered hord' h.own
  have htraced {a : Step} (ha : a ∈ w.acts) := h.traced_moves hord' hmoves ha
  have hhanded {a : Step} (ha : a ∈ w.acts) (hkind : a.kind = .unassign) :
      ∃ l, Landed cfg w'.forge a l := by
    obtain ⟨l, hl⟩ := h.handed a ha hkind
    exact ⟨l, hl.moves h.ordered hord' h.own h.announced hmoves⟩
  have hannounced' := hmoves.announced h.announced
  -- steps that execute no mutation
  have hsame (hacts : w'.acts = w.acts) : w'.Sound cfg :=
    ⟨hord', hown', hannounced', hacts ▸ fun a ha => htraced ha, hacts ▸ fun a ha => hhanded ha,
      hacts ▸ h.once⟩
  cases hmoves with
  | quiet _ _ _ _ hacts => exact hsame hacts
  | verdict _ _ _ hacts => exact hsame hacts
  | intent _ _ _ _ hacts => exact hsame hacts
  | handoff hacting hkind hoff hunassigns htime hext hacts =>
    rename_i step t approval cur ev
    obtain ⟨number, hlanded⟩ := hoff.landed h.ordered hord' h.own hown' (hsettled hacting)
      hunassigns htime hext
    refine ⟨hord', hown', hannounced', ?_, ?_, ?_⟩
    · rw [hacts, forall_mem_append, forall_mem_singleton]
      exact ⟨fun a ha => htraced ha, .inl ⟨_, hlanded⟩⟩
    · rw [hacts, forall_mem_append, forall_mem_singleton]
      exact ⟨fun a ha => hhanded ha, fun _ => ⟨_, hlanded⟩⟩
    · rw [hacts]
      refine nodup_snoc h.once fun b hb hocc => ?_
      rw [hoff.occurrence] at hocc
      obtain ⟨l, hl⟩ | hrevoked := h.traced b hb
      · have hlt := hl.lt_of_decides h.ordered hoff.decides
        rw [← hl.occurrence, hocc] at hlt
        exact lt_irrefl _ hlt
      · have happroved := hoff.decides.approved
        rw [h.ordered.log_eq, ← hocc] at happroved
        exact hrevoked.not_stands h.ordered happroved (stands_of_changes h.ordered hoff.changes)
  | revocation hkind hsource hrev _ hremoves _ _ hext hacts =>
    rename_i step approval ev tail
    refine ⟨hord', hown', hannounced', ?_, ?_, ?_⟩
    · rw [hacts, forall_mem_append, forall_mem_singleton]
      exact ⟨fun a ha => htraced ha, .inr (hrev.revoked hord' h.ordered hremoves hext)⟩
    · rw [hacts, forall_mem_append, forall_mem_singleton, hkind]
      exact ⟨fun a ha => hhanded ha, nofun⟩
    · rw [hacts]
      refine nodup_snoc h.once fun b hb hocc => ?_
      obtain ⟨l, hl⟩ | hrevoked := h.traced b hb
      · have hlt := hl.lt_of_revocation h.ordered hsource
        rw [← hl.occurrence, hocc] at hlt
        exact lt_irrefl _ hlt
      · have happroved := hrev.approved
        rw [h.ordered.log_eq, ← hocc] at happroved
        exact hrevoked.not_stands h.ordered happroved (stands_of_changes h.ordered hrev.changes)

/-- The invariant holds after every run whose steps are taken in settled forges. -/
lemma World.Sound.run (hfresh : f.Fresh cfg) {inputs}
    (hrun : Runs.run (World.step cfg) { forge := f } inputs = some w)
    (hsettled : Runs.Along (World.step cfg) (Settled cfg) { forge := f } inputs) : w.Sound cfg := by
  refine Runs.invariant (fun _ _ _ h => h.step) ⟨hfresh.ordered, ?_, ?_, by simp, by simp, by simp⟩
    hsettled hrun
  · intro p hp hauthor
    rw [hfresh.reviews p hp] at hauthor
    cases hauthor
  · exact fun c hc hauthor m hm => absurd hm (hfresh.comments c hc hauthor m)

/-- In every run in which the controller acts only in settled forges, it mutates the issue at most
once for each occurrence. -/
theorem acts_once (cfg : Config) (f : Forge) (hfresh : f.Fresh cfg) (inputs : List Input)
    (w : World) (hrun : Runs.run (World.step cfg) { forge := f } inputs = some w)
    (hsettled : Runs.Along (World.step cfg) (Settled cfg) { forge := f } inputs)
    (occurrence : Int) : (w.acts.filter fun a => a.occurrence = occurrence).length ≤ 1 := by
  have honce := (World.Sound.run hfresh hrun hsettled).once
  have hcount := nodup_iff_count_le_one.1 honce occurrence
  rw [List.count, countP_map, countP_eq_length_filter] at hcount
  refine le_trans (le_of_eq ?_) hcount
  congr 2

/-! ## What is recorded -/

lemma Landed.ids (hord : f.Ordered) (h : Landed cfg f a l) :
    l.before.Pairwise fun x y => x.id < y.id := by
  obtain ⟨after, hlog⟩ := h.log
  have hids := hord.ids
  rw [hlog] at hids
  exact (pairwise_append.1 hids).1

/-- From the occurrence to the handoff no label of the approval was removed. -/
lemma Landed.kept (hord : f.Ordered) (h : Landed cfg f a l) {e : Event} (he : e ∈ l.before)
    (hlt : l.trigger.occurrence < e.id) (htype : e.type = .unlabeled) :
    requiredLabel cfg.requiredLabels e.label = none := by
  obtain ⟨before, ev, after, hat, hanchor⟩ := approvalEpochAtOccurrence_eq_some_iff.1 h.approved
  have hafter := mem_after_of_id_lt (h.ids hord) hat.eq he (hasId_eq_true_iff.1 hat.pass ▸ hlt)
  exact h.stands.kept_since hat hanchor e hafter htype

/-- From the occurrence to the handoff the claim was not handed back. -/
lemma Landed.held (hord : f.Ordered) (h : Landed cfg f a l) {e : Event} (he : e ∈ l.before)
    (hlt : l.trigger.occurrence < e.id) : unassigns cfg.principal e = false := by
  obtain ⟨hpos, before, ev, after, hat, hclaim⟩ := claimEpochAtOccurrence_eq_iff.1 h.claimed
  have hids := h.ids hord
  -- the claim began no later than the occurrence
  have hle : a.claim ≤ l.trigger.occurrence := by
    obtain ⟨before', x, after', heq, hid, -⟩ := claimEpoch_eq_of_ne_zero hclaim hpos.ne'
    have hx : x ∈ before ++ [ev] := by
      rw [heq]
      simp
    rw [hat.eq, pairwise_append] at hids
    rw [← hid, ← hasId_eq_true_iff.1 hat.pass]
    obtain hx | hx := mem_append.1 hx
    · exact (hids.2.2 x hx ev (.head _)).le
    · rw [mem_singleton.1 hx]
  obtain ⟨before', x, after', heq, hid, -, hkept⟩ := claimEpoch_eq_of_ne_zero h.standing hpos.ne'
  exact hkept e (mem_after_of_id_lt hids heq he (hid ▸ hle.trans_lt hlt))

/-- The mutation in which the occurrence of a handoff is recognised is that handoff, or a later
release of the issue. -/
lemma Landed.entry_le (hord : f.Ordered) (hvalid : cfg.validate = .ok ()) (h : Landed cfg f a l)
    {e : Event} {place : Nat} {u : Trigger} (hplace : f.events[place]? = some e)
    (hpublication : publicationBeforeMutation (publishedMilestones cfg f.comments)
      (publishedPositions cfg (publishedMilestones cfg f.comments) f.events) e place = some u)
    (hocc : u.occurrence = l.trigger.occurrence)
    (hmutation : isStop cfg e ∨ unassigns cfg.principal e) :
    isStop cfg e = false ∧ l.entry.createdAt ≤ e.createdAt := by
  obtain ⟨-, hafter, hlast⟩ := hord.publication_spec hplace hpublication
  rw [hocc] at hafter hlast
  have hstop {x : Event} (hx : isStop cfg x) : x.type = .unlabeled ∧
      (requiredLabel cfg.requiredLabels x.label).isSome := by
    simp only [isStop, Bool.and_eq_true, beq_iff_eq] at hx
    refine ⟨hx.1.1, ?_⟩
    have hqueue := (validate_eq_ok hvalid).2
    simp only [requiredLabel, findIdx?_isSome, any_eq_true] at hqueue ⊢
    obtain ⟨want, hwant, hfold⟩ := hqueue
    exact ⟨want, hwant, eqFold_trans hfold (eqFold_comm _ _ ▸ hx.2)⟩
  obtain ⟨after, hlog⟩ := h.log
  have he : e ∈ l.before ++ l.entry :: after := hlog ▸ mem_of_getElem? hplace
  obtain he | he := mem_append.1 he
  · -- before the handoff the approval and the claim stood
    obtain hmutation | hmutation := hmutation
    · obtain ⟨htype, hlabel⟩ := hstop hmutation
      rw [h.kept hord he hafter htype] at hlabel
      cases hlabel
    · rw [h.held hord he hafter] at hmutation
      cases hmutation
  · obtain rfl | he := mem_cons.1 he
    · exact ⟨isStop_of_unassigns h.entry, le_rfl⟩
    · have hids := hord.ids
      have htimes := hord.times
      rw [hlog, pairwise_append, pairwise_cons] at hids htimes
      refine ⟨eq_false_of_ne_true fun hstopped => ?_, htimes.2.1.1 e he⟩
      -- a removal after the handoff belongs to a later delivery
      obtain ⟨t, ht, hlt, hat, ev, hev, hid, hpublishes, hbefore⟩ :=
        h.stops e (mem_of_getElem? hplace) (hids.2.1.1 e he) hstopped
      exact absurd (hlast t ht ev hev hid hpublishes (hid ▸ hbefore) hat) hlt.not_ge

/-- The reviews of an observation are those of one pull request, if there are any. -/
lemma Forge.observe_verdicts (hord : f.Ordered) {p} (hp : p ∈ (f.observe cfg).verdicts cfg) :
    ∃ number, (f.observe cfg).verdicts cfg = f.verdicts cfg number := by
  have hreviews : (f.observe cfg).reviews = [] ∨
      ∃ number, (f.observe cfg).reviews = f.reviewsOf number := by
    unfold observe
    dsimp only
    split
    · exact .inl rfl
    split
    · exact .inl rfl
    split
    · exact .inl rfl
    split
    · exact .inl rfl
    · exact .inr ⟨_, rfl⟩
  obtain hnone | ⟨number, hreviews⟩ := hreviews
  · rw [Snapshot.verdicts, hnone] at hp
    cases hp
  · exact ⟨number, by rw [Snapshot.verdicts, hord.log_eq, hreviews, Forge.verdicts]⟩

/-- The reviews of an occurrence are all on one pull request. -/
lemma Landed.number_eq (hown : f.Own cfg) (h : Landed cfg f a l) {number : Int} {p : Published}
    (hp : p ∈ f.verdicts cfg number) (hocc : p.marker.occurrence = l.trigger.occurrence) :
    number = l.number := by
  obtain ⟨r, m, hmem, -, hposted, rfl⟩ := hown.mem_verdicts_iff.1 hp
  obtain ⟨u, hu, huocc, hulinks⟩ := hposted.delivered
  obtain rfl := eq_of_mem_publishedMilestones hu h.delivered (huocc.trans hocc)
  exact hulinks.unique h.links

/-- A route that is recognised on the log for the occurrence of a landed handoff is the one the
handoff was decided on. -/
lemma Landed.completes (hord : f.Ordered) (hown : f.Own cfg) (hvalid : cfg.validate = .ok ())
    (h : Landed cfg f a l) {done : CompletedRoute}
    (hdone : completedUnroutedRoute cfg f.comments (publishedMilestones cfg f.comments) f.events
      ((f.observe cfg).verdicts cfg) = some done)
    (hocc : done.trigger.occurrence = l.trigger.occurrence) :
    done.claim = a.claim ∧ done.head = a.head ∧ some done.outcome = some .revise := by
  obtain ⟨-, -, hclaim, approval, happroval, e, place, hplace, hby⟩ := completed_spec hdone
  obtain ⟨-, -, ⟨u, hpublication, hu⟩, prior, hprior, hhead, hmutation⟩ := completedBy_spec hby
  obtain ⟨hnotStop, hle⟩ := h.entry_le hord hvalid hplace hpublication (hu.trans hocc)
    (hmutation.imp_right And.left)
  rw [hnotStop] at hmutation
  have houtcome := (hmutation.resolve_left Bool.false_ne_true).2
  rw [hocc, h.claimed_now hord, Prod.mk.injEq] at hclaim
  rw [hocc, h.approved_now hord, Option.some.injEq] at happroval
  rw [hocc, ← hclaim.1, ← happroval] at hprior
  obtain ⟨hmem, hcovers, -⟩ := latestReview_spec hprior
  obtain ⟨number, hverdicts⟩ := Forge.observe_verdicts hord hmem
  rw [hverdicts] at hprior hmem
  rw [h.number_eq hown hmem hcovers.1] at hprior
  rw [hhead, houtcome, h.eq_review hle hprior]
  exact ⟨hclaim.1.symm, h.head, rfl⟩

/-- Every route the reducer chooses to record for the occurrence of a landed handoff is the one the
handoff was decided on. -/
lemma Landed.records (hord : f.Ordered) (hown : f.Own cfg) (h : Landed cfg f a l)
    (hkind : (reduce cfg (f.observe cfg)).kind = .recordRoute)
    (hocc : (reduce cfg (f.observe cfg)).occurrence = l.trigger.occurrence) :
    (reduce cfg (f.observe cfg)).claim = a.claim ∧ (reduce cfg (f.observe cfg)).head = a.head ∧
      (reduce cfg (f.observe cfg)).outcome = some .revise := by
  have hvalid : cfg.validate = .ok () := validate_of_reduce (by rw [hkind]; decide)
  have hreduces := reduces cfg (f.observe cfg)
  generalize reduce cfg (f.observe cfg) = step at hkind hocc hreduces ⊢
  cases hreduces with
  | idle => cases hkind
  | resumes hm hresumes =>
    rw [Forge.observe_comments] at hm
    have hlt := h.intents _ (mem_unroutedIntents_of_oldestIntent hm)
    cases hresumes with
    | idle => cases hkind
    | revokes => cases hkind
    | records => exact absurd hocc hlt.ne'
  | delivers hd hdelivers =>
    have hlt := h.lt_of_decides hord hd
    cases hdelivers with
    | idle => cases hkind
    | reviews => cases hkind
    | stops _ _ hstops =>
      cases hstops with
      | idle => cases hkind
      | intends => cases hkind
      | revokes => cases hkind
      | records => exact absurd hocc hlt.ne'
    | routes _ hroutes =>
      cases hroutes with
      | idle => cases hkind
      | handsBack => cases hkind
      | records => exact absurd hocc hlt.ne'
      | stops hstops =>
        cases hstops with
        | idle => cases hkind
        | intends => cases hkind
        | revokes => cases hkind
        | records => exact absurd hocc hlt.ne'
  | completes hsettled hdone =>
    rw [Forge.observe_comments, hord.log_eq] at hdone
    exact h.completes hord hown hvalid hdone hocc

/-- In every run in which the controller acts only in settled forges, a route that the reducer
chooses to record for the occurrence of an executed handoff has the claim, the head and the outcome
of the handoff. -/
theorem route_as_decided (cfg : Config) (f : Forge) (hfresh : f.Fresh cfg) (inputs : List Input)
    (w : World) (hrun : Runs.run (World.step cfg) { forge := f } inputs = some w)
    (hsettled : Runs.Along (World.step cfg) (Settled cfg) { forge := f } inputs)
    (a : Step) (ha : a ∈ w.acts) (hunassign : a.kind = .unassign)
    (hrecord : (reduce cfg (w.forge.observe cfg)).kind = .recordRoute)
    (hocc : (reduce cfg (w.forge.observe cfg)).occurrence = a.occurrence) :
    (reduce cfg (w.forge.observe cfg)).claim = a.claim ∧
      (reduce cfg (w.forge.observe cfg)).head = a.head ∧
      (reduce cfg (w.forge.observe cfg)).outcome = some .revise := by
  have hsound := World.Sound.run hfresh hrun hsettled
  obtain ⟨l, hl⟩ := hsound.handed a ha hunassign
  exact hl.records hsound.ordered hsound.own hrecord (hocc.trans hl.occurrence)

end

namespace Sample

/-- The controller hands the issue back on its first review. -/
def handedBack : List Input := queued ++ firstReview ++ [.wait 1, .control .unusable false]

/-- A second commit is reviewed, the branch goes back to the first one, and the controller hands the
issue back on the review of that one. -/
def rewound (verdict : Verdict) : List Input :=
  queued ++ firstReview ++
  [.pull 42 (some (pullRequest (commit 98))), .wait 1,
   .control (.report verdict (txt "findings")) false,
   .pull 42 (some (pullRequest (commit 97))), .wait 1, .control .unusable false]

/-- The branch is at the second commit again. -/
def restored : List Input :=
  [.pull 42 (some (pullRequest (commit 98))), .wait 1, .control .unusable false]

end Sample

open Review.Sample

/-- One handoff, after which its route is to be recorded. -/
lemma Sample.run_handedBack : ∃ w a,
    Runs.run (World.step config) { forge := start } handedBack = some w ∧
    w.acts = [a] ∧ a.kind = .unassign ∧ a.occurrence = 902 ∧ a.head = commit 97 ∧
    (reduce config (w.forge.observe config)).kind = .recordRoute ∧
    (reduce config (w.forge.observe config)).occurrence = 902 := by
  have hacts : ((Runs.run (World.step config) { forge := start }
      handedBack).map fun w =>
        (w.acts.map fun a => (a.kind, a.occurrence, a.head),
          (reduce config (w.forge.observe config)).kind,
          (reduce config (w.forge.observe config)).occurrence)) =
        some ([(.unassign, 902, commit 97)], .recordRoute, 902) := by
    decide +kernel
  obtain ⟨w, hrun, hw⟩ := Option.map_eq_some_iff.1 hacts
  simp only [Prod.mk.injEq, map_eq_singleton_iff] at hw
  obtain ⟨⟨a, ha, hkind, hocc, hhead⟩, hrecord, hocc'⟩ := hw
  exact ⟨w, a, hrun, ha, hkind, hocc, hhead, hrecord, hocc'⟩

lemma Sample.settled_handedBack : Runs.Along (World.step config) (Settled config)
    { forge := start } handedBack :=
  Runs.along_of_check (by decide +kernel)

/-- The occurrence is mutated once. -/
theorem acts_once_handedBack : ∃ w a,
    Runs.run (World.step config) { forge := start } handedBack = some w ∧
    w.acts = [a] ∧ a.occurrence = 902 ∧
    (w.acts.filter fun a => a.occurrence = 902).length ≤ 1 := by
  obtain ⟨w, a, hrun, ha, -, hocc, -⟩ := run_handedBack
  exact ⟨w, a, hrun, ha, hocc, acts_once config start
    (start_fresh config) _ w hrun settled_handedBack 902⟩

/-- The issue is handed back on the changes the first commit needs, and then stopped on the clean
verdict about the second one. -/
theorem acts_twice : start.Fresh config ∧ ∃ w, Runs.run (World.step config) { forge := start }
      (rewound .clean ++ restored) = some w ∧
    w.acts.map (fun a => (a.kind, a.occurrence)) = [(.unassign, 902), (.revoke, 902)] := by
  have hacts : ((Runs.run (World.step config) { forge := start }
      (rewound .clean ++ restored)).map fun w =>
        w.acts.map fun a => (a.kind, a.occurrence)) =
        some [(.unassign, 902), (.revoke, 902)] := by
    decide +kernel
  obtain ⟨w, hrun, hw⟩ := Option.map_eq_some_iff.1 hacts
  exact ⟨start_fresh _, w, hrun, hw⟩

/-- The route that is recorded after the handoff is the one it was decided on. -/
theorem route_as_decided_handedBack : ∃ w a,
    Runs.run (World.step config) { forge := start } handedBack = some w ∧
    w.acts = [a] ∧ a.head = commit 97 ∧
    (reduce config (w.forge.observe config)).kind = .recordRoute ∧
    (reduce config (w.forge.observe config)).head = a.head := by
  obtain ⟨w, a, hrun, ha, hkind, hocc, hhead, hrecord, hocc'⟩ := run_handedBack
  exact ⟨w, a, hrun, ha, hhead, hrecord, (route_as_decided config start
    (start_fresh config) _ w hrun settled_handedBack a (by rw [ha]; simp)
    hkind hrecord (hocc'.trans hocc.symm)).2.1⟩

/-- The issue is handed back on the review of the first commit, and the review of the second one is
recorded for it. -/
theorem route_not_as_decided : start.Fresh config ∧ ∃ w a,
    Runs.run (World.step config) { forge := start }
      (rewound .changesRequested) = some w ∧
    w.acts = [a] ∧ a.kind = .unassign ∧
    (reduce config (w.forge.observe config)).kind = .recordRoute ∧
    (reduce config (w.forge.observe config)).occurrence = a.occurrence ∧
    (reduce config (w.forge.observe config)).head ≠ a.head := by
  have hacts : ((Runs.run (World.step config) { forge := start }
      (rewound .changesRequested)).map fun w =>
        (w.acts.map fun a => (a.kind, a.occurrence, a.head),
          (reduce config (w.forge.observe config)).kind,
          (reduce config (w.forge.observe config)).occurrence,
          (reduce config (w.forge.observe config)).head)) =
        some ([(.unassign, 902, commit 97)], .recordRoute, 902, commit 98) := by
    decide +kernel
  obtain ⟨w, hrun, hw⟩ := Option.map_eq_some_iff.1 hacts
  simp only [Prod.mk.injEq, map_eq_singleton_iff] at hw
  obtain ⟨⟨a, ha, hkind, hocc, hhead⟩, hrecord, hocc', hhead'⟩ := hw
  refine ⟨start_fresh _, w, a, hrun, ha, hkind, hrecord, hocc'.trans hocc.symm, ?_⟩
  rw [hhead, hhead']
  decide

end Ben.Review
