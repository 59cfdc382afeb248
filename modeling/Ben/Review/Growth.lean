import Ben.Review.Accepted
import Ben.Review.Driver
import Ben.Review.Recovery

/-!
# The forge as it is observed

The forge's ids and instants run forward (`Forge.Ordered`), so that its log is read in the order it
was written.  The subject of a decision is the pull request the newest delivery links
(`Decides.subject_eq`), and every marker the controller writes has fields its parsers accept.
-/

namespace Ben.Review

open List

variable [Library] {cfg : Config} {f f' : Forge} {t : Trigger} {claim approval : Int}

/-! ## Order -/

/-- Ids and instants run forward. -/
structure Forge.Ordered (f : Forge) : Prop where
  ids : f.events.Pairwise fun a b => a.id < b.id
  times : f.events.Pairwise fun a b => a.createdAt ≤ b.createdAt
  entries : ∀ ev ∈ f.events, 0 < ev.id ∧ ev.id ≤ f.nextID ∧ ev.createdAt ≤ f.now
  comments : ∀ c ∈ f.comments, c.createdAt ≤ f.now
  reviews : ∀ p ∈ f.reviews, p.2.submittedAt ≤ f.now
  counter : 0 ≤ f.nextID ∧ f.nextID < 2 ^ 63
  clock : 0 ≤ f.now

lemma Forge.observe_comments : (f.observe cfg).comments = f.comments := by
  unfold observe
  dsimp only
  repeat' split
  all_goals rfl

lemma Forge.observe_events : (f.observe cfg).events = f.events := by
  unfold observe
  dsimp only
  repeat' split
  all_goals rfl

omit [Library] in
lemma Forge.Ordered.nodup (h : f.Ordered) : (f.events.map (·.id)).Nodup :=
  pairwise_map.2 (h.ids.imp fun hlt => hlt.ne)

omit [Library] in
/-- A log that was written in order is read in that order. -/
lemma Forge.Ordered.sortEvents_eq (h : f.Ordered) : sortEvents f.events = f.events := by
  refine List.Pairwise.insertionSort_eq (List.Pairwise.imp ?_ (h.ids.and h.times))
  rintro a b ⟨hid, htime⟩
  obtain hlt | heq := lt_or_eq_of_le htime
  · exact .inl hlt
  · exact .inr ⟨heq, hid.le⟩

lemma Forge.Ordered.log_eq (h : f.Ordered) : (f.observe cfg).log = f.events := by
  rw [Snapshot.log, Forge.observe_events, h.sortEvents_eq]

omit [Library] in
lemma Forge.Ordered.isId (h : f.Ordered) {ev : Event} (hev : ev ∈ f.events) : IsId ev.id :=
  ⟨(h.entries ev hev).1, (h.entries ev hev).2.1.trans_lt h.counter.2⟩

variable (cfg) in
/-- The entries that can become a claim or an approval have ids a marker can carry. -/
def Sized (events : List Event) : Prop :=
  ∀ ev ∈ events, assigns cfg.principal ev = true ∨ applies cfg.requiredLabels ev = true →
    ev.id < 2 ^ 63

lemma Forge.Ordered.sized_log (h : f.Ordered) : Sized cfg (f.observe cfg).log := by
  rw [h.log_eq]
  exact fun ev hev _ => (h.isId hev).2

/-- The claim at an occurrence is an entry of the log. -/
lemma exists_mem_of_claimEpochAtOccurrence {events} {occurrence : Int}
    (h : claimEpochAtOccurrence events cfg.principal occurrence = (claim, true)) :
    ∃ ev ∈ events, ev.id = claim ∧ assigns cfg.principal ev := by
  obtain ⟨hpos, before, ev, after, hat, hclaim⟩ := claimEpochAtOccurrence_eq_iff.1 h
  obtain ⟨b, x, a, heq, hid, hassigns, -⟩ := claimEpoch_eq_of_ne_zero hclaim hpos.ne'
  refine ⟨x, ?_, hid, hassigns⟩
  rw [hat.eq, append_cons, heq]
  simp

/-! ## Subjects -/

/-- The delivery links a pull request. -/
def Trigger.Links (t : Trigger) (number : Int) : Prop :=
  ∃ owner repo, parsePRURL t.prURL = .ok (owner, repo, number)

lemma Trigger.Links.unique {n n' : Int} (h : t.Links n) (h' : t.Links n') : n = n' := by
  obtain ⟨owner, repo, h⟩ := h
  obtain ⟨owner', repo', h'⟩ := h'
  rw [h] at h'
  exact congrArg (fun x => x.2.2) (Except.ok.inj h')

omit [Library] in
lemma ok_of_guard {ε α : Type} {c : Prop} [Decidable c] {e : ε} {x : Except ε α} {a : α}
    (h : (if c then .error e else x) = .ok a) : ¬ c ∧ x = .ok a := by
  split at h
  · cases h
  · exact ⟨‹¬ c›, h⟩

/-- A subject that validates is the pull request the delivery links, at a full commit on a full
base. -/
lemma validateSubject_eq_ok {pr : PullRequest} (h : validateSubject cfg t (some pr) = .ok ()) :
    t.Links pr.number ∧ isFullSHA pr.head ∧ trimSpace pr.base ≠ [] ∧
      isFullSHA pr.baseSHA := by
  unfold validateSubject at h
  dsimp only at h
  cases hlink : parsePRURL t.prURL with
  | error e =>
    rw [hlink] at h
    cases h
  | ok link =>
    obtain ⟨owner, repo, number⟩ := link
    rw [hlink] at h
    obtain ⟨-, h⟩ := ok_of_guard h
    obtain ⟨hnumber, h⟩ := ok_of_guard h
    cases hurl : parsePRURL pr.url with
    | error e =>
      rw [hurl] at h
      cases h
    | ok link =>
      obtain ⟨apiOwner, apiRepo, apiNumber⟩ := link
      rw [hurl] at h
      iterate 5 obtain ⟨-, h⟩ := ok_of_guard h
      obtain ⟨hhead, h⟩ := ok_of_guard h
      obtain ⟨hbaseRef, h⟩ := ok_of_guard h
      obtain ⟨hbase, -⟩ := ok_of_guard h
      rw [not_not] at hnumber
      exact ⟨⟨owner, repo, hnumber ▸ hlink⟩, by simpa using hhead, hbaseRef, by simpa using hbase⟩

/-- The controller's own reviews of one pull request. -/
def Forge.verdicts (cfg : Config) (f : Forge) (number : Int) : List Published :=
  controllerReviews cfg f.events (f.reviewsOf number) 0

/-- An observation has the pull request the newest delivery links, or none. -/
lemma Forge.observe_pr (cfg) (f : Forge) :
    (f.observe cfg).pr = none ∨ ∃ t number pr, latestPublished cfg f.comments = some t ∧
      t.Links number ∧ f.pulls number = some pr ∧ (f.observe cfg).pr = some pr ∧
      (f.observe cfg).reviews = f.reviewsOf number := by
  unfold observe
  dsimp only
  split
  · exact .inl rfl
  rename_i t hlatest
  split
  · exact .inl rfl
  rename_i owner repo number hlink
  split
  · exact .inl rfl
  split
  · exact .inl rfl
  rename_i pr hpull
  exact .inr ⟨t, number, pr, hlatest, ⟨owner, repo, hlink⟩, hpull, rfl, rfl⟩

/-- What is decided on is the pull request the newest delivery links, with its reviews. -/
lemma Decides.observed (hd : Decides cfg (f.observe cfg) t claim approval) :
    ∃ number pr, t.Links number ∧ pr.number = number ∧ observedPR (f.observe cfg) = pr ∧
      f.pulls number = some pr ∧ (f.observe cfg).reviews = f.reviewsOf number ∧
      isFullSHA pr.head ∧ trimSpace pr.base ≠ [] ∧ isFullSHA pr.baseSHA := by
  have hsubject := hd.subject
  obtain hnone | ⟨u, number, pr, hlatest, hlinks, hpull, hpr, hreviews⟩ := f.observe_pr cfg
  · rw [hnone] at hsubject
    cases hsubject
  · have hu := hd.latest
    rw [Forge.observe_comments, hlatest, Option.some.injEq] at hu
    subst hu
    rw [hpr] at hsubject
    obtain ⟨hlinks', hhead, hbaseRef, hbase⟩ := validateSubject_eq_ok hsubject
    refine ⟨number, pr, hlinks, hlinks'.unique hlinks, ?_, hpull, hreviews, hhead, hbaseRef, hbase⟩
    rw [observedPR, hpr, Option.getD_some]

lemma Decides.subject_eq (hord : f.Ordered) (hd : Decides cfg (f.observe cfg) t claim approval) :
    ∃ number pr, t.Links number ∧ pr.number = number ∧ observedPR (f.observe cfg) = pr ∧
      f.pulls number = some pr ∧ (f.observe cfg).verdicts cfg = f.verdicts cfg number ∧
      isFullSHA pr.head ∧ trimSpace pr.base ≠ [] ∧ isFullSHA pr.baseSHA := by
  obtain ⟨number, pr, hlinks, hnumber, hobserved, hpull, hreviews, hshas⟩ := hd.observed
  refine ⟨number, pr, hlinks, hnumber, hobserved, hpull, ?_, hshas⟩
  rw [Snapshot.verdicts, hord.log_eq, hreviews, Forge.verdicts]

/-! ## Valid configurations -/

/-- The queue label of a valid configuration is a required one, and its profiles are valid. -/
lemma validate_eq_ok (h : cfg.validate = .ok ()) : cfg.validateReviewerProfiles = .ok () ∧
      (requiredLabel cfg.requiredLabels cfg.queueLabel).isSome := by
  unfold Config.validate at h
  obtain ⟨-, h⟩ := ok_of_guard h
  obtain ⟨-, h⟩ := ok_of_guard h
  split at h
  · cases h
  obtain ⟨-, h⟩ := ok_of_guard h
  obtain ⟨-, h⟩ := ok_of_guard h
  split at h
  · cases h
  rename_i hprofiles
  iterate 4 obtain ⟨-, h⟩ := ok_of_guard h
  obtain ⟨hqueue, -⟩ := ok_of_guard h
  refine ⟨hprofiles, ?_⟩
  rw [Bool.not_eq_true', Bool.not_eq_false, hasLabel, any_eq_true] at hqueue
  rw [requiredLabel, findIdx?_isSome, any_eq_true]
  exact hqueue

lemma valid_of_reviewerProfileFault {seen names} (h : reviewerProfileFault seen names = none) :
    ∀ n ∈ names, validReviewerProfile n := by
  induction names generalizing seen with
  | nil => simp
  | cons name names ih =>
    rw [reviewerProfileFault] at h
    split at h
    · cases h
    rename_i hvalid
    split at h
    · cases h
    intro n hn
    obtain rfl | hn := mem_cons.1 hn
    · simpa using hvalid
    · exact ih h n hn

/-- The profiles of a valid configuration are valid; without any there is no default either. -/
lemma validateReviewerProfiles_eq_ok (h : cfg.validateReviewerProfiles = .ok ()) :
    (∀ n ∈ cfg.reviewerProfiles, validReviewerProfile n) ∧
      (cfg.defaultReviewerProfile = [] ∨ validReviewerProfile cfg.defaultReviewerProfile) := by
  unfold Config.validateReviewerProfiles at h
  split at h
  · rename_i hempty
    obtain ⟨hdefault, -⟩ := ok_of_guard h
    rw [isEmpty_iff.1 hempty]
    exact ⟨by simp, .inl (not_not.1 hdefault)⟩
  · obtain ⟨hdefault, h⟩ := ok_of_guard h
    obtain ⟨-, h⟩ := ok_of_guard h
    split at h
    · cases h
    rename_i hfault
    exact ⟨valid_of_reviewerProfileFault hfault, .inr (by simpa using hdefault)⟩

lemma readProfileLabels_eq_ok {labels start selected} {count n : Nat}
    (h : cfg.readProfileLabels labels start n = .ok (selected, count)) :
    selected = start ∨ selected ∈ cfg.reviewerProfiles := by
  induction labels generalizing start n with
  | nil =>
    rw [Config.readProfileLabels] at h
    exact .inl (congrArg Prod.fst (Except.ok.inj h)).symm
  | cons label labels ih =>
    rw [Config.readProfileLabels] at h
    split at h
    · exact ih h
    split at h
    · exact ih h
    dsimp only at h
    split at h
    · cases h
    rename_i canonical hfind
    obtain rfl | hmem := ih h
    · exact .inr (mem_of_find?_eq_some hfind)
    · exact .inr hmem

/-- The profile the labels of an issue select can be written in a marker. -/
lemma profile_of_selectReviewerProfile {labels profile} (hvalid : cfg.validate = .ok ())
    (h : cfg.selectReviewerProfile labels = .ok profile) :
    profile = [] ∨ validReviewerProfile profile := by
  obtain ⟨hnames, hdefault⟩ := validateReviewerProfiles_eq_ok (validate_eq_ok hvalid).1
  unfold Config.selectReviewerProfile at h
  split at h
  · cases h
  rename_i selected count hread
  split at h
  · obtain ⟨-, h⟩ := ok_of_guard h
    exact .inl (Except.ok.inj h).symm
  obtain ⟨-, h⟩ := ok_of_guard h
  split at h
  · rw [← Except.ok.inj h]
    exact hdefault
  · rename_i hselected
    rw [← Except.ok.inj h]
    exact .inr (hnames selected ((readProfileLabels_eq_ok hread).resolve_left hselected))

/-- The reducer answers with a step only under a valid configuration. -/
lemma validate_of_reduce {s} (h : (reduce cfg s).kind ≠ .nothing) : cfg.validate = .ok () := by
  cases hvalid : cfg.validate with
  | ok u => rfl
  | error e =>
    rw [reduce, hvalid] at h
    exact absurd rfl h

/-! ## Markers of a step -/

lemma isId_of_mem_publishedMilestones {comments} (h : t ∈ publishedMilestones cfg comments) :
    IsId t.occurrence := by
  obtain ⟨before, c, after, -, hc, -⟩ := mem_publishedMilestones_iff.1 h
  unfold milestoneOf at hc
  split at hc
  · cases hc
  split at hc
  · cases hc
  rename_i occ hocc
  obtain ⟨url, -, rfl⟩ := Option.map_eq_some_iff.1 hc
  exact isId_of_publishedOccurrence hocc

/-- The claim at an occurrence is an id. -/
lemma isId_of_claimEpochAtOccurrence {events} {occurrence : Int} (hsized : Sized cfg events)
    (h : claimEpochAtOccurrence events cfg.principal occurrence = (claim, true)) : IsId claim := by
  obtain ⟨ev, hev, hid, hassigns⟩ := exists_mem_of_claimEpochAtOccurrence h
  exact ⟨(claimEpochAtOccurrence_eq_iff.1 h).1, hid ▸ hsized ev hev (.inl hassigns)⟩

/-- The approval at an occurrence is an id. -/
lemma isId_of_approvalEpochAtOccurrence {events} {occurrence : Int} (hsized : Sized cfg events)
    (h : approvalEpochAtOccurrence events cfg.requiredLabels occurrence = some approval) :
    IsId approval := by
  obtain ⟨ev, hev, hid, happlies⟩ := exists_mem_of_approvalEpochAtOccurrence h
  obtain ⟨before, x, after, -, hanchor⟩ := approvalEpochAtOccurrence_eq_some_iff.1 h
  exact ⟨(completeApprovalEpoch_eq_some hanchor).1, hid ▸ hsized ev hev (.inr happlies)⟩

lemma Decides.isId {s : Snapshot} (hsized : Sized cfg s.log) (hd : Decides cfg s t claim approval) :
    IsId t.occurrence ∧ IsId claim ∧ IsId approval :=
  ⟨isId_of_mem_publishedMilestones (latestPublished_eq_some_iff.1 hd.latest).1,
    isId_of_claimEpochAtOccurrence hsized hd.claimed,
    isId_of_approvalEpochAtOccurrence hsized hd.approved⟩

/-- A review of the controller names full commits and ids. -/
lemma accepted_of_mem_verdicts {s : Snapshot} {p : Published} (h : p ∈ s.verdicts cfg) :
    IsId p.marker.claim ∧ isFullSHA p.marker.head := by
  obtain ⟨r, -, hr⟩ := mem_filterMap.1 h
  obtain ⟨-, -, -, m, hparse, -, hmarker⟩ := controllerReview_eq_some hr
  obtain ⟨-, hclaim, -, hhead⟩ := accepted_of_parseReviewMarker hparse
  obtain ⟨hm, -⟩ | ⟨-, a, hm, -⟩ := hmarker
  · rw [hm]
    exact ⟨hclaim, hhead⟩
  · rw [hm]
    exact ⟨hclaim, hhead⟩

/-- What a route marker is written from is well formed. -/
lemma Reduces.recordRoute_wellFormed {s : Snapshot} (hsized : Sized cfg s.log) {step : Step}
    (hr : Reduces cfg s step) (h : step.kind = .recordRoute) (o) :
    RouteMarker.WellFormed { occurrence := step.occurrence, claim := step.claim, head := step.head
                             outcome := o } := by
  cases hr with
  | idle => cases h
  | resumes hm hresumes =>
    obtain ⟨c, -, hc⟩ := mem_filterMap.1 (mem_unroutedIntents_of_oldestIntent hm)
    split at hc
    · cases hc
    split at hc
    · cases hc
    rename_i m hparse
    split at hc
    · cases hc
    cases hc
    obtain ⟨hocc, hclaim, -, hhead, -⟩ := wellFormed_of_parseRouteIntentMarker hparse
    cases hresumes with
    | idle => cases h
    | revokes => cases h
    | records => exact ⟨hocc, hclaim, hhead⟩
  | completes _ hdone =>
    obtain ⟨htrigger, -, hclaimed, approval, -, ev, place, -, hby⟩ := completed_spec hdone
    obtain ⟨-, -, -, prior, hprior, hhead, -⟩ := completedBy_spec hby
    refine ⟨isId_of_mem_publishedMilestones htrigger,
      isId_of_claimEpochAtOccurrence hsized hclaimed,
      ?_⟩
    rw [hhead]
    exact (accepted_of_mem_verdicts (latestReview_spec hprior).1).2
  | delivers hd hdelivers =>
    cases hdelivers with
    | idle => cases h
    | reviews => cases h
    | stops _ _ hstops =>
      cases hstops with
      | idle => cases h
      | intends => cases h
      | revokes => cases h
      | records hzero => cases hzero
    | routes hcur hroutes =>
      obtain ⟨hclaim, hhead⟩ := accepted_of_mem_verdicts (reviewFor_eq_some hcur).1
      have hocc := (hd.isId hsized).1
      cases hroutes with
      | idle => cases h
      | handsBack => cases h
      | records => exact ⟨hocc, hclaim, hhead⟩
      | stops hstops =>
        cases hstops with
        | idle => cases h
        | intends => cases h
        | revokes => cases h
        | records => exact ⟨hocc, hclaim, hhead⟩

end Ben.Review
