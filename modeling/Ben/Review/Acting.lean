import Ben.Review.Growth

/-!
# What a step of the system adds

The forge only grows.  What a step can add to it is said once (`Moves`): a review by the controller,
an intent, a handoff, a removal of the label, or things that are none of these.  Every invariant of
the runs is a case analysis over it.
-/

namespace Ben.Review

open List

variable [Library] {cfg : Config} {f f' : Forge} {w w' : World} {input : Input} {step : Step}

/-- The forge has grown by some entries, comments and reviews. -/
structure Forge.Extends (f f' : Forge) (events : List Event) (comments : List Comment)
    (reviews : List (Int × Review)) : Prop where
  events : f'.events = f.events ++ events
  comments : f'.comments = f.comments ++ comments
  reviews : f'.reviews = f.reviews ++ reviews

/-- The controller's review of the newest delivery, and what it was decided on. -/
structure Posts (cfg : Config) (f : Forge) (t : Trigger) (claim approval number : Int) (r : Review)
    (m : ReviewMarker) : Prop where
  decides : Decides cfg (f.observe cfg) t claim approval
  links : t.Links number
  round : (reviewForHead (f.verdicts cfg number) t.occurrence claim approval m.head).isSome = true ∨
    m.head ∉
      distinctHeads (cycleReviews cfg f.events (f.verdicts cfg number) t.occurrence approval) ∧
      (distinctHeads (cycleReviews cfg f.events (f.verdicts cfg number) t.occurrence
        approval)).length < cfg.roundCap
  claimed : claimEpoch f.events cfg.principal = claim
  author : r.author = cfg.controller
  state : r.state = reviewStateCommented
  commit : r.commitID = m.head
  submitted : r.submittedAt = f.now
  parse : parseReviewMarker r.body = .ok m
  occurrence : m.occurrence = t.occurrence
  claim : m.claim = claim
  approval : m.approval = approval

/-- The comment is no terminal intent of the controller. -/
def NoIntent (cfg : Config) (c : Comment) : Prop :=
  eqFold c.author cfg.controller = true → ∀ m, parseRouteIntentMarker c.body ≠ .ok m

/-- The input is a step of the controller. -/
def Input.acts : Input → Bool
  | .control _ _ => true
  | _ => false

/-- What a step of the system adds to the forge, and which mutation it executes. -/
inductive Moves (cfg : Config) (w : World) (input : Input) (w' : World) : Prop
  /-- Nothing the controller's decisions are made of. -/
  | quiet {events : List Event} {comments : List Comment} {reviews : List (Int × Review)}
      (hext : w.forge.Extends w'.forge events comments reviews)
      (hevents : ∀ ev ∈ events, isStop cfg ev = false) (hcomments : ∀ c ∈ comments, NoIntent cfg c)
      (hreviews : ∀ p ∈ reviews, eqFold p.2.author cfg.controller = false)
      (hacts : w'.acts = w.acts)
  | verdict {t : Trigger} {claim approval number : Int} {r : Review} {m : ReviewMarker}
      (hacting : input.acts = true) (hposts : Posts cfg w.forge t claim approval number r m)
      (hext : w.forge.Extends w'.forge [] [] [(number, r)]) (hacts : w'.acts = w.acts)
  | intent {t : Trigger} {claim approval : Int} {c : Comment} {m : RouteIntentMarker}
      (hd : Decides cfg (w.forge.observe cfg) t claim approval)
      (hparse : parseRouteIntentMarker c.body = .ok m) (hocc : m.occurrence = t.occurrence)
      (hext : w.forge.Extends w'.forge [] [c] []) (hacts : w'.acts = w.acts)
  | handoff {step : Step} {t : Trigger} {approval : Int} {cur : Published} {ev : Event}
      (hacting : input.acts = true) (hkind : step.kind = .unassign)
      (hoff : Handoff cfg (w.forge.observe cfg) step t approval cur)
      (hunassigns : unassigns cfg.principal ev = true) (htime : ev.createdAt = w.forge.now)
      (hext : w.forge.Extends w'.forge [ev] [] []) (hacts : w'.acts = w.acts ++ [step])
  | revocation {step : Step} {approval : Int} {ev : Event} {tail : List Event}
      (hkind : step.kind = .revoke) (hsource : RevocationSource cfg (w.forge.observe cfg) step)
      (hrev : Revocation cfg (w.forge.observe cfg) step approval) (hstop : isStop cfg ev = true)
      (hremoves : ev.type = .unlabeled ∧
        (requiredLabel cfg.requiredLabels ev.label).isSome = true)
      (htime : ev.createdAt = w.forge.now) (htail : ∀ e ∈ tail, isStop cfg e = false)
      (hext : w.forge.Extends w'.forge (ev :: tail) [] []) (hacts : w'.acts = w.acts ++ [step])

/-! ## The controller's writes -/

omit [Library] in
lemma Forge.extends_postComment (f : Forge) (author body) : f.Extends (f.postComment author body) []
      [{ id := f.nextID + 1, author := author, body := body, createdAt := f.now }] [] :=
  ⟨(append_nil _).symm, rfl, (append_nil _).symm⟩

/-- A step that adds nothing. -/
lemma Moves.still (hevents : w'.forge.events = w.forge.events)
    (hcomments : w'.forge.comments = w.forge.comments)
    (hreviews : w'.forge.reviews = w.forge.reviews) (hacts : w'.acts = w.acts) :
    Moves cfg w input w' := by
  have hext : w.forge.Extends w'.forge [] [] [] := by
    refine ⟨?_, ?_, ?_⟩
    · rw [hevents, append_nil]
    · rw [hcomments, append_nil]
    · rw [hreviews, append_nil]
  exact .quiet hext (by simp) (by simp) (by simp) hacts

/-- The forge is as it was, or the controller posted a comment that is no intent. -/
def States (cfg : Config) (f f' : Forge) : Prop :=
  f' = f ∨ ∃ body, f' = f.postComment cfg.controller body ∧
    ∀ m, parseRouteIntentMarker body ≠ .ok m

lemma States.moves (hacts : w'.acts = w.acts) (h : States cfg w.forge w'.forge) :
    Moves cfg w input w' := by
  obtain h | ⟨body, h, hbody⟩ := h
  · exact .still (by rw [h]) (by rw [h]) (by rw [h]) hacts
  · refine .quiet (h ▸ w.forge.extends_postComment _ _) (by simp) (fun c hc => ?_) (by simp) hacts
    rw [mem_singleton.1 hc]
    exact fun _ => hbody

lemma ne_ok_of_reportsNone {body} (h : MarkerKind.routeIntent.ReportsNone body) (m) :
    parseRouteIntentMarker body ≠ .ok m := by
  rw [MarkerKind.ReportsNone] at h
  rw [h]
  exact fun hm => by cases hm

/-- A review is published, a refusal is stated, or nothing is written. -/
lemma moves_performReview (hord : w.forge.Ordered) (hacting : input.acts) {answer}
    (hr : Reduces cfg (w.forge.observe cfg) step) (h : step.kind = .review)
    (hacts : w'.acts = w.acts) (hforge : w'.forge = performReview cfg w.forge step answer) :
    Moves cfg w input w' := by
  cases hr with
  | idle => cases h
  | resumes hm hresumes => cases hresumes <;> cases h
  | completes => cases h
  | delivers hd hdelivers =>
    cases hdelivers with
    | idle => cases h
    | stops _ _ hstops => cases hstops <;> cases h
    | routes _ hroutes =>
      cases hroutes with
      | idle => cases h
      | records => cases h
      | handsBack => cases h
      | stops hstops => cases hstops <;> cases h
    | reviews hround hlabels hclaim hne hchanges hprofile =>
      rename_i t claim approval why profile
      obtain ⟨number, pr, hlinks, hnumber, hobserved, -, hverdicts, hhead, -, hbase⟩ :=
        hd.subject_eq hord
      obtain ⟨hocc, hclaimId, happrovalId⟩ := hd.isId hord.sized_log
      rw [hobserved] at hforge hround
      rw [hverdicts, hord.log_eq] at hround
      rw [hord.log_eq] at hclaim
      cases answer with
      | unusable => exact States.moves hacts (.inl hforge)
      | refused reason detail =>
        refine States.moves hacts ?_
        rw [hforge, performReview]
        refine iteInduction (fun _ => .inl rfl) fun _ => ?_
        unfold surfaceRefusal
        refine iteInduction (fun _ => .inl rfl) fun hreason => ?_
        refine iteInduction (fun _ => .inl rfl) fun _ => ?_
        split
        · exact .inl rfl
        · refine .inr ⟨_, rfl, ne_ok_of_reportsNone ?_⟩
          refine Carries.reportsNone .reviewBlocked (carries_reviewBlockedBody ?_ detail)
            (by decide)
          exact ⟨hocc, hclaimId, happrovalId, hhead, by simpa using hreason⟩
      | report verdict findings =>
        rw [performReview] at hforge
        by_cases hempty : (pr.base = [] || pr.baseSHA = [])
        · rw [if_pos hempty] at hforge
          exact States.moves hacts (.inl hforge)
        · rw [if_neg hempty, hnumber] at hforge
          let m : ReviewMarker :=
            { occurrence := t.occurrence, claim := claim, approval := approval, head := pr.head
              base := pr.baseSHA, verdict := verdict, reviewerProfile := profile }
          have hm : m.WellFormed := ⟨hocc, hclaimId, happrovalId, hhead, hbase,
            profile_of_selectReviewerProfile hd.valid hprofile⟩
          let r : Review :=
            { id := w.forge.nextID + 1, author := cfg.controller, body := reviewBody m findings
              commitID := pr.head, state := reviewStateCommented, submittedAt := w.forge.now }
          have hposts : Posts cfg w.forge t claim approval number r m :=
            ⟨hd, hlinks, hround, hclaim, rfl, rfl, rfl, rfl,
              parseReviewMarker_reviewBody hm findings,
              rfl, rfl, rfl⟩
          refine .verdict hacting hposts ?_ hacts
          rw [hforge]
          exact ⟨(append_nil _).symm, (append_nil _).symm, rfl⟩

lemma zero_of_mem_verdicts {s : Snapshot} {p : Published} (h : p ∈ s.verdicts cfg) :
    p.zero = false := by
  obtain ⟨r, -, hr⟩ := mem_filterMap.1 h
  unfold controllerReview at hr
  split at hr
  · cases hr
  split at hr
  · cases hr
  split at hr
  · cases hr
  split at hr
  · cases hr
  split at hr
  · dsimp only at hr
    split at hr
    · cases hr
    · rw [← Option.some.inj hr]
  · rw [← Option.some.inj hr]

/-- An intent is for the newest delivery, and names its subject. -/
lemma Reduces.intent {s} (hr : Reduces cfg s step) (h : step.kind = .recordIntent) :
    ∃ t, Decides cfg s t step.claim step.approval ∧ step.occurrence = t.occurrence ∧
      step.head = (observedPR s).head ∧ ∃ o, step.outcome = some o ∧ o ≠ .revise := by
  cases hr with
  | idle => cases h
  | resumes hm hresumes => cases hresumes <;> cases h
  | completes => cases h
  | delivers hd hdelivers =>
    cases hdelivers with
    | idle => cases h
    | reviews => cases h
    | routes hcur hroutes =>
      cases hroutes with
      | idle => cases h
      | records => cases h
      | handsBack => cases h
      | stops hstops =>
        cases hstops with
        | idle => cases h
        | records => cases h
        | revokes => cases h
        | intends hzero =>
          rw [zero_of_mem_verdicts (reviewFor_eq_some hcur).1] at hzero
          cases hzero
    | stops hterminal _ hstops =>
      cases hstops with
      | idle => cases h
      | records => cases h
      | revokes => cases h
      | intends hzero happroval =>
        cases hd.approved.symm.trans happroval
        exact ⟨_, hd, rfl, rfl, _, rfl, hterminal⟩

/-- The comment of an intent is read back as the intent. -/
lemma moves_recordIntent (hord : w.forge.Ordered) (hr : Reduces cfg (w.forge.observe cfg) step)
    (h : step.kind = .recordIntent) (hacts : w'.acts = w.acts) {answer} {crashed : Bool}
    (hforge : w'.forge = apply cfg w.forge step answer crashed) : Moves cfg w input w' := by
  obtain ⟨t, hd, hocc, hhead, o, ho, hterminal⟩ := hr.intent h
  obtain ⟨number, pr, -, -, hobserved, -, -, hsha, -, -⟩ := hd.subject_eq hord
  obtain ⟨hoccId, hclaimId, happrovalId⟩ := hd.isId hord.sized_log
  rw [apply, h] at hforge
  dsimp only at hforge
  rw [ho] at hforge
  dsimp only at hforge
  split at hforge
  · exact States.moves hacts (.inl hforge)
  · have hm : RouteIntentMarker.WellFormed
        { occurrence := step.occurrence, claim := step.claim, approval := step.approval
          head := step.head, outcome := o } := by
      rw [hocc, hhead, hobserved]
      exact ⟨hoccId, hclaimId, happrovalId, hsha, hterminal⟩
    have hparse := parseRouteIntentMarker_routeIntentBody hm step.why
    have hext := w.forge.extends_postComment cfg.controller (routeIntentBody
      { occurrence := step.occurrence, claim := step.claim, approval := step.approval
        head := step.head, outcome := o } step.why)
    rw [← hforge] at hext
    generalize routeIntentBody _ step.why = body at hparse hext
    exact .intent hd hparse hocc hext hacts

/-- The comment of a route is no intent. -/
lemma moves_recordRoute (hord : w.forge.Ordered) (hr : Reduces cfg (w.forge.observe cfg) step)
    (h : step.kind = .recordRoute) (hacts : w'.acts = w.acts) {answer} {crashed : Bool}
    (hforge : w'.forge = apply cfg w.forge step answer crashed) : Moves cfg w input w' := by
  refine States.moves hacts ?_
  rw [hforge, apply, h]
  dsimp only
  cases step.outcome with
  | none => exact .inl rfl
  | some o =>
    dsimp only
    split
    · exact .inl rfl
    · refine .inr ⟨_, rfl, ne_ok_of_reportsNone ?_⟩
      exact Carries.reportsNone .route
        (carries_routeBody (hr.recordRoute_wellFormed hord.sized_log h o) step.why) (by decide)

/-- A handoff is one entry of the log. -/
lemma moves_unassign (hacting : input.acts) (hr : Reduces cfg (w.forge.observe cfg) step)
    (h : step.kind = .unassign) (hacts : w'.acts = w.acts ++ [step]) {answer} {crashed : Bool}
    (hforge : w'.forge = apply cfg w.forge step answer crashed) : Moves cfg w input w' := by
  obtain ⟨t, approval, cur, hoff⟩ := hr.handoff h
  rw [apply, h] at hforge
  let ev : Event := { id := w.forge.nextID + 1, type := .unassigned, actor := cfg.controller
                      assignee := step.principal, label := [], createdAt := w.forge.now }
  have hunassigns : unassigns cfg.principal ev := by
    simp [unassigns, ev, hoff.principal]
  have hext : w.forge.Extends w'.forge [ev] [] [] := by
    rw [hforge]
    exact ⟨rfl, (append_nil _).symm, (append_nil _).symm⟩
  exact .handoff hacting h hoff hunassigns rfl hext hacts

/-- A removal of the label is one entry of the log, with at most the informational label after
it. -/
lemma moves_revoke (hvalid : cfg.validate = .ok ()) (hr : Reduces cfg (w.forge.observe cfg) step)
    (h : step.kind = .revoke) (hacts : w'.acts = w.acts ++ [step]) {answer} {crashed : Bool}
    (hforge : w'.forge = apply cfg w.forge step answer crashed) :
    Moves cfg w input w' := by
  obtain ⟨hsource, approval, hrev⟩ := hr.revocation h
  rw [apply, h] at hforge
  dsimp only at hforge
  let ev : Event := { id := w.forge.nextID + 1, type := .unlabeled, actor := cfg.controller
                      assignee := [], label := cfg.queueLabel, createdAt := w.forge.now }
  have hstop : isStop cfg ev := by
    simp [isStop, ev, eqFold_self]
  have hremoves : ev.type = .unlabeled ∧
      (requiredLabel cfg.requiredLabels ev.label).isSome :=
    ⟨rfl, (validate_eq_ok hvalid).2⟩
  rw [hrev.removes] at hforge
  split at hforge
  · have hext : w.forge.Extends w'.forge [ev] [] [] := by
      rw [hforge]
      exact ⟨rfl, (append_nil _).symm, (append_nil _).symm⟩
    exact .revocation h hsource hrev hstop hremoves rfl (by simp) hext hacts
  · let added : Event :=
      { id := w.forge.nextID + 1 + 1, type := .labeled, actor := cfg.controller
        assignee := [], label := step.addLabel, createdAt := w.forge.now }
    have hext : w.forge.Extends w'.forge [ev, added] [] [] := by
      rw [hforge]
      exact ⟨append_assoc _ _ _, (append_nil _).symm, (append_nil _).symm⟩
    exact .revocation h hsource hrev hstop hremoves rfl (by simp [isStop, added]) hext hacts

/-! ## Every step -/

/-- A step of somebody else that adds one entry. -/
lemma Moves.of_entry {ev} (hext : w.forge.Extends w'.forge [ev] [] [])
    (hstop : isStop cfg ev = false) (hacts : w'.acts = w.acts) : Moves cfg w input w' := by
  refine .quiet hext (fun e he => ?_) (by simp) (by simp) hacts
  rw [mem_singleton.1 he]
  exact hstop

/-- Every step of the system is one of these moves. -/
lemma World.moves (hord : w.forge.Ordered) (h : w.step cfg input = some w') :
    Moves cfg w input w' := by
  unfold World.step at h
  split at h
  swap
  · cases h
  rename_i hguard
  rw [Bool.and_eq_true] at hguard
  obtain ⟨hadmissible, -⟩ := hguard
  cases h
  cases input with
  | control answer crashed =>
    have hr := reduces cfg (w.forge.observe cfg)
    have hvalid : (reduce cfg (w.forge.observe cfg)).kind ≠ .nothing → cfg.validate = .ok () :=
      validate_of_reduce
    rw [World.next]
    generalize reduce cfg (w.forge.observe cfg) = step at hr hvalid
    cases hkind : step.kind with
    | nothing =>
      refine States.moves ?_ (.inl ?_)
      · simp [Step.mutates, hkind]
      · simp only [apply, hkind]
    | review =>
      exact moves_performReview hord rfl hr hkind (by simp [Step.mutates, hkind])
        (by simp only [apply, hkind]; rfl)
    | unassign => exact moves_unassign rfl hr hkind (by simp [Step.mutates, hkind]) rfl
    | revoke =>
      exact moves_revoke (hvalid (by simp [hkind])) hr hkind (by simp [Step.mutates, hkind]) rfl
    | recordIntent => exact moves_recordIntent hord hr hkind (by simp [Step.mutates, hkind]) rfl
    | recordRoute => exact moves_recordRoute hord hr hkind (by simp [Step.mutates, hkind]) rfl
  | wait d => exact Moves.still rfl rfl rfl rfl
  | close closed => exact Moves.still rfl rfl rfl rfl
  | pull number pr => exact Moves.still rfl rfl rfl rfl
  | label actor name =>
    exact .of_entry ⟨rfl, (append_nil _).symm, (append_nil _).symm⟩ (by simp [isStop]) rfl
  | unlabel actor name =>
    refine .of_entry ⟨rfl, (append_nil _).symm, (append_nil _).symm⟩ ?_ rfl
    rw [Input.admissible, Bool.not_eq_true'] at hadmissible
    simp only [isStop, beq_self_eq_true, Bool.true_and]
    exact hadmissible
  | assign actor login =>
    exact .of_entry ⟨rfl, (append_nil _).symm, (append_nil _).symm⟩ (by simp [isStop]) rfl
  | unassign actor login =>
    exact .of_entry ⟨rfl, (append_nil _).symm, (append_nil _).symm⟩ (by simp [isStop]) rfl
  | comment author body =>
    refine .quiet (w.forge.extends_postComment author body) (by simp) (fun c hc => ?_) (by simp) rfl
    rw [mem_singleton.1 hc]
    intro hauthor m hm
    dsimp only at hauthor hm
    simp [Input.admissible, hauthor, hm] at hadmissible
  | review number author commitID body state =>
    refine .quiet ⟨(append_nil _).symm, (append_nil _).symm, rfl⟩ (by simp) (by simp)
      (fun p hp => ?_) rfl
    rw [mem_singleton.1 hp]
    simpa [Input.admissible] using hadmissible

/-! ## Order is kept -/

/-- Ids do not run back, and an ordered forge stays ordered as long as they fit. -/
structure Forge.Keeps (f f' : Forge) : Prop where
  counter : f.nextID ≤ f'.nextID
  ordered : f.Ordered → f'.nextID < 2 ^ 63 → f'.Ordered

section

omit [Library]

lemma Forge.keeps_refl (f : Forge) : f.Keeps f := ⟨le_rfl, fun h _ => h⟩

lemma Forge.Keeps.trans {f''} (h : f.Keeps f') (h' : f'.Keeps f'') : f.Keeps f'' :=
  ⟨h.counter.trans h'.counter,
    fun hord hlt => h'.ordered (h.ordered hord (h'.counter.trans_lt hlt)) hlt⟩

lemma Forge.keeps_issue (f : Forge) (issue) : f.Keeps { f with issue := issue } :=
  ⟨le_rfl, fun h _ => ⟨h.ids, h.times, h.entries, h.comments, h.reviews, h.counter, h.clock⟩⟩

lemma Forge.Ordered.entries_step (h : f.Ordered) :
    ∀ ev ∈ f.events, 0 < ev.id ∧ ev.id ≤ f.nextID + 1 ∧ ev.createdAt ≤ f.now := fun ev hev =>
  ⟨(h.entries ev hev).1, Int.le_add_one (h.entries ev hev).2.1, (h.entries ev hev).2.2⟩

lemma Forge.keeps_record (f : Forge) (type actor assignee label) :
    f.Keeps (f.record type actor assignee label) := by
  refine ⟨(Int.le_add_one le_rfl), fun h hlt => ?_⟩
  refine ⟨?_, ?_, ?_, h.comments, h.reviews, ⟨Int.le_add_one h.counter.1, hlt⟩, h.clock⟩
  · refine pairwise_append.2 ⟨h.ids, pairwise_singleton _ _, fun a ha b hb => ?_⟩
    rw [mem_singleton.1 hb]
    exact Int.lt_add_one_of_le (h.entries a ha).2.1
  · refine pairwise_append.2 ⟨h.times, pairwise_singleton _ _, fun a ha b hb => ?_⟩
    rw [mem_singleton.1 hb]
    exact (h.entries a ha).2.2
  · exact forall_mem_append.2 ⟨h.entries_step,
      forall_mem_singleton.2 ⟨Int.lt_add_one_of_le h.counter.1, le_rfl, le_rfl⟩⟩

lemma Forge.keeps_postComment (f : Forge) (author body) : f.Keeps (f.postComment author body) := by
  refine ⟨Int.le_add_one le_rfl, fun h hlt => ⟨h.ids, h.times, h.entries_step, ?_,
    h.reviews, ⟨Int.le_add_one h.counter.1, hlt⟩, h.clock⟩⟩
  exact forall_mem_append.2 ⟨h.comments, forall_mem_singleton.2 (le_refl f.now)⟩

lemma Forge.keeps_publishReview (f : Forge) (number : Int) (author commitID body state) :
    f.Keeps (f.publishReview number author commitID body state) := by
  refine ⟨Int.le_add_one le_rfl, fun h hlt => ⟨h.ids, h.times, h.entries_step, h.comments, ?_,
    ⟨Int.le_add_one h.counter.1, hlt⟩, h.clock⟩⟩
  exact forall_mem_append.2 ⟨h.reviews, forall_mem_singleton.2 (le_refl f.now)⟩

end

lemma Forge.keeps_unassign (f : Forge) (actor login) : f.Keeps (f.unassign actor login) :=
  (f.keeps_issue _).trans (keeps_record _ _ _ _ _)

omit [Library] in
lemma Forge.keeps_removeLabel (f : Forge) (actor label) : f.Keeps (f.removeLabel actor label) :=
  (f.keeps_issue _).trans (keeps_record _ _ _ _ _)

omit [Library] in
lemma Forge.keeps_addLabel (f : Forge) (actor label) : f.Keeps (f.addLabel actor label) :=
  (f.keeps_issue _).trans (keeps_record _ _ _ _ _)

lemma keeps_performReview (f : Forge) (step answer) :
    f.Keeps (performReview cfg f step answer) := by
  cases answer with
  | unusable => exact f.keeps_refl
  | report verdict findings =>
    rw [performReview]
    exact iteInduction (fun _ => f.keeps_refl) fun _ => f.keeps_publishReview _ _ _ _ _
  | refused reason detail =>
    rw [performReview]
    refine iteInduction (fun _ => f.keeps_refl) fun _ => ?_
    unfold surfaceRefusal
    refine iteInduction (fun _ => f.keeps_refl) fun _ => ?_
    refine iteInduction (fun _ => f.keeps_refl) fun _ => ?_
    split
    · exact f.keeps_refl
    · exact f.keeps_postComment _ _

lemma keeps_apply (f : Forge) (step answer) (crashed : Bool) :
    f.Keeps (apply cfg f step answer crashed) := by
  unfold apply
  cases step.kind with
  | nothing => exact f.keeps_refl
  | review => exact keeps_performReview f step answer
  | unassign => exact f.keeps_unassign _ _
  | revoke =>
    refine iteInduction (fun _ => f.keeps_removeLabel _ _) fun _ => ?_
    exact (f.keeps_removeLabel _ _).trans (Forge.keeps_addLabel _ _ _)
  | recordIntent =>
    dsimp only
    cases step.outcome with
    | none => exact f.keeps_refl
    | some o =>
      dsimp only
      split
      · exact f.keeps_refl
      · exact f.keeps_postComment _ _
  | recordRoute =>
    dsimp only
    cases step.outcome with
    | none => exact f.keeps_refl
    | some o =>
      dsimp only
      split
      · exact f.keeps_refl
      · exact f.keeps_postComment _ _

lemma keeps_next (w : World) (input) : w.forge.Keeps (w.next cfg input).forge := by
  cases input with
  | control answer crashed => exact keeps_apply _ _ _ _
  | wait d =>
    have hle : w.forge.now ≤ w.forge.now + d := Int.le_add_of_nonneg_right (Int.natCast_nonneg d)
    refine ⟨le_rfl, fun h _ => ⟨h.ids, h.times, fun ev hev => ?_, fun c hc => ?_, fun p hp => ?_,
      h.counter, h.clock.trans hle⟩⟩
    · exact ⟨(h.entries ev hev).1, (h.entries ev hev).2.1, (h.entries ev hev).2.2.trans hle⟩
    · exact (h.comments c hc).trans hle
    · exact (h.reviews p hp).trans hle
  | label actor name => exact w.forge.keeps_addLabel _ _
  | unlabel actor name => exact w.forge.keeps_removeLabel _ _
  | assign actor login => exact (w.forge.keeps_issue _).trans (Forge.keeps_record _ _ _ _ _)
  | unassign actor login => exact w.forge.keeps_unassign _ _
  | close closed => exact w.forge.keeps_issue _
  | comment author body => exact w.forge.keeps_postComment _ _
  | pull number pr =>
    exact ⟨le_rfl,
      fun h _ => ⟨h.ids, h.times, h.entries, h.comments, h.reviews, h.counter, h.clock⟩⟩
  | review number author commitID body state => exact w.forge.keeps_publishReview _ _ _ _ _

/-- The forge stays ordered. -/
lemma World.ordered (hord : w.forge.Ordered) (h : w.step cfg input = some w') :
    w'.forge.Ordered := by
  unfold World.step at h
  split at h
  swap
  · cases h
  rename_i hguard
  rw [Bool.and_eq_true, decide_eq_true_eq] at hguard
  cases h
  exact (keeps_next w input).ordered hord hguard.2

/-! ## What was read stays so -/

omit [Library] in
/-- Entries that are appended in order have new ids. -/
lemma at_append_of_ordered {log more} (hids : (log ++ more).Pairwise fun a b => a.id < b.id)
    {n : Int} {before after ev} (hat : Replay.At (hasId n) log before ev after) :
    Replay.At (hasId n) (log ++ more) before ev (after ++ more) := by
  refine hat.append fun e he => hasId_eq_false_iff.2 ?_
  have hlt := (pairwise_append.1 hids).2.2 ev hat.mem e he
  rw [hasId_eq_true_iff.1 hat.pass] at hlt
  exact hlt.ne'

lemma claimEpochAtOccurrence_append {log more}
    (hids : (log ++ more).Pairwise fun a b => a.id < b.id) {n claim : Int}
    (h : claimEpochAtOccurrence log cfg.principal n = (claim, true)) :
    claimEpochAtOccurrence (log ++ more) cfg.principal n = (claim, true) := by
  obtain ⟨hpos, before, ev, after, hat, hclaim⟩ := claimEpochAtOccurrence_eq_iff.1 h
  exact claimEpochAtOccurrence_eq_iff.2
    ⟨hpos, before, ev, after ++ more, at_append_of_ordered hids hat, hclaim⟩

lemma approvalEpochAtOccurrence_append {log more}
    (hids : (log ++ more).Pairwise fun a b => a.id < b.id) {n approval : Int}
    (h : approvalEpochAtOccurrence log cfg.requiredLabels n = some approval) :
    approvalEpochAtOccurrence (log ++ more) cfg.requiredLabels n = some approval := by
  obtain ⟨before, ev, after, hat, hanchor⟩ := approvalEpochAtOccurrence_eq_some_iff.1 h
  exact approvalEpochAtOccurrence_eq_some_iff.2
    ⟨before, ev, after ++ more, at_append_of_ordered hids hat, hanchor⟩

variable {events : List Event} {comments : List Comment} {reviews : List (Int × Review)}
  {number : Int}

omit [Library] in
lemma Forge.Extends.ids (hext : f.Extends f' events comments reviews) (hord' : f'.Ordered) :
    (f.events ++ events).Pairwise fun a b => a.id < b.id :=
  hext.events ▸ hord'.ids

lemma Forge.Extends.mem_milestones
    (hext : f.Extends f' events comments reviews) {t} (h : t ∈ publishedMilestones cfg f.comments) :
    t ∈ publishedMilestones cfg f'.comments := by
  rw [hext.comments]
  exact mem_publishedMilestones_append h comments

/-- An unrouted intent was unrouted before, or is new. -/
lemma mem_unroutedIntents_append {old more m} (h : m ∈ unroutedIntents cfg (old ++ more)) :
    m ∈ unroutedIntents cfg old ∨ ∃ c ∈ more, eqFold c.author cfg.controller ∧
      parseRouteIntentMarker c.body = .ok m := by
  have hroute := routeFor_of_mem_unroutedIntents h
  have hroute' : routeFor cfg old m.occurrence = none := by
    rw [routeFor, findSome?_append, Option.or_eq_none_iff] at hroute
    exact hroute.1
  obtain ⟨c, hc, hm⟩ := mem_filterMap.1 h
  have hown : eqFold c.author cfg.controller ∧ parseRouteIntentMarker c.body = .ok m := by
    split at hm
    · cases hm
    rename_i hauthor
    split at hm
    · cases hm
    rename_i m' hparse
    split at hm
    · cases hm
    cases hm
    exact ⟨by simpa using hauthor, hparse⟩
  obtain hc | hc := mem_append.1 hc
  · refine .inl (mem_filterMap.2 ⟨c, hc, ?_⟩)
    simp [hown.1, hown.2, routeExists, hroute']
  · exact .inr ⟨c, hc, hown⟩

/-! ## The controller's reviews -/

/-- A review of the controller as it left it: for a delivery on the pull request it was posted to,
under the claim and the approval of the delivery, and after the entry that anchors the approval. -/
structure Posted (cfg : Config) (f : Forge) (number : Int) (r : Review) (m : ReviewMarker) :
    Prop where
  parse : parseReviewMarker r.body = .ok m
  state : r.state = reviewStateCommented
  commit : m.head = r.commitID
  claim : claimEpochAtOccurrence f.events cfg.principal m.occurrence = (m.claim, true)
  approval : approvalEpochAtOccurrence f.events cfg.requiredLabels m.occurrence = some m.approval
  anchored : ∃ ev ∈ f.events, ev.id = m.approval ∧ ev.createdAt ≤ r.submittedAt
  submitted : 0 ≤ r.submittedAt
  delivered : ∃ t ∈ publishedMilestones cfg f.comments, t.occurrence = m.occurrence ∧ t.Links number

/-- Every review under the controller's login is one it posted. -/
def Forge.Own (cfg : Config) (f : Forge) : Prop :=
  ∀ p ∈ f.reviews, eqFold p.2.author cfg.controller = true → ∃ m, Posted cfg f p.1 p.2 m

lemma Posted.approval_ne_zero {r} {m : ReviewMarker} (h : Posted cfg f number r m) :
    m.approval ≠ 0 := by
  obtain ⟨before, ev, after, -, hanchor⟩ := approvalEpochAtOccurrence_eq_some_iff.1 h.approval
  exact (completeApprovalEpoch_eq_some hanchor).1.ne'

/-- Such a review is one of the verdicts, as its marker reads. -/
lemma Posted.controllerReview {r : Review} {m} (h : Posted cfg f number r m)
    (hauthor : eqFold r.author cfg.controller) (events) :
    controllerReview cfg events 0 r = some { review := r, marker := m } := by
  rw [Review.controllerReview, if_neg (by simp [hauthor, h.state]),
    if_neg (not_lt.2 h.submitted), h.parse]
  dsimp only
  rw [if_neg (not_not.2 h.commit), if_neg h.approval_ne_zero]

lemma Posted.mono (hext : f.Extends f' events comments reviews) (hord' : f'.Ordered) {r m}
    (h : Posted cfg f number r m) : Posted cfg f' number r m := by
  obtain ⟨ev, hev, hid, htime⟩ := h.anchored
  obtain ⟨t, ht, hocc, hlinks⟩ := h.delivered
  refine ⟨h.parse, h.state, h.commit, ?_, ?_,
    ⟨ev, hext.events ▸ mem_append_left _ hev, hid, htime⟩, h.submitted,
    ⟨t, hext.mem_milestones ht, hocc, hlinks⟩⟩
  · rw [hext.events]
    exact claimEpochAtOccurrence_append (hext.ids hord') h.claim
  · rw [hext.events]
    exact approvalEpochAtOccurrence_append (hext.ids hord') h.approval

/-- What the controller posts is one. -/
lemma Posts.posted (hord : f.Ordered) {t} {claim approval : Int} {r m}
    (h : Posts cfg f t claim approval number r m) : Posted cfg f number r m := by
  have hclaimed := h.decides.claimed
  have happroved := h.decides.approved
  have hlatest := h.decides.latest
  rw [hord.log_eq] at hclaimed happroved
  rw [Forge.observe_comments] at hlatest
  obtain ⟨ev, hev, hid, -⟩ := exists_mem_of_approvalEpochAtOccurrence happroved
  refine ⟨h.parse, h.state, h.commit.symm, ?_, ?_, ⟨ev, hev, hid.trans h.approval.symm, ?_⟩, ?_,
    ⟨t, (latestPublished_eq_some_iff.1 hlatest).1, h.occurrence.symm, h.links⟩⟩
  · rw [h.occurrence, h.claim]
    exact hclaimed
  · rw [h.occurrence, h.approval]
    exact happroved
  · rw [h.submitted]
    exact (hord.entries ev hev).2.2
  · rw [h.submitted]
    exact hord.clock

lemma Forge.Own.mono (h : f.Own cfg)
    (hext : f.Extends f' events comments reviews) (hord' : f'.Ordered)
    (hreviews : ∀ p ∈ reviews, eqFold p.2.author cfg.controller →
      ∃ m, Posted cfg f' p.1 p.2 m) : f'.Own cfg := by
  intro p hp hauthor
  rw [hext.reviews] at hp
  obtain hp | hp := mem_append.1 hp
  · obtain ⟨m, hm⟩ := h p hp hauthor
    exact ⟨m, hm.mono hext hord'⟩
  · exact hreviews p hp hauthor

/-- The controller's reviews stay its own. -/
lemma Moves.own (hord : w.forge.Ordered) (hord' : w'.forge.Ordered) (hmoves : Moves cfg w input w')
    (h : w.forge.Own cfg) : w'.forge.Own cfg := by
  cases hmoves with
  | quiet hext _ _ hreviews =>
    refine h.mono hext hord' fun p hp hauthor => ?_
    rw [hreviews p hp] at hauthor
    cases hauthor
  | verdict _ hposts hext =>
    refine h.mono hext hord' fun p hp _ => ?_
    rw [mem_singleton.1 hp]
    exact ⟨_, (hposts.posted hord).mono hext hord'⟩
  | intent _ _ _ hext => exact h.mono hext hord' (by simp)
  | handoff _ _ _ _ _ hext => exact h.mono hext hord' (by simp)
  | revocation _ _ _ _ _ _ _ hext => exact h.mono hext hord' (by simp)

/-- The verdicts on a pull request are the reviews the controller posted there. -/
lemma Forge.Own.mem_verdicts_iff (hown : f.Own cfg) {p} :
    p ∈ f.verdicts cfg number ↔ ∃ r m, (number, r) ∈ f.reviews ∧
      eqFold r.author cfg.controller ∧ Posted cfg f number r m ∧
      p = { review := r, marker := m } := by
  rw [Forge.verdicts, controllerReviews, mem_filterMap]
  constructor
  · rintro ⟨r, hr, hp⟩
    obtain ⟨⟨n, r'⟩, hmem, rfl⟩ := mem_map.1 hr
    rw [mem_filter, beq_iff_eq] at hmem
    obtain ⟨hmem, rfl⟩ := hmem
    have hauthor := (controllerReview_eq_some hp).2.1
    obtain ⟨m, hposted⟩ := hown _ hmem hauthor
    rw [hposted.controllerReview hauthor, Option.some.injEq] at hp
    exact ⟨r', m, hmem, hauthor, hposted, hp.symm⟩
  · rintro ⟨r, m, hmem, hauthor, hposted, rfl⟩
    exact ⟨r, mem_map.2 ⟨(number, r), mem_filter.2 ⟨hmem, by simp⟩, rfl⟩,
      hposted.controllerReview hauthor _⟩

end Ben.Review
