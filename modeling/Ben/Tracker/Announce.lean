import Ben.Lib.Runs
import Ben.Tracker.Milestone

/-!
# One comment for an occurrence

A milestone is announced at most once: its comment carries a marker that names the label transition
it belongs to, and a call that finds the marker on the issue posts nothing.  The search takes the
text of every comment, whoever wrote it.  So a call decides by the comments of its own account only
as long as nobody else quotes the marker it looks for, and two comments of that account carry one
marker only where one of them quotes it in its text.
-/

namespace Ben.Tracker

open List hiding contains
open Ben.Review

/-! ## The occurrence -/

/-- The label transition an occurrence belongs to. -/
structure MilestoneAnchor where
  id : Int
  at_ : Time
  deriving DecidableEq

def anchorOf (ev : IssueEvent) : MilestoneAnchor := ⟨ev.id, ev.createdAt⟩

section

variable [CaseFold]

def labeledWith (ev : IssueEvent) (kind : EventName) (labels : List StateLabel) : Bool :=
  ev.event = kind && labels.any fun l => equalFold ev.label ("ben:" ++ l.name)

/-- The most recent transition of the kind that names one of the labels. -/
def lastTransition (events : List IssueEvent) (kind : EventName) (labels : List StateLabel) :
    Option MilestoneAnchor :=
  events.foldl (fun anchor ev =>
    if labeledWith ev kind labels then some (anchorOf ev) else anchor) none

/-- Which occurrence of a milestone this is.  A claim is announced at the first `claimed` label of
its cycle, the others at their last transition. -/
def milestoneOccurrence (events : List IssueEvent) (number : Int) (m : Milestone)
    (principal : String) : Except Text MilestoneAnchor :=
  let missing : Text := txt "no label transition anchoring this milestone: issue #" ++ itoa number
  let last (kind : EventName) (labels : List StateLabel) : Except Text MilestoneAnchor :=
    (lastTransition events kind labels).elim (.error (missing ++
      txt " carries no label transition anchoring the \"" ++ txt m.name ++ txt "\" milestone")) .ok
  match m with
  | .claimed =>
    match (replayAssignments events).held.lookup (toLower principal) with
    | none => .error (missing ++ txt " has no standing assignment to " ++ txt principal ++
        txt " to scope its claim milestone")
    | some start =>
      match events.find? fun ev => start.id ≤ ev.id && labeledWith ev .labeled [.claimed] with
      | some ev => .ok (anchorOf ev)
      | none => .error (missing ++
          txt " carries no label transition anchoring the \"claimed\" milestone")
  | .needsReview => last .labeled [.needsReview]
  | .failed => last .labeled [.failed]
  | .published => last .unlabeled [.claimed, .running]
  | .none => .error (txt "not a SPEC §8.4 milestone: \"\"")

lemma mem_of_lastTransition {events kind labels anchor}
    (h : lastTransition events kind labels = some anchor) :
    ∃ ev ∈ events, anchor = anchorOf ev := by
  induction events using List.reverseRecOn with
  | nil => cases h
  | append_singleton events ev ih =>
    rw [lastTransition, foldl_append, foldl_cons, foldl_nil] at h
    split at h
    · exact ⟨ev, by simp, (Option.some.inj h).symm⟩
    · obtain ⟨ev', hmem, heq⟩ := ih h
      exact ⟨ev', mem_append_left _ hmem, heq⟩

/-- An occurrence is an entry of the log. -/
lemma mem_of_milestoneOccurrence {events} {number : Int} {m principal anchor}
    (h : milestoneOccurrence events number m principal = .ok anchor) :
    ∃ ev ∈ events, anchor = anchorOf ev := by
  have hlast : ∀ {kind labels} {err : Text},
      (lastTransition events kind labels).elim (.error err) .ok = Except.ok anchor →
      ∃ ev ∈ events, anchor = anchorOf ev := by
    intro kind labels err h
    cases hfound : lastTransition events kind labels with
    | none =>
      rw [hfound] at h
      cases h
    | some a =>
      rw [hfound] at h
      cases h
      exact mem_of_lastTransition hfound
  cases m with
  | none => cases h
  | claimed =>
    simp only [milestoneOccurrence] at h
    split at h
    · cases h
    split at h
    · next ev hfind =>
      cases h
      exact ⟨ev, mem_of_find?_eq_some hfind, rfl⟩
    · cases h
  | published => exact hlast h
  | failed => exact hlast h
  | needsReview => exact hlast h

/-! ## One call -/

/-- A comment of the issue. -/
structure IssueComment where
  author : String
  body : Text
  updatedAt : Time
  deriving DecidableEq

/-- The comments last updated after an instant; the forge documents the comparison as strict and
makes it inclusive. -/
def listComments (inclusive : Bool) (since : Option Time) (comments : List IssueComment) :
    List IssueComment :=
  comments.filter fun cm =>
    since.all fun t => if inclusive then t ≤ cm.updatedAt else t < cm.updatedAt

/-- Whether a comment since a second before the anchor carries the marker.  An anchor without a
time has all comments read. -/
def hasMarker (inclusive : Bool) (comments : List IssueComment) (marker : Text)
    (anchoredAt : Time) : Bool :=
  (listComments inclusive (if anchoredAt = 0 then none else some (anchoredAt - 1000000000))
    comments).any fun cm => contains cm.body marker

/-- Where a marker is looked for the account's comments carry it, or those of everybody else do in
both lists or in neither. -/
def Undivided (account : String) (inclusive : Bool) (comments1 comments2 : List IssueComment)
    (marker : Text) (anchoredAt : Time) : Prop :=
  hasMarker inclusive (comments1.filter (·.author = account)) marker anchoredAt ∨
    hasMarker inclusive (comments1.filter (·.author ≠ account)) marker anchoredAt =
      hasMarker inclusive (comments2.filter (·.author ≠ account)) marker anchoredAt

/-- What a call decides. -/
inductive Decision where
  | failed (err : Text)
  | present
  | post (body : Text)
  deriving DecidableEq

def comment (inclusive : Bool) (number : Int) (daemon principal : String)
    (events : List IssueEvent) (comments : List IssueComment) (c : MilestoneComment) : Decision :=
  match renderMilestone c daemon principal with
  | .error err => .failed err
  | .ok rendered =>
    match milestoneOccurrence events number c.milestone principal with
    | .error err => .failed err
    | .ok anchor =>
      if hasMarker inclusive comments (milestoneMarker c.milestone anchor.id) anchor.at_ then
        .present
      else .post (commentBody rendered c.milestone anchor.id)

/-- What a call that posts has found. -/
lemma comment_eq_post {inclusive : Bool} {number : Int} {daemon principal events comments}
    {c : MilestoneComment} {body}
    (h : comment inclusive number daemon principal events comments c = .post body) :
    ∃ rendered, ∃ ev ∈ events, renderMilestone c daemon principal = .ok rendered ∧
      hasMarker inclusive comments (milestoneMarker c.milestone ev.id) ev.createdAt = false ∧
      body = commentBody rendered c.milestone ev.id := by
  rw [comment] at h
  split at h
  · cases h
  next rendered hrendered =>
  split at h
  · cases h
  next anchor hanchor =>
  obtain ⟨ev, hev, rfl⟩ := mem_of_milestoneOccurrence hanchor
  split at h
  · cases h
  next hmarker =>
  exact ⟨rendered, ev, hev, hrendered, Bool.eq_false_of_not_eq_true hmarker,
    (Decision.post.inj h).symm⟩

end

/-! ## Markers in comments -/

lemma opening_isInfix (m) (occurrence : Int) : opening <:+: milestoneMarker m occurrence := by
  rw [milestoneMarker_eq, renderMarker, opening, append_assoc _ (join _ _)]
  exact (prefix_append _ _).isInfix

lemma contains_eq_true {s sub} : contains s sub ↔ sub <:+: s := by
  rw [← not_iff_not, Bool.not_eq_true, contains_eq_false]

/-- What stands in a marker between its angle brackets. -/
def inMarker (m : Milestone) (occurrence : Int) : Text :=
  txt "!-- ben:milestone kind=" ++ txt m.name ++ txt " occurrence=" ++ itoa occurrence ++ txt " --"

lemma milestoneMarker_brackets (m) (occurrence : Int) :
    milestoneMarker m occurrence = 60 :: (inMarker m occurrence ++ [62]) := by
  rw [milestoneMarker, inMarker, show txt "<!-- ben:milestone kind=" =
      60 :: txt "!-- ben:milestone kind=" by decide,
    show txt " -->" = txt " --" ++ [62] by decide]
  simp

lemma not_mem_inMarker (m) (occurrence : Int) {b} (hb : b = 60 ∨ b = 62) :
    b ∉ inMarker m occurrence := by
  have hplain : ∀ n : Nat, b ∉ Decimal.ofNat n := fun n hmem =>
    absurd (plainByte_of_word (.inr (.inl (Decimal.mem_ofNat hmem)))) (by
      obtain rfl | rfl := hb <;> decide)
  have hitoa : b ∉ itoa occurrence := by
    cases occurrence with
    | ofNat n => exact hplain n
    | negSucc n =>
      rw [itoa, Decimal.ofInt, mem_cons, not_or]
      exact ⟨by obtain rfl | rfl := hb <;> decide, hplain _⟩
  rw [inMarker, mem_append, mem_append, mem_append, mem_append]
  simp only [hitoa, or_false]
  obtain rfl | rfl := hb <;> cases m <;> decide

/-- The only marker in a comment that quotes none is its own. -/
lemma marker_eq_of_contains {rendered k m} {i occurrence : Int} (hrendered : Unopened rendered)
    (h : contains (commentBody rendered k i) (milestoneMarker m occurrence)) :
    milestoneMarker m occurrence = milestoneMarker k i := by
  have hpre : ¬ milestoneMarker m occurrence <:+: rendered ++ [10] := fun hin =>
    Unopened.append_cons (by decide) hrendered (by decide : Unopened [])
      ((opening_isInfix m occurrence).trans hin)
  have hfree : ∀ n j, (60 : UInt8) ∉ inMarker n j ++ [62] := fun n j => by
    rw [mem_append, not_or]
    exact ⟨not_mem_inMarker n j (.inl rfl), by decide⟩
  rw [contains_eq_true, commentBody, milestoneMarker_brackets k, show txt "\n" = [10] by decide,
    append_assoc _ (60 :: _), cons_append] at h
  rw [milestoneMarker_brackets m] at h hpre
  have hend := Scan.prefix_of_infix_append_cons (hfree m occurrence) (by
    rw [mem_append, not_or]
    exact ⟨hfree k i, by decide⟩) hpre h
  rw [append_assoc] at hend
  have heq := Scan.eq_of_append_cons_prefix (not_mem_inMarker m occurrence (.inr rfl))
    (not_mem_inMarker k i (.inr rfl)) hend
  rw [milestoneMarker_brackets, milestoneMarker_brackets, heq]

/-- A marker names one occurrence. -/
lemma id_eq_of_marker_eq {k m} {i j : Int} (hi : IsId i) (hj : IsId j)
    (h : milestoneMarker m i = milestoneMarker k j) : i = j := by
  let _ : Review.Library := plainLibrary
  have hread : ∀ n l, IsId l → parseMarker (milestoneMarker n l ++ txt "\n") markerMilestone =
      .ok [(txt "kind", txt n.name), (txt "occurrence", itoa l)] := fun n l hl => by
    have hnil : ¬ txt "<!-- " ++ markerMilestone ++ txt " " <:+: [] :=
      (by decide : Unopened [])
    rw [milestoneMarker_eq]
    exact parseMarker_of_unopened hnil (by decide +kernel) (renderable_milestone n hl)
  have hfields := hread m i hi
  rw [h, hread k j hj] at hfields
  have hdigits : itoa j = itoa i := Option.some.inj
    (congrArg (fun fs : Fields => fs.getLast?.map Prod.snd) (Except.ok.inj hfields))
  have hvalue := congrArg Decimal.readInt hdigits
  rw [itoa, itoa, Decimal.readInt_ofInt hi.1.le hi.2, Decimal.readInt_ofInt hj.1.le hj.2] at hvalue
  exact (Option.some.inj hvalue).symm

/-! ## Whole runs -/

/-- The forge's side of one issue: its clock, the log and the comments. -/
structure Server where
  clock : Time
  log : List IssueEvent
  comments : List IssueComment

/-- A call, with whether its request reaches the forge before the daemon is gone, or anything else
that happens. -/
inductive Act where
  | call (c : MilestoneComment) (daemon principal : String) (lands : Bool)
  | outside (s : Server)

section

variable (account : String) (stamp : Int → Time)

/-- The comments of the daemon's account. -/
def Server.own (s : Server) : List IssueComment := s.comments.filter (·.author = account)

/-- Entries have ids, an entry keeps its time, and no entry is of the future. -/
def Server.Logged (s : Server) : Prop :=
  ∀ ev ∈ s.log, IsId ev.id ∧ ev.createdAt = stamp ev.id ∧ ev.createdAt ≤ s.clock

instance (s : Server) : Decidable (s.Logged stamp) :=
  decidable_of_iff (s.log.all fun ev => decide (IsId ev.id ∧ ev.createdAt = stamp ev.id ∧
    ev.createdAt ≤ s.clock)) (by simp [Server.Logged])

/-- Others write, change and delete what they like; the comments of the account they can only
delete. -/
def Server.step [CaseFold] (inclusive : Bool) (number : Int) (s : Server) : Act → Option Server
  | .call c daemon principal lands =>
    match comment inclusive number daemon principal s.log s.comments c with
    | .post body =>
      if lands then some { s with comments := s.comments ++ [⟨account, body, s.clock⟩] } else some s
    | _ => some s
  | .outside s' =>
    if s.clock ≤ s'.clock ∧ s'.Logged stamp ∧ (s'.own account).isSublist (s.own account) then
      some s'
    else none

/-- A comment of the account is a milestone's that quotes no marker, posted no earlier than the
transition it names, or carries no marker at all. -/
def Carrier (cm : IssueComment) : Prop :=
  Unopened cm.body ∨ ∃ rendered m occurrence, Unopened rendered ∧ IsId occurrence ∧
    cm.body = commentBody rendered m occurrence ∧ stamp occurrence ≤ cm.updatedAt

/-- No marker is in both comments. -/
def Apart (a b : IssueComment) : Prop :=
  ∀ m occurrence, contains a.body (milestoneMarker m occurrence) = true →
    contains b.body (milestoneMarker m occurrence) = false

/-- What holds of the issue throughout. -/
structure Server.Once (s : Server) : Prop where
  logged : s.Logged stamp
  carriers : ∀ cm ∈ s.own account, Carrier stamp cm
  apart : (s.own account).Pairwise Apart

end

/-- No milestone marker opens in the texts a comment is made of. -/
structure Quiet (c : MilestoneComment) (daemon principal : String) : Prop where
  detail : Unopened (txt c.detail)
  daemon : Unopened (txt daemon)
  prURL : Unopened (txt c.prURL)
  principal : Unopened (txt principal)

/-- Of what it is given to post, a call quotes no marker. -/
def Act.Quiet : Act → Prop
  | .call c daemon principal _ => Tracker.Quiet c daemon principal
  | .outside _ => True

lemma unopened_renderMilestone {c daemon principal rendered} (hquiet : Quiet c daemon principal)
    (h : renderMilestone c daemon principal = .ok rendered) :
    Unopened rendered := by
  have hline : ∀ {headline l : Text}, Unopened headline → Unopened l →
      Unopened (headline ++ txt "\n\n" ++ join (txt "\n") ([l] ++ commonLines c daemon) ++
        txt "\n") := fun hhead hl =>
    unopened_render hhead (fun l' hl' => mem_singleton.1 hl' ▸ hl) hquiet.detail hquiet.daemon
  unfold renderMilestone at h
  cases hkind : c.milestone with
  | none =>
    rw [hkind] at h
    cases h
  | claimed =>
    rw [hkind] at h
    cases h
    refine hline (by decide) ?_
    rw [field, ← append_assoc]
    exact Unopened.append_left (by decide) hquiet.principal
  | published =>
    exact (renderMilestone_published hkind h).2.2 hquiet.detail hquiet.daemon hquiet.prURL
  | failed =>
    rw [hkind] at h
    dsimp only at h
    split at h
    · cases h
    cases h
    refine hline (by decide) ?_
    split
    · decide
    · cases c.reason <;> decide
  | needsReview =>
    rw [hkind] at h
    cases h
    exact unopened_render (by decide) (fun l hl => absurd hl not_mem_nil)
      hquiet.detail hquiet.daemon

section

variable [CaseFold] {account : String} {stamp : Int → Time} {inclusive : Bool} {number : Int}
  {s s' : Server}

omit [CaseFold] in
/-- A comment of the account that carries the marker of an occurrence is found. -/
lemma hasMarker_of_carrier {cm : IssueComment} {m} {occurrence : Int} (hocc : IsId occurrence)
    (hcm : cm ∈ s.comments) (hcarrier : Carrier stamp cm)
    (h : contains cm.body (milestoneMarker m occurrence)) :
    hasMarker inclusive s.comments (milestoneMarker m occurrence) (stamp occurrence) := by
  obtain hnone | ⟨rendered, k, i, hrendered, hi, hbody, hstamp⟩ := hcarrier
  · exact absurd ((opening_isInfix m occurrence).trans (contains_eq_true.1 h)) hnone
  rw [hbody] at h
  obtain rfl := id_eq_of_marker_eq hocc hi (marker_eq_of_contains hrendered h)
  rw [hasMarker, any_eq_true]
  refine ⟨cm, mem_filter.2 ⟨hcm, ?_⟩, hbody ▸ h⟩
  -- the second of slack makes both readings of the comparison include the comment
  have hslack : stamp occurrence - 1000000000 < cm.updatedAt :=
    (sub_lt_self _ (by decide)).trans_le hstamp
  by_cases hzero : stamp occurrence = 0
  · rw [if_pos hzero]
    rfl
  · rw [if_neg hzero, Option.all_some]
    cases inclusive with
    | true => exact decide_eq_true hslack.le
    | false => exact decide_eq_true hslack

/-- One step keeps every occurrence announced once. -/
lemma Server.Once.step (h : s.Once account stamp) {a : Act} (hquiet : a.Quiet)
    (hstep : s.step account stamp inclusive number a = some s') : s'.Once account stamp := by
  cases a with
  | outside s1 =>
    rw [Server.step] at hstep
    split at hstep
    · next hout =>
      cases hstep
      have hsub := isSublist_iff_sublist.1 hout.2.2
      exact ⟨hout.2.1, fun cm hcm => h.carriers cm (hsub.subset hcm), h.apart.sublist hsub⟩
    · cases hstep
  | call c daemon principal lands =>
    rw [Server.step] at hstep
    split at hstep
    · next body hpost =>
      split at hstep
      · cases hstep
        obtain ⟨rendered, ev, hev, hrendered, hmarker, rfl⟩ := comment_eq_post hpost
        obtain ⟨hid, htime, hpast⟩ := h.logged ev hev
        have hunopened := unopened_renderMilestone hquiet hrendered
        have hown : ({ s with comments := s.comments ++
              [⟨account, commentBody rendered c.milestone ev.id, s.clock⟩] } : Server).own account =
            s.own account ++ [⟨account, commentBody rendered c.milestone ev.id, s.clock⟩] := by
          rw [Server.own, filter_append, filter_cons_of_pos (by simp), filter_nil]
          rfl
        refine ⟨h.logged, ?_, ?_⟩
        · rw [hown, forall_mem_append, forall_mem_singleton]
          exact ⟨h.carriers,
            .inr ⟨rendered, c.milestone, ev.id, hunopened, hid, rfl, htime ▸ hpast⟩⟩
        · rw [hown, pairwise_append]
          refine ⟨h.apart, pairwise_singleton _ _, fun a ha b hb m occurrence hin => ?_⟩
          rw [mem_singleton.1 hb]
          by_contra hboth
          -- a marker in both is the new comment's own, and the call would have found it
          rw [marker_eq_of_contains hunopened (Bool.eq_true_of_not_eq_false hboth)] at hin
          rw [htime, hasMarker_of_carrier hid (mem_filter.1 ha).1 (h.carriers a ha) hin]
            at hmarker
          cases hmarker
      · cases hstep
        exact h
    · cases hstep
      exact h

omit [CaseFold] in
/-- A search finds what the account's comments carry and what everybody else's do. -/
lemma hasMarker_split (account : String) (comments : List IssueComment) (marker : Text) (t : Time) :
    hasMarker inclusive comments marker t =
      (hasMarker inclusive (comments.filter (·.author = account)) marker t ||
        hasMarker inclusive (comments.filter (·.author ≠ account)) marker t) := by
  induction comments with
  | nil => rfl
  | cons cm comments ih =>
    simp only [hasMarker, listComments, any_filter, any_cons] at ih ⊢
    rw [ih]
    by_cases hauthor : cm.author = account <;> simp [hauthor, Bool.or_left_comm, Bool.or_assoc]

/-- Two lists lead to one decision when the search for the marker of the call ends alike. -/
lemma comment_eq_iff {daemon principal events} {comments1 comments2 : List IssueComment}
    {c : MilestoneComment} :
    comment inclusive number daemon principal events comments1 c =
        comment inclusive number daemon principal events comments2 c ↔
      ∀ rendered anchor, renderMilestone c daemon principal = .ok rendered →
        milestoneOccurrence events number c.milestone principal = .ok anchor →
        hasMarker inclusive comments1 (milestoneMarker c.milestone anchor.id) anchor.at_ =
          hasMarker inclusive comments2 (milestoneMarker c.milestone anchor.id) anchor.at_ := by
  rw [comment, comment]
  cases hrendered : renderMilestone c daemon principal with
  | error err => simp
  | ok rendered =>
    cases hanchor : milestoneOccurrence events number c.milestone principal with
    | error err => simp
    | ok anchor =>
      simp only [Except.ok.injEq]
      split <;> split <;> simp [*]

end

/-- Beside the same comments of its account a call decides alike exactly if the account's own carry
the marker the call looks for, or somebody else's do in both lists or in neither.  As long as what
it is given to post quotes no marker, calls that are cut short and made again leave at most one
comment of the account with the marker of an occurrence. -/
theorem announced_once [CaseFold] (account : String) (stamp : Int → Time) (inclusive : Bool)
    (number : Int) :
    (∀ daemon principal events c (comments1 comments2 : List IssueComment),
      comments1.filter (·.author = account) = comments2.filter (·.author = account) →
      (comment inclusive number daemon principal events comments1 c =
          comment inclusive number daemon principal events comments2 c ↔
        ∀ rendered anchor, renderMilestone c daemon principal = .ok rendered →
          milestoneOccurrence events number c.milestone principal = .ok anchor →
          Undivided account inclusive comments1 comments2 (milestoneMarker c.milestone anchor.id)
            anchor.at_)) ∧
    ∀ (s : Server) (acts : List Act) (s' : Server), s.Logged stamp →
      (∀ cm ∈ s.own account, Unopened cm.body) → (∀ a ∈ acts, a.Quiet) →
      Runs.run (Server.step account stamp inclusive number) s acts = some s' →
      ∀ m occurrence, ((s'.own account).filter fun cm =>
        contains cm.body (milestoneMarker m occurrence)).length ≤ 1 := by
  constructor
  · intro daemon principal events c comments1 comments2 hsame
    have hmarker : ∀ marker t, hasMarker inclusive comments1 marker t =
        hasMarker inclusive comments2 marker t ↔
          Undivided account inclusive comments1 comments2 marker t := by
      intro marker t
      rw [hasMarker_split account comments1, hasMarker_split account comments2, ← hsame, Undivided]
      cases hasMarker inclusive (comments1.filter (·.author = account)) marker t <;> simp
    simp only [comment_eq_iff, hmarker]
  · intro s acts s' hlogged hfresh hquiet hrun m occurrence
    have hstart : s.Once account stamp := by
      refine ⟨hlogged, fun cm hcm => .inl (hfresh cm hcm), ?_⟩
      refine pairwise_of_forall_mem_list fun a ha b _ m occurrence hin => ?_
      exact absurd ((opening_isInfix m occurrence).trans (contains_eq_true.1 hin)) (hfresh a ha)
    have honce := Runs.invariant (fun _ _ _ h hq hstep => Server.Once.step h hq hstep) hstart
      ((Runs.along_true s acts).and_all hquiet |>.mono fun _ _ h => h.2) hrun
    have hpair := honce.apart.sublist
      (filter_sublist (p := fun cm => contains cm.body (milestoneMarker m occurrence)))
    cases hlist : (s'.own account).filter fun cm =>
        contains cm.body (milestoneMarker m occurrence) with
    | nil => exact Nat.zero_le 1
    | cons a rest =>
      cases rest with
      | nil => exact Nat.le_refl 1
      | cons b rest =>
        have hcarries : ∀ cm ∈ a :: b :: rest,
            contains cm.body (milestoneMarker m occurrence) = true := by
          intro cm hcm
          rw [← hlist] at hcm
          have hin := (mem_filter.1 hcm).2
          exact hin
        rw [hlist, pairwise_cons] at hpair
        have hno := hpair.1 b (.head _) m occurrence (hcarries a (.head _))
        rw [hcarries b (by simp)] at hno
        cases hno

namespace Sample

/-- An issue that was delivered and parked. -/
def parked : Server where
  clock := 50
  log := [{ id := 1001, event := .unlabeled, label := "ben:claimed", createdAt := 40 },
    { id := 1002, event := .labeled, label := "ben:needs-review", createdAt := 40 }]
  comments := []

/-- The call that announces the parking. -/
def park (lands : Bool) : Act :=
  .call { milestone := .needsReview } "host/ben" "ben-claim-bot" lands

/-- A comment of somebody else. -/
def foreign (body : Text) : IssueComment := ⟨"somebody", body, 45⟩

/-- What the announcement of the parking decides among the comments. -/
def decided [CaseFold] (comments : List IssueComment) : Decision :=
  comment true 11 "host/ben" "ben-claim-bot" parked.log comments { milestone := .needsReview }

end Sample

/-- An announcement that is cut short and made twice again, beside a comment that quotes the marker
of another. -/
theorem announced_once_parked : let _ : CaseFold := asciiFold
    Sample.decided [] = Sample.decided [Sample.foreign (milestoneMarker .published 1001)] ∧
    ∃ s', Runs.run (Server.step "ben-bot" (fun _ => 40) true 11) Sample.parked
        [Sample.park false, Sample.park true, Sample.park true] = some s' ∧
      ((s'.own "ben-bot").filter fun cm =>
        contains cm.body (milestoneMarker .needsReview 1002)).length ≤ 1 := by
  intro _
  have honce := announced_once "ben-bot" (fun _ => 40) true 11
  have hquiet : Quiet { milestone := .needsReview } "host/ben" "ben-claim-bot" :=
    ⟨by decide, by decide, by decide, by decide⟩
  have hsome : (Runs.run (Server.step "ben-bot" (fun _ => 40) true 11) Sample.parked
      [Sample.park false, Sample.park true, Sample.park true]).isSome = true := by decide +kernel
  obtain ⟨s', hrun⟩ := Option.isSome_iff_exists.1 hsome
  refine ⟨(honce.1 _ _ _ _ _ _ (by decide)).2 fun _ anchor _ hanchor => ?_, s', hrun, ?_⟩
  · obtain rfl : ⟨1002, 40⟩ = anchor := Except.ok.inj hanchor
    exact .inr (by decide +kernel)
  refine honce.2 Sample.parked _ s' (by decide) (by decide) (fun a ha => ?_) hrun
    .needsReview 1002
  simp only [mem_cons, not_mem_nil, or_false] at ha
  obtain rfl | rfl | rfl := ha
  · exact hquiet
  · exact hquiet
  · exact hquiet

/-- A comment of somebody else with the marker silences the announcement. -/
theorem marker_quoted : let _ : CaseFold := asciiFold
    Sample.decided [] ≠ Sample.decided [Sample.foreign (milestoneMarker .needsReview 1002)] := by
  decide +kernel

end Ben.Tracker
