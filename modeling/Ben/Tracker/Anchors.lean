import Mathlib.Data.List.AList
import Mathlib.Data.List.Induction
import Ben.Orchestrator.Approval
import Ben.Orchestrator.ClaimCycle
import Ben.Review.Replay

/-!
# One log, three readers

The forge keeps one change log per issue.  The tracker adapter replays it for claims and hands the
orchestrator a projection of it; the review controller reads the same log with a projection of its
own.  The identities they take from it have to be the same: the entry that completed the standing
approval, and the entry that began the standing claim.

The readers do not fold the log alike.  For approvals the controller keeps one slot per required
label and files an entry under the first label it matches, while the orchestrator replays the log
once for each label, so that a list with one label twice leaves a slot of the controller empty.
For claims the controller and the adapter keep the first entry of a streak, the orchestrator the
last; the controller trims names before it compares them and the adapter compares lowered names.
-/

namespace Ben.Tracker

open List
open Ben.Review (Text txt eqFold trimSpace)

/-- The kinds of entries of the forge's log; whatever else it has is one kind here. -/
inductive EventName where
  | assigned
  | unassigned
  | labeled
  | unlabeled
  | closed
  | reopened
  | other
  deriving DecidableEq

/-- One entry of the forge's log. -/
structure IssueEvent where
  id : Int
  event : EventName
  actor : String := ""
  assignee : String := ""
  label : String := ""
  createdAt : Time := 0
  deriving DecidableEq

/-! ## The projections -/

/-- The kind and the subject the orchestrator is given of an entry, if it is given the entry. -/
def claimEventKind (ev : IssueEvent) : Option (ClaimEventKind × String) :=
  match ev.event with
  | .assigned => some (.assigned, ev.assignee)
  | .unassigned => some (.unassigned, ev.assignee)
  | .labeled => some (.labeled, ev.label)
  | .unlabeled => some (.unlabeled, ev.label)
  | .closed => some (.closed, "")
  | .reopened => some (.reopened, "")
  | .other => none

/-- The log as the orchestrator is given it. -/
def claimHistory (events : List IssueEvent) : List ClaimEvent :=
  events.filterMap fun ev => (claimEventKind ev).map fun (kind, subject) =>
    { kind := kind, subject := subject, at_ := ev.createdAt, id := ev.id }

/-- An entry as the review controller reads it. -/
def reviewEvent (ev : IssueEvent) : Review.Event where
  id := ev.id
  type := match ev.event with
    | .assigned => .assigned
    | .unassigned => .unassigned
    | .labeled => .labeled
    | .unlabeled => .unlabeled
    | _ => .other
  actor := txt ev.actor
  assignee := txt ev.assignee
  label := txt ev.label
  createdAt := ev.createdAt

/-- When a login became assigned. -/
structure AssignEvent where
  at_ : Time
  id : Int
  deriving DecidableEq

/-- The standing assignments, and every login the log mentions. -/
structure Assignments where
  held : AList (fun _ : String => AssignEvent) := ∅
  seen : List String := []

/-- One entry of the log, replayed by the adapter. -/
def Assignments.step [CaseFold] (acc : Assignments) (ev : IssueEvent) : Assignments :=
  let login := toLower ev.assignee
  if login = "" then acc
  else match ev.event with
    | .assigned =>
      { held := if (acc.held.lookup login).isSome then acc.held
          else acc.held.insert login ⟨ev.createdAt, ev.id⟩
        seen := login :: acc.seen }
    | .unassigned => { held := acc.held.erase login, seen := login :: acc.seen }
    | _ => acc

def replayAssignments [CaseFold] (events : List IssueEvent) : Assignments :=
  events.foldl Assignments.step {}

/-- Both packages compare texts with the one folding of the standard library. -/
class OneFold [Review.Library] [CaseFold] : Prop where
  equalFold_txt (a b : String) : Review.equalFold (txt a) (txt b) = equalFold a b

/-- No white space around the text. -/
def Trimmed (s : String) : Prop := trimSpace (txt s) = txt s

instance (s : String) : Decidable (Trimmed s) := inferInstanceAs (Decidable (_ = _))

section

variable [Review.Library] [CaseFold] [OneFold]

lemma eqFold_txt {a b} (ha : Trimmed a) (hb : Trimmed b) :
    eqFold (txt a) (txt b) = equalFold a b := by
  rw [eqFold, ha, hb, OneFold.equalFold_txt]

/-! ## Approvals -/

omit [OneFold] [CaseFold] in
lemma requiredLabel_cons (want label wants) : Review.requiredLabel (want :: wants) label =
      if eqFold want label then some 0 else (Review.requiredLabel wants label).map (· + 1) := by
  rw [Review.requiredLabel, findIdx?_cons]
  rfl

/-- The application of one label after an entry. -/
def applied (want : Text) (epoch : Int) (ev : Review.Event) : Int :=
  if eqFold want ev.label then
    match ev.type with
    | .labeled => ev.id
    | .unlabeled => 0
    | _ => epoch
  else epoch

omit [OneFold] [CaseFold] in
lemma labelStep_cons (want wants) (epoch : Int) (epochs) (ev : Review.Event) :
    Review.labelStep (want :: wants) (epoch :: epochs) ev =
      if eqFold want ev.label then applied want epoch ev :: epochs
      else epoch :: Review.labelStep wants epochs ev := by
  rw [Review.labelStep, requiredLabel_cons]
  by_cases hwant : eqFold want ev.label
  · rw [if_pos hwant, if_pos hwant, applied, if_pos hwant]
    cases ev.type <;> rfl
  · rw [if_neg hwant, if_neg hwant, Review.labelStep]
    cases Review.requiredLabel wants ev.label with
    | none => rfl
    | some i => cases ev.type <;> rfl

omit [OneFold] [CaseFold] in
/-- With no label listed twice, every slot follows its own label. -/
lemma labelStep_map {wants : List Text} (hdistinct : wants.Pairwise fun a b => eqFold a b = false)
    (epoch : Text → Int) (ev) :
    Review.labelStep wants (wants.map epoch) ev =
      wants.map fun want => applied want (epoch want) ev := by
  induction wants with
  | nil => rfl
  | cons want wants ih =>
    rw [pairwise_cons] at hdistinct
    rw [map_cons, map_cons, labelStep_cons, ih hdistinct.2]
    by_cases hwant : eqFold want ev.label
    · rw [if_pos hwant]
      congr 1
      apply map_congr_left
      intro other hother
      -- two labels that match one entry match each other
      have hne : eqFold other ev.label = false := by
        rw [← Bool.not_eq_true]
        intro heq
        rw [Review.eqFold_comm] at heq
        exact Bool.noConfusion ((hdistinct.1 other hother).symm.trans
          (Review.eqFold_trans hwant heq))
      rw [applied, hne]
      rfl
    · rw [if_neg hwant, applied, if_neg hwant]

/-- The application of one label after a log, or zero. -/
def appliedAfter (want : Text) (events : List Review.Event) : Int := events.foldl (applied want) 0

omit [OneFold] [CaseFold] in
lemma standing_eq_map {wants : List Text} (hdistinct : wants.Pairwise fun a b => eqFold a b = false)
    (events) :
    Review.standing wants events = wants.map fun want => appliedAfter want events := by
  induction events using List.reverseRecOn with
  | nil => simp [Review.standing, Review.noLabels, appliedAfter]
  | append_singleton events ev ih =>
    have hstep : Review.standing wants (events ++ [ev]) =
        Review.labelStep wants (Review.standing wants events) ev := by
      simp [Review.standing]
    rw [hstep, ih, labelStep_map hdistinct]
    simp [appliedAfter]

omit [Review.Library] [CaseFold] [OneFold] in
lemma claimHistory_append (log ev) :
    claimHistory (log ++ [ev]) = claimHistory log ++ claimHistory [ev] := by
  rw [claimHistory, filterMap_append]
  rfl

/-- One label's application as the orchestrator's first replay keeps it: the identity, and whether
it stands. -/
def lastLabeled (history : List ClaimEvent) (label : String) : Int × Bool :=
  history.foldl (fun (acc : Int × Bool) ev =>
    if !equalFold ev.subject label then acc
    else match ev.kind with
      | .labeled => (ev.id, true)
      | .unlabeled => (0, false)
      | _ => acc) (0, false)

omit [Review.Library] [OneFold] in
lemma standingLabeledID_eq (history label) : standingLabeledID history label =
      if !(lastLabeled history label).2 || (lastLabeled history label).1 ≤ 0 then none
      else some (lastLabeled history label).1 := rfl

/-- All replays of one label keep the same identity. -/
structure SameApplication (epoch : Int) (last : Int × Bool) (event : Option ClaimEvent) : Prop where
  last_eq : last.1 = epoch
  absent : last.2 = false → epoch = 0
  event_eq : event.elim 0 (·.id) = epoch

lemma sameApplication {log : List IssueEvent} {label} (hlabel : Trimmed label)
    (hlog : ∀ ev ∈ log, Trimmed ev.label) :
    SameApplication (appliedAfter (txt label) (log.map reviewEvent))
      (lastLabeled (claimHistory log) label) (standingLabeledEvent (claimHistory log) label) := by
  induction log using List.reverseRecOn with
  | nil => exact ⟨rfl, fun _ => rfl, rfl⟩
  | append_singleton log ev ih =>
    have ih := ih fun e he => hlog e (mem_append_left _ he)
    have hfold : eqFold (txt label) (txt ev.label) = equalFold ev.label label := by
      rw [Review.eqFold_comm]
      exact eqFold_txt (hlog ev (by simp)) hlabel
    obtain ⟨hlast, habsent, hevent⟩ := ih
    rw [claimHistory_append, map_append]
    unfold appliedAfter lastLabeled standingLabeledEvent at *
    rw [foldl_append, foldl_append, foldl_append]
    simp only [map_cons, map_nil, foldl_cons, foldl_nil, applied, reviewEvent,
      hfold, claimHistory, filterMap_cons, filterMap_nil, claimEventKind]
    cases ev.event with
    | labeled =>
      by_cases h : equalFold ev.label label
      · simp only [Option.map_some, foldl_cons, foldl_nil, h, Bool.not_true,
          Bool.false_eq_true, if_false, if_true]
        exact ⟨rfl, by simp, rfl⟩
      · simp only [Option.map_some, foldl_cons, foldl_nil, h, Bool.not_false, if_true,
          Bool.false_eq_true, if_false]
        exact ⟨hlast, habsent, hevent⟩
    | unlabeled =>
      by_cases h : equalFold ev.label label
      · simp only [Option.map_some, foldl_cons, foldl_nil, h, Bool.not_true,
          Bool.false_eq_true, if_false, if_true]
        exact ⟨rfl, fun _ => rfl, rfl⟩
      · simp only [Option.map_some, foldl_cons, foldl_nil, h, Bool.not_false, if_true,
          Bool.false_eq_true, if_false]
        exact ⟨hlast, habsent, hevent⟩
    | _ =>
      simp only [Option.map_some, Option.map_none, foldl_cons, foldl_nil, ite_self]
      exact ⟨hlast, habsent, hevent⟩

omit [Review.Library] [CaseFold] [OneFold] in
/-- A replay label by label that gives up at the first label that does not stand. -/
lemma foldl_eq_completeLoop {step : Option Int → String → Option Int} {epoch : String → Int}
    {labels : List String} (hnone : ∀ want, step none want = none)
    (hsome : ∀ a, ∀ want ∈ labels, step (some a) want =
      if epoch want ≤ 0 then none else some (if epoch want > a then epoch want else a)) (a : Int) :
    labels.foldl step (some a) = Review.completeLoop (labels.map epoch) a := by
  have hstay (l : List String) : l.foldl step none = none := by
    induction l with
    | nil => rfl
    | cons want l ih => rw [foldl_cons, hnone, ih]
  induction labels generalizing a with
  | nil => rfl
  | cons want labels ih =>
    rw [foldl_cons, map_cons, Review.completeLoop, hsome a want mem_cons_self]
    split
    · exact hstay labels
    · exact ih (fun a w hw => hsome a w (.tail want hw)) _

/-- The anchor that the review controller finds at the last entry of a log. -/
def reviewAnchor (log : List IssueEvent) (required : List String) : Option Int :=
  log.getLast?.bind fun last =>
    Review.approvalEpochAtOccurrence (log.map reviewEvent) (required.map txt) last.id

omit [OneFold] [CaseFold] in
/-- At an entry whose id is not repeated, what stands is what the whole log leaves standing. -/
lemma reviewAnchor_eq {log : List IssueEvent} (required : List String)
    (hlast : ∀ last ∈ log.getLast?, ∀ ev ∈ log.dropLast, ev.id ≠ last.id) :
    reviewAnchor log required =
      Review.standingAnchor (required.map txt) (log.map reviewEvent) := by
  induction log using List.reverseRecOn with
  | nil =>
    rw [reviewAnchor, getLast?_nil, Option.bind_none]
    cases required with
    | nil => rfl
    | cons want required => rfl
  | append_singleton before last _ =>
    rw [reviewAnchor, getLast?_concat, Option.bind_some]
    have hat : Replay.At (Review.hasId last.id) ((before ++ [last]).map reviewEvent)
        (before.map reviewEvent) (reviewEvent last) [] := by
      refine ⟨by simp, Review.hasId_eq_true_iff.2 rfl, fun ev hev => ?_⟩
      rw [append_nil, mem_map] at hev
      obtain ⟨e, he, rfl⟩ := hev
      refine Review.hasId_eq_false_iff.2 (hlast last (by simp) e ?_)
      rw [dropLast_concat]
      exact he
    ext anchor
    rw [Review.approvalEpochAtOccurrence_eq_some_iff]
    constructor
    · rintro ⟨b, x, a, hat', hanchor⟩
      obtain ⟨rfl, rfl, rfl⟩ := hat.eq_of_eq hat'.eq hat'.pass
      rw [map_append]
      exact hanchor
    · intro hanchor
      rw [map_append] at hanchor
      exact ⟨_, _, _, hat, hanchor⟩

/-- The three readers name one approval: the controller at the last entry, and the orchestrator's
two replays. -/
def ApprovalsAgree (log : List IssueEvent) (required : List String) : Prop :=
  approvalCycleAnchor (claimHistory log) required = reviewAnchor log required ∧
    standingApproval (claimHistory log) required = (reviewAnchor log required).getD 0 ∧
    ∀ id, reviewAnchor log required = some id → 0 < id

/-- The three readers of a log name one approval when no required label is listed twice, no label
has white space around it, and the last entry has an id of its own. -/
theorem approvalsAgree {log : List IssueEvent} {required : List String}
    (hdistinct : required.Pairwise fun a b => equalFold a b = false)
    (hrequired : ∀ label ∈ required, Trimmed label) (hlog : ∀ ev ∈ log, Trimmed ev.label)
    (hlast : ∀ last ∈ log.getLast?, ∀ ev ∈ log.dropLast, ev.id ≠ last.id) :
    ApprovalsAgree log required := by
  have htexts : (required.map txt).Pairwise fun a b => eqFold a b = false := by
    rw [pairwise_map]
    refine hdistinct.imp_of_mem fun {a b} ha hb hab => ?_
    rw [eqFold_txt (hrequired a ha) (hrequired b hb)]
    exact hab
  have hreview : reviewAnchor log required = if required.isEmpty then none else
      Review.completeLoop (required.map fun want =>
        appliedAfter (txt want) (log.map reviewEvent)) 0 := by
    rw [reviewAnchor_eq required hlast, Review.standingAnchor, standing_eq_map htexts,
      Review.completeApprovalEpoch, map_map]
    cases required with
    | nil => rfl
    | cons want required => rfl
  have hcycle : approvalCycleAnchor (claimHistory log) required = reviewAnchor log required := by
    rw [hreview, approvalCycleAnchor]
    split
    · rfl
    refine foldl_eq_completeLoop (fun want => rfl) (fun a want hwant => ?_) 0
    have hevent := (sameApplication (hrequired want hwant) hlog).event_eq
    cases hstanding : standingLabeledEvent (claimHistory log) want with
    | none =>
      rw [hstanding, Option.elim_none] at hevent
      rw [← hevent, if_pos le_rfl]
    | some ev =>
      rw [hstanding, Option.elim_some] at hevent
      rw [← hevent]
  have hstanding : standingApproval (claimHistory log) required =
      (reviewAnchor log required).getD 0 := by
    rw [hreview, standingApproval]
    split
    · rfl
    congr 1
    refine foldl_eq_completeLoop (fun want => rfl) (fun a want hwant => ?_) 0
    obtain ⟨hid, habsent, -⟩ := sameApplication (hrequired want hwant) hlog
    rw [standingLabeledID_eq, hid]
    cases happlied : (lastLabeled (claimHistory log) want).2 with
    | false =>
      rw [habsent happlied]
      rfl
    | true =>
      by_cases hpos : appliedAfter (txt want) (log.map reviewEvent) ≤ 0
      · simp [hpos]
      · simp [hpos]
  refine ⟨hcycle, hstanding, fun id hid => ?_⟩
  rw [reviewAnchor_eq required hlast] at hid
  exact (Review.completeApprovalEpoch_eq_some hid).1

/-! ## Claims -/

/-- A name as the forge gives them out: plain letters, and no white space around them. -/
structure IsLogin (name : String) : Prop where
  ascii : IsAscii name
  trimmed : Trimmed name

/-- The logins that are assigned after an entry. -/
def stand (standing : List String) (ev : IssueEvent) : List String :=
  match ev.event with
  | .assigned => toLower ev.assignee :: standing
  | .unassigned => standing.filter (· ≠ toLower ev.assignee)
  | _ => standing

/-- No login is assigned while it is assigned already. -/
def assignedOnce : List String → List IssueEvent → Bool
  | _, [] => true
  | standing, ev :: log =>
    (ev.event ≠ .assigned || toLower ev.assignee ∉ standing) && assignedOnce (stand standing ev) log

omit [Review.Library] [OneFold] in
lemma assignedOnce_concat {standing} {log : List IssueEvent} {ev : IssueEvent} :
    assignedOnce standing (log ++ [ev]) ↔ assignedOnce standing log ∧
      (ev.event = .assigned → toLower ev.assignee ∉ log.foldl stand standing) := by
  induction log generalizing standing with
  | nil =>
    simp only [nil_append, assignedOnce, Bool.and_true, foldl_nil, true_and]
    by_cases hkind : ev.event = .assigned <;> simp [hkind]
  | cons e log ih =>
    rw [cons_append, assignedOnce, assignedOnce, Bool.and_eq_true, Bool.and_eq_true, ih,
      and_assoc, foldl_cons]

lemma eqFold_iff_toLower {a b} (ha : IsLogin a) (hb : IsLogin b) :
    eqFold (txt a) (txt b) ↔ toLower a = toLower b := by
  rw [eqFold_txt ha.trimmed hb.trimmed]
  exact equalFold_iff_toLower ha.ascii hb.ascii

/-- A claim that stands for the controller is a standing assignment. -/
lemma mem_stand_of_claimEpoch {log : List IssueEvent} {principal} (hprincipal : IsLogin principal)
    (hlogins : ∀ ev ∈ log, IsLogin ev.assignee)
    (h : Review.claimEpoch (log.map reviewEvent) (txt principal) ≠ 0) :
    toLower principal ∈ log.foldl stand [] := by
  induction log using List.reverseRecOn with
  | nil => exact absurd rfl h
  | append_singleton log ev ih =>
    have ih := ih fun e he => hlogins e (mem_append_left _ he)
    have hfold := eqFold_iff_toLower (hlogins ev (by simp)) hprincipal
    have hstep : Review.claimEpoch ((log ++ [ev]).map reviewEvent) (txt principal) =
        Review.claimStep (txt principal)
          (Review.claimEpoch (log.map reviewEvent) (txt principal)) (reviewEvent ev) := by
      simp [Review.claimEpoch]
    rw [hstep, Review.claimStep] at h
    rw [foldl_append, foldl_cons, foldl_nil, stand]
    split at h
    · rename_i hother
      have hne : toLower ev.assignee ≠ toLower principal := by
        rw [Ne, ← hfold]
        simpa [reviewEvent] using hother
      have hin := ih h
      cases ev.event with
      | assigned => exact .tail _ hin
      | unassigned => exact mem_filter.2 ⟨hin, by simpa using Ne.symm hne⟩
      | _ => exact hin
    · rename_i hsame
      have heq : toLower ev.assignee = toLower principal := by
        rw [← hfold]
        simpa [reviewEvent] using hsame
      cases hkind : ev.event with
      | assigned =>
        rw [← heq]
        exact .head _
      | unassigned =>
        simp only [reviewEvent, hkind] at h
        exact absurd rfl h
      | _ =>
        simp only [reviewEvent, hkind] at h
        exact ih h

omit [Review.Library] [OneFold] in
/-- What an entry does to one login of the adapter's replay. -/
lemma lookup_step (acc : Assignments) (ev : IssueEvent) {login} (hlogin : login ≠ "") :
    (acc.step ev).held.lookup login =
      if toLower ev.assignee = login then
        match ev.event with
        | .assigned => (acc.held.lookup login).or (some ⟨ev.createdAt, ev.id⟩)
        | .unassigned => none
        | _ => acc.held.lookup login
      else acc.held.lookup login := by
  rw [Assignments.step]
  by_cases hname : toLower ev.assignee = login
  · subst hname
    rw [if_neg hlogin, if_pos rfl]
    cases ev.event with
    | assigned =>
      cases hheld : acc.held.lookup (toLower ev.assignee) <;> simp [hheld]
    | unassigned => simp
    | _ => rfl
  · rw [if_neg hname]
    split
    · rfl
    cases ev.event with
    | assigned =>
      simp only
      split
      · rfl
      · rw [AList.lookup_insert_ne (Ne.symm hname)]
    | unassigned => rw [AList.lookup_erase_ne (Ne.symm hname)]
    | _ => rfl

/-- The three readers name one claim: the controller's, the one the adapter's replay records and
the orchestrator's. -/
def ClaimsAgree (log : List IssueEvent) (principal : String) : Prop :=
  let epoch := Review.claimEpoch (log.map reviewEvent) (txt principal)
  claimCycleAnchor (claimHistory log) principal = epoch ∧
    ((replayAssignments log).held.lookup (toLower principal)).map (·.id) =
      if epoch = 0 then none else some epoch

/-- The three readers of a log name one claim of a principal when the names are logins, the
assignments have ids, and nobody is assigned while assigned. -/
theorem claimsAgree {log : List IssueEvent} {principal : String} (hprincipal : IsLogin principal)
    (hname : toLower principal ≠ "") (hlogins : ∀ ev ∈ log, IsLogin ev.assignee)
    (hids : ∀ ev ∈ log, ev.event = .assigned → ev.id ≠ 0) (honce : assignedOnce [] log = true) :
    ClaimsAgree log principal := by
  induction log using List.reverseRecOn with
  | nil => exact ⟨rfl, rfl⟩
  | append_singleton log ev ih =>
    obtain ⟨honce, hfirst⟩ := assignedOnce_concat.1 honce
    have hlogins' : ∀ e ∈ log, IsLogin e.assignee := fun e he => hlogins e (mem_append_left _ he)
    obtain ⟨hanchor, hheld⟩ := ih hlogins' (fun e he => hids e (mem_append_left _ he)) honce
    have hev := hlogins ev (by simp)
    have hfold := eqFold_iff_toLower hev hprincipal
    have hequal := equalFold_iff_toLower hev.ascii hprincipal.ascii
    have hepoch : Review.claimEpoch ((log ++ [ev]).map reviewEvent) (txt principal) =
        Review.claimStep (txt principal)
          (Review.claimEpoch (log.map reviewEvent) (txt principal)) (reviewEvent ev) := by
      simp [Review.claimEpoch]
    have hreplay : replayAssignments (log ++ [ev]) = (replayAssignments log).step ev := by
      simp [replayAssignments]
    unfold ClaimsAgree
    rw [hepoch, hreplay, claimHistory_append, claimCycleAnchor, foldl_append,
      ← claimCycleAnchor, hanchor, lookup_step _ _ hname, Review.claimStep]
    by_cases hmatch : toLower ev.assignee = toLower principal
    · -- the entry is about the principal
      have hf : eqFold (txt ev.assignee) (txt principal) = true := hfold.2 hmatch
      have he : equalFold ev.assignee principal = true := hequal.2 hmatch
      rw [if_pos hmatch]
      cases hkind : ev.event with
      | assigned =>
        have hzero : Review.claimEpoch (log.map reviewEvent) (txt principal) = 0 := by
          by_contra hne
          have hin := mem_stand_of_claimEpoch hprincipal hlogins' hne
          exact hfirst hkind (hmatch ▸ hin)
        have hid := hids ev (by simp) hkind
        rw [hzero, if_pos rfl, Option.map_eq_none_iff] at hheld
        simp [claimHistory, claimEventKind, hkind, he, hf, reviewEvent, hzero, hheld, hid]
      | unassigned => simp [claimHistory, claimEventKind, hkind, he, hf, reviewEvent]
      | _ =>
        simp only [reviewEvent, hkind, hf, claimHistory, claimEventKind, filterMap_cons,
          filterMap_nil, Option.map_some, Option.map_none, foldl_cons, foldl_nil,
          ite_self, Bool.not_true, Bool.false_eq_true]
        exact ⟨trivial, hheld⟩
    · -- the entry is about somebody else
      have hf : eqFold (txt ev.assignee) (txt principal) = false := by
        rw [← Bool.not_eq_true, hfold]
        exact hmatch
      have he : equalFold ev.assignee principal = false := by
        rw [← Bool.not_eq_true, hequal]
        exact hmatch
      have hreview : eqFold (reviewEvent ev).assignee (txt principal) = false := hf
      rw [if_neg hmatch, hreview]
      simp only [Bool.not_false, if_true]
      refine ⟨?_, hheld⟩
      cases hkind : ev.event <;>
        simp [claimHistory, claimEventKind, hkind, he]

end

/-! ## Samples -/

namespace Sample

/-- The long s read as the letter s, which it equals under folding and not in lower case. -/
def shortened : Text → Text
  | 0xC5 :: 0xBF :: s => 115 :: shortened s
  | b :: s => b :: shortened s
  | [] => []

lemma shortened_of_ne {s : Text} (hs : 0xC5 ∉ s) : shortened s = s := by
  induction s with
  | nil => rfl
  | cons b s ih =>
    rw [mem_cons, not_or] at hs
    rw [shortened, ih hs.2]
    rintro t rfl
    exact absurd rfl hs.1

/-- Bytes without letter case, for the plain letters and the long s. -/
def folded (s : Text) : Text := shortened (Review.asciiLower s)

/-- The folding of these letters, on bytes. -/
scoped instance library : Review.Library :=
  { Review.plainLibrary with
    equalFold := fun a b => folded a == folded b
    equalFold_self := fun _ => BEq.rfl
    equalFold_comm := fun _ _ => BEq.comm
    equalFold_trans := fun _ _ _ => BEq.trans }

/-- The byte of a plain character. -/
def byte (c : Char) : UInt8 := UInt8.ofNat c.toNat

lemma lower_utf8EncodeChar {c : Char} (hc : c.val < 128) :
    Review.asciiLower (String.utf8EncodeChar c) = [byte c.toLower] ∧
      Char.ofNat (byte c.toLower).toNat = c.toLower ∧ byte c.toLower ≠ 0xC5 := by
  have hall : ∀ n : Fin 128,
      Review.asciiLower (String.utf8EncodeChar (Char.ofNat n)) = [byte (Char.ofNat n).toLower] ∧
        Char.ofNat (byte (Char.ofNat n).toLower).toNat = (Char.ofNat n).toLower ∧
        byte (Char.ofNat n).toLower ≠ 0xC5 := by
    decide
  have hn : c.toNat < 128 := UInt32.lt_iff_toNat_lt.1 hc
  simpa using hall ⟨c.toNat, hn⟩

lemma folded_txt {s : String} (hs : IsAscii s) :
    folded (txt s) = (s.toList.map Char.toLower).map byte ∧
      ((s.toList.map Char.toLower).map byte).map (fun b => Char.ofNat b.toNat) =
        s.toList.map Char.toLower := by
  have hlist (l : List Char) (hl : ∀ c ∈ l, c.val < 128) :
      Review.asciiLower (l.flatMap String.utf8EncodeChar) = (l.map Char.toLower).map byte ∧
        ((l.map Char.toLower).map byte).map (fun b => Char.ofNat b.toNat) =
          l.map Char.toLower := by
    induction l with
    | nil => exact ⟨rfl, rfl⟩
    | cons c l ih =>
      obtain ⟨hbyte, hback, -⟩ := lower_utf8EncodeChar (hl c (.head _))
      obtain ⟨hbytes, hbacks⟩ := ih fun d hd => hl d (.tail c hd)
      constructor
      · rw [flatMap_cons, Review.asciiLower, map_append, ← Review.asciiLower,
          ← Review.asciiLower, hbyte, hbytes]
        rfl
      · rw [map_cons, map_cons, map_cons, hback, hbacks]
  obtain ⟨hbytes, hbacks⟩ := hlist s.toList hs
  refine ⟨?_, hbacks⟩
  rw [folded, txt, hbytes]
  apply shortened_of_ne
  rw [map_map, mem_map]
  rintro ⟨c, hc, hbyte⟩
  exact (lower_utf8EncodeChar (hs c hc)).2.2 hbyte

/-- The same folding on strings, through their bytes. -/
scoped instance fold : CaseFold :=
  { asciiFold with
    equalFold := fun a b => folded (txt a) == folded (txt b)
    equalFold_self := fun _ => BEq.rfl
    equalFold_comm := fun _ _ => BEq.comm
    equalFold_trans := fun _ _ _ => BEq.trans
    equalFold_ascii := fun a b ha hb => by
      obtain ⟨hbytes, hback⟩ := folded_txt ha
      obtain ⟨hbytes', hback'⟩ := folded_txt hb
      rw [hbytes, hbytes', Bool.eq_iff_iff, beq_iff_eq, beq_iff_eq, asciiLower, asciiLower,
        String.ofList_inj]
      constructor
      · intro h
        rw [← hback, ← hback', h]
      · intro h
        rw [h] }

scoped instance oneFold : OneFold := ⟨fun _ _ => rfl⟩

/-- A label applied, taken off and applied again while another one stands. -/
def labels : List IssueEvent :=
  [{ id := 1, event := .labeled, label := "agent" }, { id := 2, event := .labeled, label := "ok" },
    { id := 3, event := .unlabeled, label := "Agent" },
    { id := 4, event := .labeled, label := "AGENT" }]

/-- A claim given up and taken again, with somebody else's in between. -/
def claims : List IssueEvent :=
  [{ id := 1, event := .assigned, assignee := "ben" },
    { id := 2, event := .unassigned, assignee := "Ben" },
    { id := 3, event := .assigned, assignee := "eve" },
    { id := 4, event := .assigned, assignee := "BEN" }]

end Sample

open scoped Ben.Tracker.Sample

theorem approvalsAgree_reapplied : ApprovalsAgree Sample.labels ["agent", "ok"] ∧
      reviewAnchor Sample.labels ["agent", "ok"] = some 4 := by
  refine ⟨approvalsAgree (by decide) (by decide) (by decide) ?_, by decide⟩
  decide

/-- A required label that is listed twice, in two spellings, stands for the orchestrator and not
for the review controller.  One with a blank after it stands for the controller only.  And a
controller that finds the last id twice finds no approval. -/
theorem approvals_disagree :
    let log : List IssueEvent := [{ id := 1, event := .labeled, label := "agent", createdAt := 1 }]
    let again : List IssueEvent := log ++ [{ id := 1, event := .closed, createdAt := 2 }]
    (reviewAnchor log ["agent", "Agent"] = none ∧
      standingApproval (claimHistory log) ["agent", "Agent"] = 1 ∧
      approvalCycleAnchor (claimHistory log) ["agent", "Agent"] = some 1) ∧
    (reviewAnchor log ["agent "] = some 1 ∧ standingApproval (claimHistory log) ["agent "] = 0 ∧
      approvalCycleAnchor (claimHistory log) ["agent "] = none) ∧
    (reviewAnchor again ["agent"] = none ∧ standingApproval (claimHistory again) ["agent"] = 1 ∧
      approvalCycleAnchor (claimHistory again) ["agent"] = some 1) := by
  decide

theorem claimsAgree_reclaimed : ClaimsAgree Sample.claims "ben" ∧
      Review.claimEpoch (Sample.claims.map reviewEvent) (txt "ben") = 4 := by
  refine ⟨claimsAgree ⟨by decide, by decide⟩ (by decide)
    (fun ev hev => ?_) (by decide) (by decide), by decide⟩
  have hall : ∀ ev ∈ Sample.claims, IsAscii ev.assignee ∧ Trimmed ev.assignee := by decide
  exact ⟨(hall ev hev).1, (hall ev hev).2⟩

/-- The adapter records a claim under the lowered name, and not one without a name; the others fold.
So the login is the principal for the others only, where the principal is spelled with a long s or
is empty, and an assignment with the id zero is one for the adapter only.  With a blank after its
name, the principal is the login for the review controller only. -/
theorem claims_disagree :
    let log (id : Int) (login : String) : List IssueEvent :=
      [{ id := id, event := .assigned, assignee := login }]
    let found (id : Int) (login principal : String) :=
      (Review.claimEpoch ((log id login).map reviewEvent) (txt principal),
        claimCycleAnchor (claimHistory (log id login)) principal,
        ((replayAssignments (log id login)).held.lookup (toLower principal)).map (·.id))
    found 1 "bens" "benſ" = (1, 1, none) ∧ found 1 "" "" = (1, 1, none) ∧
      found 0 "ben" "ben" = (0, 0, some 0) ∧ found 1 "ben" "ben " = (1, 0, none) := by
  decide

end Ben.Tracker
