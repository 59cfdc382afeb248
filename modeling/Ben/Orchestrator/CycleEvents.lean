import Mathlib.Data.List.Induction
import Ben.Orchestrator.RecoverClassify

/-!
# Which entries belong to the current claim cycle

Recovery asks three questions about the claim cycle its anchor names, and each has its own test for
the entries that belong to it.  The projection and the search for a close compare the identity of an
entry with the anchor's.  The search for an announced run goes by the place in the log and takes
what stands after the assignment.  The log is sorted by instant first, and identities only decide
between entries of one instant, so the two kinds of test are different tests.  They agree just if
the anchor's identity divides the log where its assignment does.
-/

namespace Ben

open List

/-- The order of the change log: by instant, then by identity. -/
def LogSorted (events : List ClaimEvent) : Prop :=
  events.Pairwise fun a b => a.at_ < b.at_ ∨ (a.at_ = b.at_ ∧ a.id < b.id)

instance (events : List ClaimEvent) : Decidable (LogSorted events) :=
  inferInstanceAs (Decidable (List.Pairwise _ events))

/-- The entry is the assignment that the anchor names. -/
def isAnchor (anchor : Int) (event : ClaimEvent) : Bool :=
  event.kind == .assigned && event.id == anchor

/-- The anchor divides the log where its assignment does: what stands before has smaller identities,
and what stands after has none. -/
def Divides (events : List ClaimEvent) (anchor : Int) : Prop :=
  (∀ e ∈ events.takeWhile (!isAnchor anchor ·), e.id < anchor) ∧
    ∀ e ∈ events.dropWhile (!isAnchor anchor ·), anchor ≤ e.id

instance (events : List ClaimEvent) (anchor : Int) : Decidable (Divides events anchor) :=
  inferInstanceAs (Decidable (_ ∧ _))

/-! ## The three tests -/

/-- The projection replays the entry. -/
def projected (anchor : Int) (event : ClaimEvent) : Bool := !decide (event.id < anchor)

/-- A close counts at the entry. -/
def closeCounts (anchor : Int) (event : ClaimEvent) : Bool := decide (event.id ≥ anchor)

/-- An announced run counts at this place of the log. -/
def runningCounts (events : List ClaimEvent) (anchor : Int) (place : Nat) : Bool :=
  (events.take place).any (isAnchor anchor)

section Readings

variable [CaseFold] {events before after : List ClaimEvent} {anchor : Int} {assigned : ClaimEvent}

/-- The entry announces a run. -/
def announcesRun (event : ClaimEvent) : Bool :=
  event.kind == .labeled && recoveryStateLabel event.subject == some .running

/-- The projection replays the entries its test accepts, and no other. -/
lemma foldl_filter_replay (entries : List (ClaimEvent × Nat)) (acc) :
    entries.foldl (LabelReplay.step anchor) acc =
      (entries.filter fun e => projected anchor e.1).foldl (LabelReplay.step anchor) acc := by
  induction entries generalizing acc with
  | nil => rfl
  | cons e entries ih =>
    cases hcount : projected anchor e.1 with
    | true =>
      have hkeep : (e :: entries).filter (fun e => projected anchor e.1) =
          e :: entries.filter (fun e => projected anchor e.1) := filter_cons_of_pos hcount
      rw [hkeep, foldl_cons, foldl_cons]
      exact ih _
    | false =>
      have hlt : e.1.id < anchor := by simpa [projected] using hcount
      have hskip : LabelReplay.step anchor acc e = acc := by
        rw [LabelReplay.step, decide_eq_true hlt, Bool.true_or, if_pos rfl]
      rw [filter_cons_of_neg (by simp [hcount]), foldl_cons, hskip]
      exact ih acc

/-- One entry of the search for an announced run. -/
def runningStep (anchor : Int) (acc : Bool × Bool) (event : ClaimEvent) : Bool × Bool :=
  if !acc.1 then (event.kind == .assigned && event.id == anchor, acc.2)
  else if event.kind != .labeled then acc
  else (true, acc.2 || recoveryStateLabel event.subject == some .running)

/-- After the assignment every announcement is found. -/
lemma foldl_runningStep_anchored (found : Bool) :
    events.foldl (runningStep anchor) (true, found) = (true, found || events.any announcesRun) := by
  induction events generalizing found with
  | nil => simp
  | cons e events ih =>
    have hstep : runningStep anchor (true, found) e = (true, found || announcesRun e) := by
      by_cases hkind : e.kind = .labeled
      · simp [runningStep, announcesRun, hkind]
      · simp [runningStep, announcesRun, hkind]
    rw [foldl_cons, hstep, ih, any_cons, Bool.or_assoc]

/-- Before it nothing is. -/
lemma foldl_runningStep_before (h : before.any (isAnchor anchor) = false) :
    before.foldl (runningStep anchor) (false, false) = (false, false) := by
  induction before with
  | nil => rfl
  | cons e before ih =>
    rw [any_cons, Bool.or_eq_false_iff] at h
    have hstep : runningStep anchor (false, false) e = (false, false) := by
      rw [runningStep, Bool.not_false, if_pos rfl, ← isAnchor, h.1]
    rw [foldl_cons, hstep]
    exact ih h.2

/-- The search for an announced run reads what stands after the assignment. -/
lemma currentCycleRunningEvidence_split (hpos : 0 < anchor)
    (hbefore : before.any (isAnchor anchor) = false) (hassigned : isAnchor anchor assigned) :
    currentCycleRunningEvidence (before ++ assigned :: after) anchor = after.any announcesRun := by
  have hfold : currentCycleRunningEvidence (before ++ assigned :: after) anchor =
      ((before ++ assigned :: after).foldl (runningStep anchor) (false, false)).2 := by
    rw [currentCycleRunningEvidence, if_neg (by omega)]
    rfl
  have hstep : runningStep anchor (false, false) assigned = (true, false) := by
    rw [runningStep, Bool.not_false, if_pos rfl, ← isAnchor, hassigned]
  rw [hfold, foldl_append, foldl_runningStep_before hbefore, foldl_cons, hstep,
    foldl_runningStep_anchored, Bool.false_or]

end Readings

/-! ## Around the assignment -/

section Around

variable {before after : List ClaimEvent} {anchor : Int} {assigned : ClaimEvent}

lemma isAnchor_iff {event : ClaimEvent} :
    isAnchor anchor event ↔ event.kind = .assigned ∧ event.id = anchor := by
  rw [isAnchor, Bool.and_eq_true, beq_iff_eq, beq_iff_eq]

lemma runningCounts_before (hnone : before.any (isAnchor anchor) = false) {place : Nat}
    (hplace : place < before.length) :
    runningCounts (before ++ assigned :: after) anchor place = false := by
  rw [runningCounts, take_append_of_le_length (Nat.le_of_lt hplace), any_eq_false]
  rw [any_eq_false] at hnone
  intro e he
  exact hnone e (mem_of_mem_take he)

lemma runningCounts_after (hassigned : isAnchor anchor assigned) (k : Nat) :
    runningCounts (before ++ assigned :: after) anchor (before.length + (k + 1)) = true := by
  rw [runningCounts, take_length_add_append, take_succ_cons, any_append, any_cons, hassigned,
    Bool.true_or, Bool.or_true]

end Around

/-! ## Agreement -/

section Agreement

variable [CaseFold]

/-- The anchor of a cycle is the identity of an assignment in the log. -/
lemma exists_assigned_of_anchor (events principal) (h : claimCycleAnchor events principal ≠ 0) :
    ∃ e ∈ events, isAnchor (claimCycleAnchor events principal) e := by
  induction events using List.reverseRecOn with
  | nil => exact absurd rfl h
  | append_singleton events e ih =>
    rw [claimCycleAnchor, foldl_append, foldl_cons, foldl_nil, ← claimCycleAnchor] at h ⊢
    have hold : claimCycleAnchor events principal ≠ 0 →
        ∃ d ∈ events ++ [e], isAnchor (claimCycleAnchor events principal) d := by
      intro hne
      obtain ⟨d, hd, hanchor⟩ := ih hne
      exact ⟨d, mem_append_left _ hd, hanchor⟩
    by_cases hfold : equalFold e.subject principal
    · rw [hfold, Bool.not_true, if_neg Bool.false_ne_true] at h ⊢
      cases hkind : e.kind with
      | assigned =>
        refine ⟨e, mem_append_right _ (mem_singleton_self e), ?_⟩
        exact isAnchor_iff.2 ⟨hkind, rfl⟩
      | unassigned =>
        rw [hkind] at h
        exact absurd rfl h
      | labeled =>
        rw [hkind] at h
        exact hold h
      | unlabeled =>
        rw [hkind] at h
        exact hold h
      | closed =>
        rw [hkind] at h
        exact hold h
      | reopened =>
        rw [hkind] at h
        exact hold h
    · rw [Bool.not_eq_true] at hfold
      rw [hfold, Bool.not_false, if_pos rfl] at h ⊢
      exact hold h

/-- The tests agree on every entry but the assignment itself, which none of the three reads. -/
def TestsAgree (events : List ClaimEvent) (anchor : Int) : Prop :=
  ∀ place event, events[place]? = some event → isAnchor anchor event = false →
    projected anchor event = runningCounts events anchor place ∧
      closeCounts anchor event = runningCounts events anchor place

omit [CaseFold] in
lemma projected_eq_closeCounts (anchor : Int) (event : ClaimEvent) :
    projected anchor event = closeCounts anchor event := by
  rw [projected, closeCounts, ← decide_not, decide_eq_decide]
  omega

omit [CaseFold] in
/-- By identity and by place the same entries are taken just if no entry before the assignment has
the anchor's identity or a larger one, and none after it a smaller one. -/
lemma testsAgree_iff {before after : List ClaimEvent} {anchor : Int} {assigned : ClaimEvent}
    (hnone : before.any (isAnchor anchor) = false) (hassigned : isAnchor anchor assigned) :
    TestsAgree (before ++ assigned :: after) anchor ↔
      (∀ e ∈ before, e.id < anchor) ∧ ∀ e ∈ after, anchor ≤ e.id := by
  constructor
  · intro hagree
    constructor
    · intro e he
      obtain ⟨place, hlt, rfl⟩ := getElem_of_mem he
      have hother : isAnchor anchor before[place] = false := by
        rw [any_eq_false] at hnone
        simpa using hnone _ he
      have hcounts := (hagree place _ (getElem?_append_left hlt ▸ getElem?_eq_getElem hlt) hother).2
      rw [runningCounts_before hnone hlt, closeCounts, decide_eq_false_iff_not] at hcounts
      omega
    · intro e he
      cases hother : isAnchor anchor e with
      | true =>
        have := (isAnchor_iff.1 hother).2
        omega
      | false =>
        obtain ⟨k, hlt, rfl⟩ := getElem_of_mem he
        have hcounts := (hagree (before.length + (k + 1)) _ (by simp [hlt]) hother).2
        rwa [runningCounts_after hassigned, closeCounts, decide_eq_true_iff] at hcounts
  · rintro ⟨hbefore, hafter⟩ place event hplace hother
    have hcounts : closeCounts anchor event =
        runningCounts (before ++ assigned :: after) anchor place := by
      obtain hlt | heq | hgt := Nat.lt_trichotomy place before.length
      · rw [getElem?_append_left hlt] at hplace
        have := hbefore event (mem_of_getElem? hplace)
        rw [runningCounts_before hnone hlt, closeCounts, decide_eq_false_iff_not]
        omega
      · rw [heq, getElem?_append_right le_rfl, Nat.sub_self] at hplace
        cases hplace
        rw [hassigned] at hother
        cases hother
      · obtain ⟨k, rfl⟩ : ∃ k, place = before.length + (k + 1) :=
          ⟨place - before.length - 1, by omega⟩
        rw [getElem?_append_right (by omega), Nat.add_sub_cancel_left, getElem?_cons_succ] at hplace
        rw [runningCounts_after hassigned, closeCounts, decide_eq_true_iff]
        exact hafter event (mem_of_getElem? hplace)
    exact ⟨(projected_eq_closeCounts anchor event).trans hcounts, hcounts⟩

/-- **When the tests of the claim cycle agree.**  The search for a close and the projection read
what their tests take, the search for an announced run what stands from the assignment on, and the
three tests take the same entries just if the anchor divides the log. -/
theorem cycle_tests_agree (events : List ClaimEvent) (principal : String)
    (hpos : 0 < claimCycleAnchor events principal) :
    closedInCycle events (claimCycleAnchor events principal) = events.any (fun e =>
        e.kind == .closed && closeCounts (claimCycleAnchor events principal) e) ∧
      events.zipIdx.foldl (LabelReplay.step (claimCycleAnchor events principal)) {} =
        (events.zipIdx.filter fun e => projected (claimCycleAnchor events principal) e.1).foldl
          (LabelReplay.step (claimCycleAnchor events principal)) {} ∧
      currentCycleRunningEvidence events (claimCycleAnchor events principal) =
        (events.dropWhile (!isAnchor (claimCycleAnchor events principal) ·)).any announcesRun ∧
      (TestsAgree events (claimCycleAnchor events principal) ↔
        Divides events (claimCycleAnchor events principal)) := by
  obtain ⟨found, hmem, hanchor⟩ := exists_assigned_of_anchor events principal (by omega)
  revert hanchor hpos
  generalize claimCycleAnchor events principal = anchor
  intro hpos hanchor
  -- the first entry that is the assignment
  obtain ⟨assigned, hfirst⟩ := Option.isSome_iff_exists.1 (find?_isSome.2 ⟨found, hmem, hanchor⟩)
  obtain ⟨hassigned, before, after, rfl, hbefore⟩ := find?_eq_some_iff_append.1 hfirst
  obtain ⟨hkind, hid⟩ := isAnchor_iff.1 hassigned
  have hnone : before.any (isAnchor anchor) = false := by
    rw [any_eq_false]
    simpa using hbefore
  have htake : (before ++ assigned :: after).takeWhile (!isAnchor anchor ·) = before := by
    rw [takeWhile_append_of_pos hbefore, takeWhile_cons, hassigned]
    simp
  have hdrop : (before ++ assigned :: after).dropWhile (!isAnchor anchor ·) =
      assigned :: after := by
    rw [dropWhile_append_of_pos hbefore, dropWhile_cons, hassigned]
    simp
  refine ⟨?_, foldl_filter_replay _ _, ?_, ?_⟩
  · rw [closedInCycle, if_neg (by omega)]
    rfl
  · rw [currentCycleRunningEvidence_split hpos hnone hassigned, hdrop, any_cons, announcesRun,
      hkind]
    rfl
  · rw [testsAgree_iff hnone hassigned, Divides, htake, hdrop, forall_mem_cons, hid]
    simp

end Agreement

namespace Sample

/-- An assignment, and after it an announced run and a close with smaller identities. -/
def crossedLog : List ClaimEvent := [
  { kind := .assigned, subject := "ben", at_ := 10, id := 100 },
  { kind := .labeled, subject := "ben:running", at_ := 20, id := 50 },
  { kind := .closed, at_ := 30, id := 60 }]

/-- A log whose identities are out of order on both sides of the assignment. -/
def dividedLog : List ClaimEvent := [
  { kind := .labeled, subject := "ben:failed", at_ := 1, id := 90 },
  { kind := .unlabeled, subject := "ben:failed", at_ := 2, id := 80 },
  { kind := .assigned, subject := "ben", at_ := 10, id := 100 },
  { kind := .labeled, subject := "ben:running", at_ := 20, id := 160 },
  { kind := .closed, at_ := 30, id := 150 }]

end Sample

/-- The tests agree on it. -/
theorem cycle_tests_agree_divided : let _ : CaseFold := asciiFold
    TestsAgree Sample.dividedLog (claimCycleAnchor Sample.dividedLog "ben") := by
  let _ : CaseFold := asciiFold
  exact (cycle_tests_agree Sample.dividedLog "ben" (by decide)).2.2.2.2 (by decide)

/-- On a sorted log that the anchor does not divide, the search for an announced run finds the one
that stands after the assignment, while the projection passes over it and the close beside it is not
found. -/
theorem crossed_log_divides_tests : let _ : CaseFold := asciiFold
    LogSorted Sample.crossedLog ∧ claimCycleAnchor Sample.crossedLog "ben" = 100 ∧
      currentCycleRunningEvidence Sample.crossedLog 100 = true ∧
      (replayRecoveryProjection Sample.crossedLog 100).sawLabeled = false ∧
      closedInCycle Sample.crossedLog 100 = false ∧ ¬ TestsAgree Sample.crossedLog 100 := by
  refine ⟨by decide, by decide, by decide, by decide, by decide, ?_⟩
  intro h
  have hrun := h 1 { kind := .labeled, subject := "ben:running", at_ := 20, id := 50 } rfl rfl
  cases hrun.1

end Ben
