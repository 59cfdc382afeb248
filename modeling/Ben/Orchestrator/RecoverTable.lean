import Ben.Orchestrator.RecoverClassify

/-!
# Gates, table and evidence

The classification of a candidate, the gates that precede the reading of its workspace and the
question whether publish evidence has to be read at all are three functions that repeat the same
tests.  Behind the gates only the projection and the evidence count: `recoveryTable` is that part,
and `awaitsEvidence` are the rows of it that look at the evidence.  The three functions are then
one pair of gates and table, read three ways.
-/

namespace Ben

/-- What the projection of a claim that passed the gates comes to. -/
def recoveryTable (anchor : Int) (projection : RecoveryProjection) (evidence : Verdict) :
    RecoveryVerdict :=
  if projection.standing then
    match projection.effective with
    | some .failed =>
      { action := .releaseKeep, project := true, stateLabel := .failed, milestone := .failed
        cycleAnchor := anchor }
    | some .needsReview => parkRecovery anchor false
    | some .claimed | some .running => classifyActiveRecoveryProjection anchor evidence
    | none | some .none => parkRecovery anchor true
  else if !projection.sawLabeled then
    { action := .approve, attemptFloor := 1, cycleAnchor := anchor }
  else if !projection.lastWasRemoval then parkRecovery anchor true
  else match projection.lastRemoved with
    | some .needsReview => backoffRecovery anchor
    | some .failed => { action := .releaseKeep, cycleAnchor := anchor }
    | some .claimed | some .running =>
      match evidence with
      | .published => holdRecovery anchor
      | .incomplete | .contradicted => parkRecovery anchor false
      | .unknown => { action := .blocked, cycleAnchor := anchor }
    | none | some .none => parkRecovery anchor true

/-- The row of the table looks at the evidence: an attempt is announced, or was until the
announcement was taken down. -/
def awaitsEvidence (projection : RecoveryProjection) : Bool :=
  if projection.standing then
    projection.effective == some .claimed || projection.effective == some .running
  else if !projection.sawLabeled || !projection.lastWasRemoval then false
  else projection.lastRemoved == some .claimed || projection.lastRemoved == some .running

/-- A row that does not look at the evidence never blocks on it. -/
lemma recoveryTable_of_not_awaits (anchor : Int) {projection}
    (h : awaitsEvidence projection = false) (evidence) :
    recoveryTable anchor projection evidence = recoveryTable anchor projection .unknown ∧
      (recoveryTable anchor projection .unknown).action ≠ .blocked := by
  obtain ⟨standing, effective, saw, removal, removed⟩ := projection
  unfold recoveryTable
  cases standing with
  | true => rcases effective with _ | _ | _ <;> simp_all [awaitsEvidence, parkRecovery]
  | false =>
    cases saw <;> cases removal <;> rcases removed with _ | _ | _ <;>
      simp_all [awaitsEvidence, parkRecovery, backoffRecovery]

/-- A row that does blocks without it and holds a published claim. -/
lemma recoveryTable_of_awaits (anchor : Int) {projection} (h : awaitsEvidence projection) :
    recoveryTable anchor projection .unknown = { action := .blocked, cycleAnchor := anchor } ∧
      recoveryTable anchor projection .published = holdRecovery anchor := by
  obtain ⟨standing, effective, saw, removal, removed⟩ := projection
  unfold recoveryTable
  cases standing with
  | true =>
    rcases effective with _ | _ | _ <;>
      simp_all [awaitsEvidence, classifyActiveRecoveryProjection]
  | false =>
    cases saw <;> cases removal <;> rcases removed with _ | _ | _ <;> simp_all [awaitsEvidence]

/-- Every row of the table keeps the anchor. -/
lemma recoveryTable_anchor (anchor : Int) (projection evidence) :
    (recoveryTable anchor projection evidence).cycleAnchor = anchor := by
  unfold recoveryTable classifyActiveRecoveryProjection
  repeat' split
  all_goals rfl

section Gates

variable [CaseFold] (candidate : RecoveryCandidate) (events : List ClaimEvent) (principal : String)

/-- The gates name the anchor of the claim cycle, whether or not they decide. -/
lemma classifyRecoveryTrackerGates_anchor :
    (classifyRecoveryTrackerGates candidate events principal).2 =
      claimCycleAnchor events principal := by
  simp only [classifyRecoveryTrackerGates]
  repeat' split
  all_goals first | rfl | (symm; assumption)

/-- The classification is the gates' decision, and the table's where they make none. -/
lemma classifyRecoveryFacts_eq (evidence) :
    classifyRecoveryFacts candidate events evidence principal =
      ((classifyRecoveryTrackerGates candidate events principal).1).getD
        (recoveryTable (claimCycleAnchor events principal)
          (replayRecoveryProjection events (claimCycleAnchor events principal)) evidence) := by
  simp only [classifyRecoveryFacts, classifyRecoveryTrackerGates]
  split
  · rfl
  · generalize (if solePrincipal candidate.issue.assignees principal then .ours
      else arbitrateRecovery events candidate.issue.assignees principal) = arbitration
    cases arbitration with
    | unknown => rfl
    | other => rfl
    | unorderable => rfl
    | ours =>
      dsimp only
      split
      · rfl
      · split
        · rfl
        · unfold recoveryTable
          generalize replayRecoveryProjection events (claimCycleAnchor events principal) = shown
          obtain ⟨_, effective, _, _, removed⟩ := shown
          rcases effective with _ | effective <;> rcases removed with _ | removed <;>
            try cases effective
          all_goals first | rfl | (cases removed <;> rfl)

/-- The evidence is asked for behind the gates, where the table's row looks at it. -/
lemma recoveryNeedsEvidence_eq : recoveryNeedsEvidence candidate events principal =
      ((classifyRecoveryTrackerGates candidate events principal).1.isNone &&
        awaitsEvidence
          (replayRecoveryProjection events (claimCycleAnchor events principal))) := by
  simp only [recoveryNeedsEvidence, classifyRecoveryTrackerGates]
  split
  · rfl
  · generalize arbitrateRecovery events candidate.issue.assignees principal = arbitration
    by_cases hzero : claimCycleAnchor events principal = 0
    · cases solePrincipal candidate.issue.assignees principal <;> cases arbitration <;>
        simp [hzero]
    · cases solePrincipal candidate.issue.assignees principal <;> cases arbitration <;>
        cases candidate.inPartition <;> simp [hzero, awaitsEvidence]

/-- What the gates decide, the classification decides alike on any evidence.  Behind them it keeps
their anchor, and the evidence is read exactly for the candidates whose verdict depends on it, who
are those that are blocked without it. -/
theorem recoveryNeedsEvidence_exact :
    (∀ verdict, (classifyRecoveryTrackerGates candidate events principal).1 = some verdict →
      ∀ evidence, classifyRecoveryFacts candidate events evidence principal = verdict) ∧
    ((classifyRecoveryTrackerGates candidate events principal).1 = none →
      (∀ evidence, (classifyRecoveryFacts candidate events evidence principal).cycleAnchor =
        (classifyRecoveryTrackerGates candidate events principal).2) ∧
      (recoveryNeedsEvidence candidate events principal = true ↔
        ∃ evidence other, classifyRecoveryFacts candidate events evidence principal ≠
          classifyRecoveryFacts candidate events other principal) ∧
      (recoveryNeedsEvidence candidate events principal = true ↔
        (classifyRecoveryFacts candidate events .unknown principal).action = .blocked)) := by
  simp only [classifyRecoveryFacts_eq, recoveryNeedsEvidence_eq,
    classifyRecoveryTrackerGates_anchor]
  refine ⟨fun verdict hgate evidence => by rw [hgate]; rfl, fun hgate => ?_⟩
  simp only [hgate, Option.getD_none, Option.isNone_none, Bool.true_and]
  generalize replayRecoveryProjection events (claimCycleAnchor events principal) = projection
  refine ⟨recoveryTable_anchor _ projection, ?_⟩
  cases hrow : awaitsEvidence projection with
  | true =>
    obtain ⟨hblocked, hhold⟩ := recoveryTable_of_awaits (claimCycleAnchor events principal) hrow
    refine ⟨iff_of_true rfl ⟨.unknown, .published, ?_⟩, iff_of_true rfl (by rw [hblocked])⟩
    rw [hblocked, hhold]
    simp [holdRecovery]
  | false =>
    have hsame := recoveryTable_of_not_awaits (claimCycleAnchor events principal) hrow
    refine ⟨iff_of_false Bool.false_ne_true ?_, iff_of_false Bool.false_ne_true (hsame .unknown).2⟩
    rintro ⟨evidence, other, hne⟩
    exact hne ((hsame evidence).1.trans (hsame other).1.symm)

end Gates

end Ben
