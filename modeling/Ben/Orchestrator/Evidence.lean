import Ben.Orchestrator.System

/-!
# What a recovery verdict rests on

A recovered claim is treated as published only on the verifier's word for a workspace of the
claim epoch the verdict carries.  Everything a classification can come to is traced back to the
reads here, once, for both of the places that apply a verdict.
-/

namespace Ben

variable [Platform]

/-! ## The classification -/

/-- The attempts a verdict begins with are counted: a claim that goes ahead has its first. -/
def RecoveryVerdict.Floored (v : RecoveryVerdict) : Prop :=
  0 ≤ v.attemptFloor ∧ (v.action = .approve → 1 ≤ v.attemptFloor)

lemma classifyRecoveryFacts_floored (candidate events evidence principal) :
    (classifyRecoveryFacts candidate events evidence principal).Floored := by
  unfold classifyRecoveryFacts classifyActiveRecoveryProjection
  cases evidence <;> dsimp only
  all_goals
    repeat' split
    all_goals simp [RecoveryVerdict.Floored, parkRecovery, backoffRecovery, holdRecovery]

lemma classifyRecovery_floored (candidate events evidence marker principal) :
    (classifyRecovery candidate events evidence marker principal).Floored := by
  have hfacts := classifyRecoveryFacts_floored candidate events evidence principal
  unfold classifyRecovery
  cases marker with
  | unresolved => simp [RecoveryVerdict.Floored]
  | unknownLaunch => simp [RecoveryVerdict.Floored]
  | free => exact hfacts
  | possiblyLive =>
    dsimp only
    split
    · exact hfacts
    · exact ⟨hfacts.1, nofun⟩

/-- A classification treats the work as published only on the evidence that it is. -/
lemma classifyRecoveryFacts_published {candidate events evidence principal}
    (h : (classifyRecoveryFacts candidate events evidence principal).action = .hold ∨
      (classifyRecoveryFacts candidate events evidence principal).milestone = .published) :
    evidence = .published ∧ classifyRecoveryFacts candidate events evidence principal =
      holdRecovery (claimCycleAnchor events principal) := by
  revert h
  unfold classifyRecoveryFacts classifyActiveRecoveryProjection
  cases evidence <;> dsimp only
  all_goals
    repeat' split
    all_goals simp [parkRecovery, backoffRecovery, holdRecovery]

variable {anchor : Int} {running : Bool} {v : RecoveryVerdict} {facts : RecoveryFacts}
  {cur : Snapshot}

/-- With the state of the workspace taken into account, publishing still takes the evidence, and
means holding the claim or waiting for a run that may be live. -/
lemma classifyRecovery_published {candidate events evidence marker principal}
    (hv : classifyRecovery candidate events evidence marker principal = v)
    (h : v.action = .hold ∨ v.milestone = .published) :
    evidence = .published ∧ v.cycleAnchor = claimCycleAnchor events principal ∧
      (v.action = .hold ∨ v.action = .wait) := by
  subst hv
  unfold classifyRecovery at h ⊢
  cases marker with
  | unresolved => simp at h
  | unknownLaunch => simp at h
  | free =>
    obtain ⟨hev, heq⟩ := classifyRecoveryFacts_published h
    dsimp only
    rw [heq]
    exact ⟨hev, rfl, .inl rfl⟩
  | possiblyLive =>
    dsimp only at h ⊢
    split at h
    · rename_i hb
      have hpub := classifyRecoveryFacts_published h
      simp [hpub.2, holdRecovery] at hb
    · rename_i hb
      have hm : (classifyRecoveryFacts candidate events evidence principal).milestone =
          .published := by simpa using h
      obtain ⟨hev, heq⟩ := classifyRecoveryFacts_published (.inr hm)
      rw [if_neg hb, heq]
      exact ⟨hev, rfl, .inr rfl⟩

section

omit [Platform]

/-- What the claim base settles is never that the work is published. -/
lemma classifyRecoveryClaimBase_unpublished {state readErr markerErr marker}
    (h : classifyRecoveryClaimBase anchor state readErr marker markerErr running = some v) :
    v.action ≠ .hold ∧ v.milestone ≠ .published := by
  unfold classifyRecoveryClaimBase at h
  repeat' split at h
  all_goals cases h
  all_goals simp [epochFaultRecovery, parkRecovery]

lemma classifyRecoveryClaimBase_floored {state readErr markerErr marker}
    (h : classifyRecoveryClaimBase anchor state readErr marker markerErr running = some v) :
    v.Floored := by
  unfold classifyRecoveryClaimBase at h
  repeat' split at h
  all_goals cases h
  all_goals simp [RecoveryVerdict.Floored, epochFaultRecovery, parkRecovery]

/-- What is left undecided by the claim base has it pinned for the epoch. -/
lemma classifyRecoveryClaimBase_none {state readErr markerErr marker}
    (h : classifyRecoveryClaimBase anchor state readErr marker markerErr running = none) :
    claimBasePinsEpoch state anchor := by
  unfold classifyRecoveryClaimBase at h
  repeat' split at h
  all_goals first | assumption | cases h

end

namespace Orchestrator

/-! ## The facts -/

/-- What the facts behind a verdict promise: they are of the issue asked about, an early verdict
never publishes and counts its attempts, and the verifier's word that the work is published came
for a workspace of the claim cycle. -/
structure FactsSound (issue : Issue) (principal : String) (facts : RecoveryFacts) : Prop where
  issue : facts.candidate.issue = issue
  early : ∀ v, facts.preclassified = some v → v.action ≠ .hold ∧ v.milestone ≠ .published
  floored : ∀ v, facts.preclassified = some v → v.Floored
  epoch : facts.verify.verdict = .published →
    facts.workspace.claimEpoch = claimCycleAnchor facts.events principal ∧
      0 < claimCycleAnchor facts.events principal

/-- An early verdict that does not publish. -/
lemma FactsSound.early_only {issue principal} (hissue : facts.candidate.issue = issue)
    (hverify : facts.verify.verdict = .unknown) (hpre : facts.preclassified = some v)
    (hv : v.action ≠ .hold ∧ v.milestone ≠ .published) (hfloor : v.Floored) :
    FactsSound issue principal facts where
  issue := hissue
  early v' hv' := Option.some.inj (hpre.symm.trans hv') ▸ hv
  floored v' hv' := Option.some.inj (hpre.symm.trans hv') ▸ hfloor
  epoch h := by simp [hverify] at h

/-- Facts the verifier was not asked for. -/
lemma FactsSound.unasked {issue principal} (hissue : facts.candidate.issue = issue)
    (hverify : facts.verify.verdict = .unknown) (hpre : facts.preclassified = none) :
    FactsSound issue principal facts where
  issue := hissue
  early v hv := by simp [hpre] at hv
  floored v hv := by simp [hpre] at hv
  epoch h := by simp [hverify] at h

omit [Platform] in
lemma epochFaultRecovery_floored (anchor : Int) (detail) :
    (epochFaultRecovery anchor detail).Floored := by
  simp [RecoveryVerdict.Floored, epochFaultRecovery, parkRecovery]

omit [Platform] in
lemma epochFaultRecovery_unpublished (anchor : Int) (detail) :
    (epochFaultRecovery anchor detail).action ≠ .hold ∧
      (epochFaultRecovery anchor detail).milestone ≠ .published := by
  simp [epochFaultRecovery, parkRecovery]

lemma factsSound_pinned {issue} {reads} (facts : RecoveryFacts) {facts'}
    (hissue : facts.candidate.issue = issue) (hpre : facts.preclassified = none)
    (hepoch : facts.workspace.claimEpoch = claimCycleAnchor facts.events cur.runtime.claimPrincipal)
    (hpos : 0 < claimCycleAnchor facts.events cur.runtime.claimPrincipal)
    (h : pinnedRecoveryFacts issue cur reads facts = .ok facts') :
    FactsSound issue cur.runtime.claimPrincipal facts' := by
  have hall : ∀ marker res, FactsSound issue cur.runtime.claimPrincipal
      { facts with marker := marker, verify := res } := fun marker res =>
    ⟨hissue, fun v hv => by simp [hpre] at hv, fun v hv => by simp [hpre] at hv,
      fun _ => ⟨hepoch, hpos⟩⟩
  unfold pinnedRecoveryFacts at h
  dsimp only at h
  repeat' split at h
  all_goals cases h
  all_goals exact hall _ _

/-- The anchor the tracker's gates pass on is that of the claim cycle. -/
lemma anchor_of_trackerGates {candidate events principal}
    (h : classifyRecoveryTrackerGates candidate events principal = (none, anchor)) :
    anchor = claimCycleAnchor events principal := by
  unfold classifyRecoveryTrackerGates at h
  dsimp only at h
  repeat' split at h
  all_goals first | exact (Prod.mk.inj h).2.symm | exact absurd (Prod.mk.inj h).1 nofun

/-- The facts of a claim that got past the tracker's gates. -/
lemma factsSound_of_ungated {issue} {reads : RecoveryReads} (base : RecoveryFacts)
    {facts} (hissue : base.candidate.issue = issue)
    (hverify : base.verify.verdict = .unknown) (hpre : base.preclassified = none)
    (hanchor : anchor = claimCycleAnchor base.events cur.runtime.claimPrincipal)
    (hpins : claimBasePinsEpoch reads.claimBase anchor)
    (h : (match reads.markerErr, reads.resolved with
      | some e, _ => .error (Err.wrap e "run marker")
      | none, .error _ =>
        .ok { base with preclassified := some (epochFaultRecovery anchor
          "pinned claim epoch cannot resolve its workspace") }
      | none, .ok none =>
        .ok { base with preclassified := some (epochFaultRecovery anchor
          "resolved workspace does not carry the pinned claim epoch/base/target") }
      | none, .ok (some ws) =>
        if !claimBaseAuthorizesWorkspace reads.claimBase ws then
          .ok { base with preclassified := some (epochFaultRecovery anchor
            "resolved workspace does not carry the pinned claim epoch/base/target") }
        else pinnedRecoveryFacts issue cur reads { base with workspace := ws }) = Except.ok facts) :
    FactsSound issue cur.runtime.claimPrincipal facts := by
  have hearly : ∀ detail, FactsSound issue cur.runtime.claimPrincipal
      { base with preclassified := some (epochFaultRecovery anchor detail) } := fun detail =>
    .early_only hissue hverify rfl (epochFaultRecovery_unpublished _ _)
      (epochFaultRecovery_floored _ _)
  split at h
  · cases h
  · exact Except.ok.inj h ▸ hearly _
  · exact Except.ok.inj h ▸ hearly _
  · rename_i ws _ _
    split at h
    · exact Except.ok.inj h ▸ hearly _
    · rename_i hauth
      have hauth' : claimBaseAuthorizesWorkspace reads.claimBase ws := by simpa using hauth
      have hws : ws.claimEpoch = anchor :=
        (claimBaseAuthorizesWorkspace_epoch hauth').symm.trans (claimBasePinsEpoch_epoch hpins)
      refine factsSound_pinned { base with workspace := ws } hissue hpre
        (hws.trans hanchor) ?_ h
      change 0 < claimCycleAnchor base.events cur.runtime.claimPrincipal
      rw [← hanchor]
      simp only [claimBasePinsEpoch, Bool.and_eq_true, decide_eq_true_eq] at hpins
      exact hpins.1.1.1.1

lemma factsSound_of_recoveryFacts {issue} {reads facts}
    (h : recoveryFacts issue cur reads = .ok facts) :
    FactsSound issue cur.runtime.claimPrincipal facts := by
  unfold recoveryFacts at h
  cases hhistory : reads.history with
  | error e => simp [hhistory] at h
  | ok events =>
    rw [hhistory] at h
    dsimp only at h
    rcases hgates : classifyRecoveryTrackerGates ⟨issue, active cur.definition issue,
      hasRequiredLabels cur.definition issue⟩ events cur.runtime.claimPrincipal with
      ⟨_ | gated, anchor⟩
    · rw [hgates] at h
      dsimp only at h
      cases hbase : classifyRecoveryClaimBase anchor reads.claimBase reads.claimBaseErr
          reads.marker reads.markerErr (currentCycleRunningEvidence events anchor) with
      | some v =>
        rw [hbase] at h
        exact Except.ok.inj h ▸
          .early_only rfl rfl rfl (classifyRecoveryClaimBase_unpublished hbase)
            (classifyRecoveryClaimBase_floored hbase)
      | none =>
        rw [hbase] at h
        dsimp only at h
        exact factsSound_of_ungated
          { candidate := ⟨issue, active cur.definition issue,
              hasRequiredLabels cur.definition issue⟩, events := events
            claimBase := reads.claimBase } rfl rfl rfl (anchor_of_trackerGates hgates)
          (classifyRecoveryClaimBase_none hbase) h
    · -- the tracker's facts settle it, and the verifier is not asked
      rw [hgates] at h
      dsimp only at h
      cases hresolved : reads.resolved with
      | error e => simp [hresolved] at h
      | ok ws =>
        cases hmarker : reads.markerErr with
        | some e => simp [hresolved, hmarker] at h
        | none =>
          rw [hresolved, hmarker] at h
          dsimp only at h
          split at h
          · cases h
          · exact Except.ok.inj h ▸ .unasked rfl rfl rfl

/-! ## The verdict -/

/-- What a verdict promises: it is about the issue asked about, its attempts are counted, and it
treats the work as published only on the verifier's word for a workspace of the epoch it carries,
and only to hold the claim or to wait. -/
structure VerdictSound (issue : Issue) (v : RecoveryVerdict) (facts : RecoveryFacts) : Prop where
  issue : facts.candidate.issue = issue
  floored : v.Floored
  published : v.action = .hold ∨ v.milestone = .published →
    facts.verify.verdict = .published ∧ facts.workspace.claimEpoch = v.cycleAnchor ∧
      0 < v.cycleAnchor ∧ (v.action = .hold ∨ v.action = .wait)

lemma verdictSound_of_classify {issue} {reads} {facts' : RecoveryFacts} {v}
    (hfacts : FactsSound issue cur.runtime.claimPrincipal facts)
    (h : classify cur reads facts = .ok (v, facts')) :
    VerdictSound issue v facts' ∧ facts'.verify = facts.verify ∧
      facts'.workspace = facts.workspace := by
  unfold classify at h
  cases hpre : facts.preclassified with
  | some early =>
    rw [hpre] at h
    cases h
    refine ⟨⟨hfacts.issue, hfacts.floored _ hpre, fun hp => ?_⟩, rfl, rfl⟩
    obtain ⟨hhold, hpublished⟩ := hfacts.early _ hpre
    exact absurd hp (not_or.2 ⟨hhold, hpublished⟩)
  | none =>
    rw [hpre] at h
    have hsound : ∀ {v' facts'}, facts'.candidate = facts.candidate →
        facts'.verify = facts.verify → facts'.workspace = facts.workspace →
        classifyRecovery facts.candidate facts.events facts.verify.verdict facts.marker
          cur.runtime.claimPrincipal = v' → VerdictSound issue v' facts' := by
      intro v' facts' hcandidate hverify hworkspace hv
      refine ⟨hcandidate ▸ hfacts.issue, hv ▸ classifyRecovery_floored _ _ _ _ _, fun hp => ?_⟩
      obtain ⟨hev, hanchor, haction⟩ := classifyRecovery_published hv hp
      obtain ⟨hepoch, hpos⟩ := hfacts.epoch hev
      rw [hverify, hworkspace, hanchor]
      exact ⟨hev, hepoch, hpos, haction⟩
    dsimp only at h
    split at h
    · cases h
      exact ⟨hsound rfl rfl rfl rfl, rfl, rfl⟩
    · split at h
      · cases h
      · cases h
        exact ⟨hsound rfl rfl rfl rfl, rfl, rfl⟩

end Orchestrator

end Ben
