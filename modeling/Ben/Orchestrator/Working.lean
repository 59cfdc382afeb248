import Ben.Orchestrator.Strokes

/-!
# Every piece of the loop's code is work

Function by function, from the ones that owe an effect to the turns of the loop: each is a
sequence of strokes, whatever state it finds and whatever it is given.
-/

namespace Ben.Orchestrator

variable [Platform] {G : Grounds} {o : Orchestrator} {t : Token}

/-! ## Owing -/

lemma work_driveOwed : Work G o (o.driveOwed t) := by
  unfold driveOwed
  dsimp only
  refine .guard fun hflight => ?_
  have hflight' : (o.heap t).owedInFlight = false := by simpa using hflight
  split
  · exact .refl _
  · rename_i eff rest howed
    refine .guard fun hgate => ?_
    have hgate' := Bool.eq_false_of_not_eq_true hgate
    unfold enqueue
    split
    · exact .stroke (.send o t eff rest hflight' howed hgate')
    · -- the queue is full: the flag stays as it is
      refine .of_eq ?_
      simp only [modify]
      rw [show ({ o.heap t with owedInFlight := false } : Record) = o.heap t by
        rw [← hflight'], Function.update_eq_self]

lemma work_oweEffect (eff) : Work G o (o.oweEffect t eff) :=
  (Work.stroke (.owe o t eff)).trans work_driveOwed

lemma work_transitionCaused (next reason cause) :
    Work G o (o.transitionCaused t next reason cause).1 := by
  unfold transitionCaused
  dsimp only
  split
  · exact .refl _
  · have henter := Work.stroke (Stroke.enter (G := G) o t
      { at_ := o.now, issue := (o.heap t).issue.identifier, source := (o.heap t).state
        target := next, reason := reason, runID := (o.heap t).runID, failureReason := cause } rfl)
    split
    · exact henter
    · exact henter.trans (work_oweEffect _)

lemma work_gone : Work G o (o.modify t fun r => { r with gone := true }) :=
  .edits t (by simp [Edits])

lemma work_comment (c) : Work G o (o.comment t c) := work_oweEffect _

lemma work_abandonPendingClaimBase : Work G o (o.abandonPendingClaimBase t) :=
  .maybe <| .edited (work_oweEffect _) rfl

lemma work_release (why) : Work G o (o.release t why) :=
  .maybe <| .edited (work_abandonPendingClaimBase.trans (work_oweEffect _)) rfl

lemma work_attemptEnded : Work G o (o.attemptEnded t) :=
  .maybe <|
    have hfired := Work.edit (o := o) (t := t) (by rfl)
    .either hfired <| hfired.trans (work_oweEffect _)

lemma work_recordAttempt (reason verdict) : Work G o (o.recordAttempt t reason verdict) :=
  .maybe <| .edited (.note rfl) rfl

lemma work_oweDisposal (complete : Workspace → Effect) : Work G o (o.oweDisposal t complete) :=
  .maybe <| .edited (work_oweEffect _) rfl

lemma work_completeFailure : Work G o (o.completeFailure t) := .maybe <| work_oweDisposal _

lemma work_completeShutdown : Work G o (o.completeShutdown t) := .maybe <| work_oweDisposal _

lemma work_endCycle (id workspaces ws why) :
    Work G o ((o.oweEndedCycle id workspaces ws why).note (.endsCycle t)) :=
  (Work.stroke (.oweCycle o _ _ _ _)).trans (.note rfl)

lemma work_disposeRevoked (keep : Bool) : Work G o (o.disposeRevoked t keep) :=
  .either (work_endCycle _ _ _ _) <| (work_endCycle _ _ _ _).trans (work_oweDisposal _)

/-! ## Markers -/

lemma work_driveMarkerClears : Work G o o.driveMarkerClears := by
  unfold driveMarkerClears
  refine .foldl (fun o p => ?_) _
  split
  · exact .refl _
  · rename_i q hq
    exact .stroke (.driveClear _ q (List.mem_of_find?_eq_some hq))

lemma work_freeWorkspaceMarker : Work G o (o.freeWorkspaceMarker t) :=
  ((Work.note (by rfl)).trans (.stroke (.remember _ _ _))).trans work_driveMarkerClears

/-! ## Ending an attempt -/

lemma work_enterBackoff (why cause) : Work G o (o.enterBackoff t why cause) :=
  .either (work_transitionCaused _ _ _) <| ((work_transitionCaused _ _ _).trans
      (.edit (by rfl))).trans (.spawn rfl)

lemma work_enterFailed (why cause) : Work G o (o.enterFailed t why cause) :=
  .either (work_transitionCaused _ _ _) <|
    (((work_transitionCaused _ _ _).trans (work_comment _)).trans work_completeFailure).trans
      (work_release _)

lemma work_enterNeedsReview (why cause) : Work G o (o.enterNeedsReview t why cause) :=
  .maybe <| .either (work_transitionCaused _ _ _) <|
    (work_transitionCaused _ _ _).trans (work_comment _)

lemma work_enterEpochFault (why) : Work G o (o.enterEpochFault t why) :=
  .edited (work_enterNeedsReview _ _) rfl

lemma work_failAttempt (reason) (retryable : Bool) (detail) :
    Work G o (o.failAttempt t reason retryable detail) := by
  have hended : Work G o (((o.attemptEnded t).recordAttempt t reason .unknown).modify t fun r =>
      { r with failureReason := reason, lastOutcome := reason.name }.recordAccount reason.name) :=
    (work_attemptEnded.trans (work_recordAttempt _ _)).trans (.edit rfl)
  exact .either (hended.trans (work_enterBackoff _ _)) <| hended.trans (work_enterFailed _ _)

lemma work_parkCredential (detail) : Work G o (o.parkCredential t detail) :=
  ((work_attemptEnded.trans (work_recordAttempt _ _)).trans
    (.edit (by rfl))).trans (work_enterNeedsReview _ _)

lemma work_failLaunch (err what) (retryable : Bool) :
    Work G o (o.failLaunch t err what retryable) :=
  .either (work_failAttempt _ _ _) <| .either (work_parkCredential _) <| work_failAttempt _ _ _

lemma work_beginVerify : Work G o (o.beginVerify t) := .sent rfl rfl

lemma work_parkOnBudgetSummarized : Work G o (o.parkOnBudgetSummarized t) :=
  ((((Work.note (by rfl)).trans work_attemptEnded).trans (.edit (by rfl))).trans
    (work_recordAttempt _ _)).trans (work_enterNeedsReview _ _)

lemma work_applyOutcomeSummarized : Work G o (o.applyOutcomeSummarized t) := by
  unfold applyOutcomeSummarized
  dsimp only
  split
  · exact .refl _
  · have hrouted : Work G o ((o.modify t fun r => { r with outcome := none }).note (.routed t)) :=
      .edited (.note rfl) rfl
    exact .maybe <| .either (hrouted.trans work_beginVerify) <|
      hrouted.trans (work_failAttempt _ _ _)

lemma work_resumeAfterAccount : Work G o (o.resumeAfterAccount t) :=
  .either (.edited work_parkOnBudgetSummarized rfl) <| work_applyOutcomeSummarized

lemma work_beginSummary : Work G o (o.beginSummary t) :=
  .maybe <| .either (.edited work_resumeAfterAccount rfl) <| .sent rfl rfl

lemma work_parkOnBudget : Work G o (o.parkOnBudget t) :=
  .either (.edited work_beginSummary rfl) <| work_parkOnBudgetSummarized

lemma work_applyOutcome : Work G o (o.applyOutcome t) :=
  .maybe <| .either work_beginSummary <| work_applyOutcomeSummarized

lemma work_beginProbe : Work G o (o.beginProbe t) := by
  unfold beginProbe
  dsimp only
  refine .maybe ?_
  split
  · exact .refl _
  · exact .sent rfl rfl

lemma work_beginStop (mode) : Work G o (o.beginStop t mode) := by
  unfold beginStop
  dsimp only
  refine .maybe ?_
  split
  · exact .spawn rfl
  · exact .sent rfl rfl

lemma work_quiet : Work G o (o.quiet t) :=
  .edited ((work_freeWorkspaceMarker.trans (.edit (by rfl))).trans work_applyOutcome) rfl

lemma work_confirmQuiet : Work G o (o.confirmQuiet t) :=
  .maybe <| .either (.edited (work_freeWorkspaceMarker.trans work_applyOutcome) rfl) <|
    .either work_beginProbe <| work_beginStop _

/-! ## Exits -/

lemma work_finishNow (keepWorkspace : Bool) (why) : Work G o (o.finishNow t keepWorkspace why) := by
  unfold finishNow
  dsimp only
  have hended : ∀ reason, Work G o (((((o.attemptEnded t).modify t fun r =>
      { r with parkOnBudgetPending := false }).recordAttempt t reason
        .unknown).abandonPendingClaimBase t).disposeRevoked t keepWorkspace) := fun reason =>
    (((work_attemptEnded.trans (.edit (by rfl))).trans
      (work_recordAttempt _ _)).trans work_abandonPendingClaimBase).trans (work_disposeRevoked _)
  exact .either (.either (hended _) <| (hended _).trans (work_oweEffect _))
    <| (hended _).trans (work_release _)

lemma work_stopAndFinish (keepWorkspace : Bool) (why) :
    Work G o (o.stopAndFinish t keepWorkspace why) := by
  unfold stopAndFinish
  dsimp only
  have hordered : Work G o (o.modify t fun r =>
      { r with keepOnStop := keepWorkspace, stopReason := why, finishAfterStop := true }) :=
    .edit rfl
  refine hordered.trans (.either ?_ <| .either ?_ <| work_finishNow _ _)
  · exact .edited (work_beginStop _) rfl
  · exact .edit rfl

lemma work_finishIfRequested : Work G o (o.finishIfRequested t).1 := by
  unfold finishIfRequested
  split
  · exact .refl _
  · split
    · exact .refl _
    · have htaken : Work G o (o.modify t fun r => { r with finish := none }) :=
        .edit rfl
      dsimp only
      split
      · exact htaken.trans (.edited (work_beginStop _) rfl)
      · exact htaken.trans (work_finishNow _ _)

lemma work_finishSuspended : Work G o (o.finishSuspended t) :=
  .maybe <| .edited work_attemptEnded rfl

lemma work_suspendStopped : Work G o (o.suspendStopped t) :=
  .edited (work_freeWorkspaceMarker.trans work_finishSuspended) rfl

lemma work_endAttemptSuspended : Work G o (o.endAttemptSuspended t) :=
  .edited (work_attemptEnded.trans (work_recordAttempt _ _)) rfl

/-! ## The pipeline -/

lemma work_beginApproval : Work G o (o.beginApproval t) :=
  .maybe <| .sent rfl rfl

lemma work_onClaimed (verified : Bool) (err) : Work G o (o.onClaimed t verified err) := by
  unfold onClaimed
  extract_lets +onlyGivenNames o1
  have hcame : Work G o o1 := .edit rfl
  clear_value o1
  dsimp only
  refine .either (hcame.trans work_finishIfRequested) <| hcame.trans ?_
  split
  · exact .either (.stroke (.forget _ _)) <| work_release _
  · exact .either (.stroke (.forget _ _)) <| .edited work_beginApproval rfl

lemma work_beginClaimBase : Work G o (o.beginClaimBase t) := by
  unfold beginClaimBase
  dsimp only
  refine .maybe <| .either ?_ ?_
  · exact .edited (.stroke (.mutate _ _ _ _ _)) rfl
  · exact .sent rfl rfl

/-- The content check of an approval read is the ground its pin stands on. -/
lemma work_onApproved (history approval required principal err)
    (hground : ∀ a, err = none → checkApproval history required approval = .ok a → G.approved t a) :
    Work G o (o.onApproved t history approval required principal err) := by
  unfold onApproved
  extract_lets +onlyGivenNames o1
  have hcame : Work G o o1 := .edit rfl
  clear_value o1
  dsimp only
  refine .either (hcame.trans work_finishIfRequested) <| .either hcame <| hcame.trans ?_
  split
  · exact .either (work_gone.trans (work_finishNow _ _)) <| .refl _
  · split
    · exact work_enterNeedsReview _ _
    · rename_i approved hcheck
      have hpinned := (Work.stroke (.approve o1 t approved (hground _ rfl hcheck))).trans
        (.stroke (.pin _ t approved (hground _ rfl hcheck)))
      refine .either (hpinned.trans (work_enterEpochFault _)) <| hpinned.trans ?_
      exact .edited work_beginClaimBase rfl

lemma work_beginPrepare : Work G o (o.beginPrepare t) := by
  unfold beginPrepare
  refine .guard fun hdraining => ?_
  exact .edited (.stroke (.prepare _ _ _ _ _ (Bool.eq_false_of_not_eq_true hdraining))) rfl

lemma work_onClaimBaseBegun (err base baseErr scanned) :
    Work G o (o.onClaimBaseBegun t err base baseErr scanned) := by
  unfold onClaimBaseBegun
  extract_lets +onlyGivenNames o1
  have hcame : Work G o o1 := .edit rfl
  clear_value o1
  dsimp only
  refine .either (hcame.trans work_finishIfRequested) <| hcame.trans ?_
  refine .maybe <| .maybe <| .maybe <| .maybe <|
    .either (work_enterEpochFault _) <| .either (work_enterEpochFault _) <|
    .either ?_ ?_
  · have hmoved := (Work.edits (G := G) (o := o1) t (f := fun r =>
      { r with claimBaseDispatch := false, attempt := r.attempt + 1 })
        fun _ => ⟨rfl, rfl, rfl, rfl, id, id⟩).trans (work_transitionCaused (t := t) .preparing
          (transitionReason .backoff .preparing) .none)
    exact .either hmoved <| hmoved.trans work_beginPrepare
  · exact .either ((work_transitionCaused _ _ _).trans (.stroke (.forget _ _))) <|
      (work_transitionCaused _ _ _).trans (work_comment _)

lemma work_onClaimProjected : Work G o (o.onClaimProjected t) :=
  .maybe <| .either (work_transitionCaused _ _ _) <|
    (work_transitionCaused _ _ _).trans work_beginPrepare

lemma spawn_modify (o : Orchestrator) (t) (f : Record → Record) (w) :
    (o.modify t f).spawn w = (o.spawn w).modify t f := rfl

lemma work_beginStart : Work G o (o.beginStart t) := by
  unfold beginStart
  refine .guard fun hdraining => ?_
  dsimp only
  have hread : Work G o (o.modify t fun r =>
      { r with definition := o.definition, attemptAgent := o.bundle.agent }) :=
    .edit rfl
  have hopen : (o.modify t fun r =>
      { r with definition := o.definition, attemptAgent := o.bundle.agent }).draining = false :=
    Bool.eq_false_of_not_eq_true hdraining
  generalize o.modify t _ = o1 at hread hopen ⊢
  refine hread.trans ?_
  split
  · exact work_failAttempt _ _ _
  · -- counting the worker and sending it out do not meet
    have htag : ((o1.abandonPendingClears (o1.heap t).issue.identifier
        o1.bundle.identity.root).1.modify t fun r => { r with pending := r.pending + 1 }).tag t =
        o1.tag t := by simp [tag, modify, abandonPendingClears]
    rw [htag, spawn_modify]
    exact (Work.stroke (.start o1 (o1.tag t) _ _ _ _ hopen)).trans (.edit rfl)

lemma work_onPrepared (ws facts err base baseErr) :
    Work G o (o.onPrepared t ws facts err base baseErr) := by
  unfold onPrepared
  extract_lets +onlyGivenNames o1
  have hcame : Work G o o1 := .edit rfl
  clear_value o1
  dsimp only
  refine .either (hcame.trans work_finishIfRequested) <| hcame.trans ?_
  refine .either (.edit rfl) ?_
  split
  · exact .either (work_enterEpochFault _) <| work_failLaunch _ _ _
  · refine .either (work_enterEpochFault _) ?_
    split
    · exact .edited work_beginStart rfl
    · exact work_beginStart

lemma work_onStarted (handle err) : Work G o (o.onStarted t handle err) := by
  unfold onStarted
  extract_lets +onlyGivenNames o1 o2
  have hcame : Work G o o1 := .edit rfl
  have hfreed : Work G o o2 := hcame.trans (.either work_freeWorkspaceMarker <| .refl _)
  clear_value o2
  dsimp only
  refine .either (hfreed.trans work_finishIfRequested) <| hfreed.trans ?_
  refine .either ?_ ?_
  · split
    · exact .edit rfl
    · exact .edited (.sent rfl rfl) rfl
  · split
    · exact work_failLaunch _ _ _
    · have hmoved := work_transitionCaused (G := G) (o := o2) (t := t) .running
        (transitionReason .preparing .running) .none
      refine .either hmoved <| hmoved.trans ?_
      split
      · exact .edit rfl
      · exact .sent rfl rfl

lemma edits_addUsage (event) : Edits fun r => addUsage r event := fun r => by
  unfold addUsage
  split <;> exact ⟨rfl, rfl, rfl, rfl, id, id⟩

lemma work_countUsage (event) : Work G o (o.countUsage t event) := by
  have hcounted : Work G o (o.modify t fun r => addUsage r event) := .edits t (edits_addUsage event)
  unfold countUsage
  dsimp only
  split
  · exact hcounted.trans (.note rfl)
  · exact hcounted

lemma work_onRunEvent (event) : Work G o (o.onRunEvent t event) := by
  unfold onRunEvent
  dsimp only
  have hcounted := work_countUsage (G := G) (o := o) (t := t) event
  generalize o.countUsage t event = o1 at hcounted ⊢
  refine .either hcounted <| hcounted.trans ?_
  split
  · exact .edit rfl
  · exact .edit rfl
  · exact .maybe <| .either (.edited (work_beginStop _) rfl) <| .refl _
  · exact .refl _
  · have hmoved := work_transitionCaused (G := G) (o := o1) (t := t) .verifying
      (transitionReason .running .verifying) .none
    exact .maybe <| .either hmoved <| (hmoved.trans (.edit (by rfl))).trans (.edit rfl)
  · exact .maybe <| .edited (.edit rfl) rfl

lemma work_onEventsClosed (sawTerminal : Bool) : Work G o (o.onEventsClosed t sawTerminal) := by
  unfold onEventsClosed
  extract_lets o1
  have hclosed : Work G o o1 := .edit rfl
  exact .either hclosed <| .either (hclosed.trans work_confirmQuiet) <|
    .either hclosed <| (hclosed.trans (.edit (by rfl))).trans work_confirmQuiet

lemma work_onHandleDone : Work G o (o.onHandleDone t) := by
  unfold onHandleDone
  extract_lets o1
  have hdone : Work G o o1 := .edit rfl
  exact .either (hdone.trans work_finishSuspended) <| hdone.trans work_confirmQuiet

lemma work_onProbed (termination) : Work G o (o.onProbed t termination) := by
  unfold onProbed
  extract_lets o1
  have hcame : Work G o o1 := .edit rfl
  exact .either hcame <| .either (hcame.trans work_confirmQuiet) <|
    .either hcame <| hcame.trans work_quiet

lemma work_onStopped (termination) : Work G o (o.onStopped t termination) := by
  unfold onStopped
  extract_lets +onlyGivenNames o1
  have hcame : Work G o o1 := .edit rfl
  clear_value o1
  dsimp only
  refine hcame.trans (.either (.maybe <| work_suspendStopped) <| .maybe <| .either work_quiet ?_)
  have hfreed : Work G o1
      ((o1.modify t fun r => { r with domainQuiet := true }).freeWorkspaceMarker t) :=
    .edited work_freeWorkspaceMarker rfl
  generalize (o1.modify t fun r => { r with domainQuiet := true }).freeWorkspaceMarker t = o2
    at hfreed ⊢
  have hlet : Work G o1 (o2.modify t fun r =>
      { r with
        handle := none, outcome := none
        stopping := false, budgetStop := false, finishAfterStop := false }) :=
    hfreed.trans (.edit rfl)
  refine .either (hlet.trans work_parkOnBudget) ?_
  have hended := hlet.trans ((work_attemptEnded (t := t)).trans (work_recordAttempt (t := t)
    (if (o2.heap t).budgetStop then .budgetExceeded else .killed) .unknown))
  refine hended.trans ?_
  exact .either (.edit rfl) <| work_finishNow _ _

lemma work_onSummarized (facts err) : Work G o (o.onSummarized t facts err) := by
  unfold onSummarized
  extract_lets o1
  have hcame : Work G o o1 := .edit rfl
  exact .either (hcame.trans work_finishIfRequested) <|
    .either (hcame.trans work_endAttemptSuspended) <| hcame.trans work_resumeAfterAccount

lemma work_redispatch : Work G o (o.redispatch t) := by
  unfold redispatch
  dsimp only
  refine .either ?_ ?_
  · exact .edited (work_transitionCaused _ _ _) rfl
  · exact .edited ((work_transitionCaused _ _ _).trans work_beginPrepare) rfl

lemma work_redispatchUnderEpoch (kind principal s) :
    Work G o (o.redispatchUnderEpoch t kind principal s) := by
  unfold redispatchUnderEpoch
  dsimp only
  refine .either (work_enterEpochFault _) <| .either ?_ <|
    .either (work_enterEpochFault _) <| .either (work_enterEpochFault _)
      ?_
  · exact .edited work_beginClaimBase rfl
  · split
    · exact work_enterEpochFault _
    · exact .spawn rfl
    · exact work_redispatch

/-- The content check of a fired timer's reads is the ground its pin stands on. -/
lemma work_onTimerFetched (kind) (revision : Nat) (required principal) (s : TimerReads)
    (hground : ∀ a, s.err = none → checkApproval s.history required s.approval = .ok a →
      G.approved t a) : Work G o (o.onTimerFetched t kind revision required principal s) := by
  unfold onTimerFetched
  refine .maybe <| .either (.spawn rfl) <| .either ?_ ?_
  · exact work_gone.trans (work_finishNow _ _)
  · split
    · exact .spawn rfl
    · exact .refl _
    · rename_i fresh hread _
      refine .either (work_finishNow _ _) <| .either (work_finishNow _ _)
        ?_
      split
      · exact work_enterNeedsReview _ _
      · rename_i approved hcheck
        dsimp only
        have happroved : Work G o ((o.note (.approved t approved)).modify t fun r =>
            r.adoptRouting fresh) :=
          (Work.stroke (.approve o t approved (hground _ hread hcheck))).trans
            (.edit rfl)
        generalize (o.note (.approved t approved)).modify t _ = o1 at happroved ⊢
        have hpinned : Work G o (if approved.at_ > (o1.heap t).approvedAt then
            (o1.modify t fun r => r.pin approved).note (.pinned t approved) else o1) :=
          happroved.trans (.either (.stroke (.pin _ t approved (hground _ hread hcheck)))
            <| .refl _)
        generalize (if approved.at_ > (o1.heap t).approvedAt then
          (o1.modify t fun r => r.pin approved).note (.pinned t approved) else o1) = o2
          at hpinned ⊢
        refine hpinned.trans (.either (.spawn rfl) <| .either (.either (.either
          (work_transitionCaused _ _ _) ?_) <| .spawn rfl) <| work_redispatchUnderEpoch _ _ _)
        exact (work_transitionCaused _ _ _).trans (.spawn rfl)

lemma work_applyVerdict (verify) : Work G o (o.applyVerdict t verify) := by
  unfold applyVerdict
  split
  · have hmoved := work_transitionCaused (G := G) (o := o) (t := t) .done
      (transitionReason .verifying .done) .none
    refine .either hmoved <| hmoved.trans ?_
    exact .edited ((work_comment _).trans (work_oweDisposal _)) rfl
  · exact .either (work_enterNeedsReview _ _) <| .sent rfl rfl
  · exact work_enterNeedsReview _ _
  · exact work_enterNeedsReview _ _

lemma work_onVerified (s) : Work G o (o.onVerified t s) := by
  unfold onVerified
  extract_lets +onlyGivenNames o1
  have hcame : Work G o o1 := .edit rfl
  clear_value o1
  dsimp only
  have hretry : Work G o1 (o1.retryVerify t) := .edit rfl
  refine .either (hcame.trans work_finishIfRequested) <| .either hcame <| hcame.trans ?_
  split
  · exact (work_attemptEnded.trans (work_recordAttempt _ _)).trans (work_enterEpochFault _)
  · refine .either ?_ <| .either hretry <| .either hretry <| .either hretry ?_
    · exact work_gone.trans (work_finishNow _ _)
    · have hended : Work G o1 ((o1.attemptEnded t).modify t fun r =>
          r.recordAccount r.lastOutcome) :=
        work_attemptEnded.trans (.edit rfl)
      refine hended.trans ?_
      split
      · exact (work_recordAttempt _ _).trans (work_enterNeedsReview _ _)
      · exact (work_recordAttempt _ _).trans (work_applyVerdict _)

/-! ## Retained claims -/

lemma work_modifyHeld (id) {f : HeldClaim → HeldClaim}
    (hf : EditsHeld f) : Work G o (o.modifyHeld id f) := by
  unfold modifyHeld
  split
  · exact .refl _
  · rename_i h hlookup
    exact .stroke (.editHeld o id h f hlookup hf)

lemma work_driveHold : Work G o (o.driveHold t) :=
  .maybe <| .sent rfl rfl

lemma work_confirmDoneOwnership : Work G o (o.confirmDoneOwnership t) := .sent rfl rfl

/-- The history behind a conversion is the ground the retained claim's revision stands on. -/
lemma work_onClaimAnchor (err) (anchor : Int) (superseded : Bool) (approvalErr revision)
    (hground : err = none → approvalErr = none → superseded = false → anchor ≠ 0 →
      G.baseline (o.heap t).issue.identifier revision) :
    Work G o (o.onClaimAnchor t err anchor superseded approvalErr revision) := by
  unfold onClaimAnchor
  dsimp only
  have hcame : Work G o (o.modify t fun r => { r with convertInFlight := false }) :=
    .edit rfl
  have hname : ((o.modify t fun r => { r with convertInFlight := false }).heap t).issue.identifier =
      (o.heap t).issue.identifier := by simp [modify]
  generalize o.modify t _ = o1 at hcame hname ⊢
  split
  · exact hcame
  · rename_i hready
    have hready' : o1.readyToConvert t := by simpa using hready
    refine hcame.trans ?_
    split
    · exact .either ((work_endCycle _ _ _ _).trans (.stroke (.forget _ _))) <| .refl _
    · refine .either work_confirmDoneOwnership <| .guard
        fun hread => .ite (fun _ => (work_endCycle _ _ _ _).trans (work_release _)) fun hsup =>
          .ite (fun _ => work_confirmDoneOwnership) fun hanchor => ?_
      refine .stroke (.convert o1 t anchor revision hready' ?_)
      rw [hname]
      exact hground rfl (by simpa using hread) (Bool.eq_false_of_not_eq_true hsup) hanchor

lemma work_onDoneOwnership (res) : Work G o (o.onDoneOwnership t res) := by
  unfold onDoneOwnership
  extract_lets +onlyGivenNames o1
  have hcame : Work G o o1 := .edit rfl
  clear_value o1
  dsimp only
  refine .either hcame <| hcame.trans ?_
  cases cycleEndedBy o1.definition res with
  | some why =>
    refine (work_endCycle (t := t) (o1.heap t).issue.identifier o1.bundle.workspaces
      (o1.heap t).workspace why).trans (.either (.stroke (.forget _ _)) ?_)
    split
    · exact .either (.stroke (.forget _ _)) <| .either (work_release _) <|
        .either (work_release _) <| .refl _
    · exact .refl _
  | none =>
    refine .either (.stroke (.forget _ _)) ?_
    split
    · exact .either (.stroke (.forget _ _)) <| .either (work_release _) <|
        .either (work_release _) <| .refl _
    · exact .refl _

lemma work_driveHeldExit (id) : Work G o (o.driveHeldExit id) := by
  unfold driveHeldExit
  split
  · exact .refl _
  · rename_i h hlookup
    refine .guard fun hidle => ?_
    obtain ⟨hflight, hgate⟩ : h.inFlight = false ∧ o.endedCycleOwed id = false := by
      simpa using hidle
    unfold driveHeldRelease
    rw [if_neg (by simp [hflight])]
    unfold enqueue
    split
    · simp only [modifyHeld, hlookup]
      exact .stroke (.sendHeld o id h hlookup hflight hgate)
    · exact work_modifyHeld id fun _ => ⟨rfl, rfl⟩

lemma work_releaseHeld (id why) : Work G o (o.releaseHeld id why) := by
  unfold releaseHeld
  split
  · exact .refl _
  · exact .maybe <| ((work_modifyHeld id (by exact fun _ => ⟨rfl, rfl⟩)).trans
      (.stroke (.oweCycle _ _ _ _ _))).trans (work_driveHeldExit _)

lemma work_checkHeldHistory (id h fresh) : Work G o (o.checkHeldHistory id h fresh) :=
  (work_modifyHeld id (by exact fun _ => ⟨rfl, rfl⟩)).trans (.spawn rfl)

lemma work_classifyHeld (id h fresh cur) : Work G o (o.classifyHeld id h fresh cur) :=
  .either (work_releaseHeld _ _) <| .either (work_releaseHeld _ _) <|
    .either (work_checkHeldHistory _ _ _) <| work_modifyHeld id fun _ => ⟨rfl, rfl⟩

lemma work_sweepHeldOne (id issues cur) : Work G o (o.sweepHeldOne id issues cur).1 := by
  unfold sweepHeldOne
  split
  · exact .refl _
  · split
    · exact .refl _
    · split
      · exact .refl _
      · exact work_classifyHeld _ _ _ _

lemma work_sweepHeld (order issues err cur) : Work G o (o.sweepHeld order issues err cur).1 := by
  unfold sweepHeld
  split
  · exact .refl _
  · generalize visitOrder order o.held.keys = ids
    suffices h : ∀ acc : Orchestrator × List String, Work G acc.1 (ids.foldl
        (fun (acc : Orchestrator × List String) id =>
          ((acc.1.sweepHeldOne id issues cur).1,
            if (acc.1.sweepHeldOne id issues cur).2 then acc.2 ++ [id] else acc.2)) acc).1 from
      h (o, [])
    induction ids with
    | nil => exact fun _ => .refl _
    | cons id ids ih =>
      intro acc
      rw [List.foldl_cons]
      exact (work_sweepHeldOne id issues cur).trans (ih (_, _))

lemma work_confirmHeldClaim (id) : Work G o (o.confirmHeldClaim id) := by
  unfold confirmHeldClaim
  split
  · exact .refl _
  · exact (work_modifyHeld id (by exact fun _ => ⟨rfl, rfl⟩)).trans (.spawn rfl)

lemma work_offerHeldConfirmations (absent) : Work G o (o.offerHeldConfirmations absent) :=
  (Work.flags (by constructor <;> rfl)).trans (.foldl (fun _ id => work_confirmHeldClaim id) _)

lemma work_retryHeldExits (order) : Work G o (o.retryHeldExits order) := by
  unfold retryHeldExits
  refine .foldl (fun o id => ?_) _
  split
  · exact .refl _
  · exact .either (work_driveHeldExit _) <| .refl _

/-- A reading of a retained claim's issue, once an ended cycle is remembered. -/
lemma work_heldReading (id) (releasing : Bool) (res : RefreshResult) :
    Work G o (if gone res then o.dropHeld id
      else match res.err, res.issue with
        | none, some fresh =>
          if !containsFold fresh.assignees o.bundle.claimPrincipal then o.dropHeld id
          else if releasing then o.driveHeldExit id
          else o.modifyHeld id fun h => { h with issue := fresh }
        | _, _ => if releasing then o.driveHeldExit id else o) := by
  refine .either (.stroke (.dropHeld _ _)) ?_
  split
  · exact .either (.stroke (.dropHeld _ _)) <| .either (work_driveHeldExit _) <|
      work_modifyHeld id fun _ => ⟨rfl, rfl⟩
  · exact .either (work_driveHeldExit _) <| .refl _

lemma work_onHeldConfirmed (id token res) : Work G o (o.onHeldConfirmed id token res) := by
  unfold onHeldConfirmed
  split
  · exact .refl _
  · rename_i h hlookup
    refine .maybe ?_
    dsimp only
    have hcame : Work G o (o.modifyHeld id fun h => { h with inFlight := false }) :=
      work_modifyHeld id fun _ => ⟨rfl, rfl⟩
    generalize o.modifyHeld id _ = o1 at hcame ⊢
    refine hcame.trans ?_
    generalize h.releasing = releasing
    cases releasing <;> cases cycleEndedBy o1.definition res
    case false.some why =>
      exact (Work.stroke (.oweCycle _ id o1.bundle.workspaces h.workspace why)).trans
        (work_heldReading id false res)
    all_goals exact work_heldReading id _ res

lemma work_rebaseHeld (id) (fresh : Issue) (hground : G.baseline id fresh.revision) :
    Work G o (o.modifyHeld id fun h => { h with issue := fresh, revision := fresh.revision }) := by
  unfold modifyHeld
  split
  · exact .refl _
  · rename_i h hlookup
    exact .stroke (.rebase o id h fresh hlookup hground)

/-- What a clean history makes of a retained claim rests on that history. -/
lemma work_onHeldHistory (id token err) (fresh : Issue) (anchor : Int) (closed superseded : Bool)
    (approvalErr)
    (hground : err = none → anchor ≠ 0 → closed = false → approvalErr = none →
      superseded = false → G.baseline id fresh.revision) :
    Work G o (o.onHeldHistory id token err fresh anchor closed superseded approvalErr) := by
  unfold onHeldHistory
  split
  · exact .refl _
  · rename_i h hlookup
    refine .maybe ?_
    dsimp only
    have hcame : Work G o (o.modifyHeld id fun h => { h with inFlight := false }) :=
      work_modifyHeld id fun _ => ⟨rfl, rfl⟩
    refine hcame.trans (.guard fun hread => ?_)
    generalize o.modifyHeld id _ = o1
    have hanchor : Work G o1 (o1.modifyHeld id fun h => { h with cycleAnchor := anchor }) :=
      work_modifyHeld id fun _ => ⟨rfl, rfl⟩
    refine hanchor.trans (.ite (fun _ => work_releaseHeld _ _) fun hclosed =>
      .guard fun hchecked => .ite (fun _ => work_releaseHeld _ _) fun hstands => ?_)
    simp only [Bool.or_eq_true, decide_eq_true_eq, not_or, Bool.not_eq_true] at hread
    exact work_rebaseHeld id fresh (hground (by simpa using hread.1) hread.2
      (by simpa using hclosed)
      (by simpa using hchecked) (by simpa using hstands))

/-! ## Ended cycles -/

lemma work_adoptDurableEndedCycles (workspaces refs) :
    Work G o (o.adoptDurableEndedCycles workspaces refs) :=
  .foldl (fun _ _ => .stroke (.oweCycle _ _ _ _ _)) _

lemma work_applyCycleScan (workspaces refs err) (mayClear : Bool) :
    Work G o (o.applyCycleScan workspaces refs err mayClear).1 := by
  unfold applyCycleScan
  split
  · exact .stroke (.scanFailed _ _)
  · exact (work_adoptDurableEndedCycles workspaces refs).trans (.stroke (.scanFailed _ _))

lemma work_beginCycleScan : Work G o o.beginCycleScan := by
  refine .guard fun hbusy => .either (.stroke (.scanFailed _ _)) ?_
  simp only [Bool.or_eq_true, not_or, Bool.not_eq_true] at hbusy
  exact .stroke (.scanCycles o hbusy.1.1 hbusy.1.2)

/-- Work on whatever record an issue has. -/
lemma work_ofIssue (id) {f : Orchestrator → Token → Orchestrator} (hf : ∀ o t, Work G o (f o t)) :
    Work G o (match o.records.lookup id with
      | some t => f o t
      | none => o) := by
  split
  · exact hf _ _
  · exact .refl _

lemma work_clearEndedCycle (address)
    (hidle : ∀ c, o.endedCycles.lookup address = some c → c.inFlight = false) :
    Work G o (o.clearEndedCycle address) := by
  unfold clearEndedCycle
  split
  · exact .refl _
  · rename_i c hlookup
    dsimp only
    refine (Work.stroke (.dropCycle o address c hlookup (hidle c hlookup))).trans (.maybe ?_)
    refine .trans ?_ (work_ofIssue c.issue fun _ _ => work_driveOwed)
    split
    · exact .either (work_driveHeldExit _) <| .refl _
    · exact .refl _

lemma work_disposeEndedCycle (address)
    (hidle : ∀ c, o.endedCycles.lookup address = some c → c.inFlight = false) :
    Work G o (o.disposeEndedCycle address) := by
  unfold disposeEndedCycle
  split
  · exact .refl _
  · rename_i c hlookup
    exact .either (work_clearEndedCycle address hidle) <|
      .stroke (.disposeCycle o address c hlookup (hidle c hlookup))

lemma work_driveEndedCycles : Work G o o.driveEndedCycles := by
  unfold driveEndedCycles
  dsimp only
  generalize hcandidates : o.endedCycles.entries.filter _ = candidates
  have hidle : ∀ address ∈ candidates.map (·.1), ∀ c,
      o.endedCycles.lookup address = some c → c.inFlight = false := by
    intro address hmem c hlookup
    obtain ⟨e, he, rfl⟩ := List.mem_map.1 hmem
    rw [← hcandidates, List.mem_filter] at he
    have hsame : o.endedCycles.lookup e.1 = some e.2 := AList.mem_lookup_iff.2 he.1
    rw [hlookup, Option.some.injEq] at hsame
    have hflight := (Bool.and_eq_true_iff.1 he.2).1
    rw [← hsame] at hflight
    simpa using hflight
  have hturn := rotate_one (candidates.map (·.1)) o.disposalCursor
  generalize rotate (candidates.map (·.1)) o.disposalCursor 1 = picked at hturn ⊢
  have hmoved : Work G o { o with disposalCursor := picked.2 } :=
    .flags (by constructor <;> rfl)
  refine hmoved.trans ?_
  -- one address in each turn, so the guard still stands when it is disposed of
  obtain hnone | ⟨address, hmem, hone⟩ := hturn
  · rw [hnone]
    exact .refl _
  · rw [hone]
    exact work_disposeEndedCycle address (hidle address hmem)

/-! ## Failing writes and parked records -/

lemma work_afterEffect (what) : Work G o (o.afterEffect t what) :=
  .either work_onClaimProjected <| .either (.stroke (.forget _ _)) <| .refl _

lemma work_confirmOwedAbsence : Work G o (o.confirmOwedAbsence t) := .sent rfl rfl

lemma work_offerOwedConfirmations : Work G o o.offerOwedConfirmations :=
  .maybe <| (Work.flags (by constructor <;> rfl)).trans (.foldl (fun _ id =>
      work_ofIssue (f := confirmOwedAbsence) id fun _ _ => work_confirmOwedAbsence) _)

lemma work_onOwedConfirmed (res) : Work G o (o.onOwedConfirmed t res) := by
  unfold onOwedConfirmed
  extract_lets +onlyGivenNames o1
  have hcame : Work G o o1 := .edit rfl
  clear_value o1
  dsimp only
  refine .either hcame <| .either (hcame.trans ?_) <| hcame
  exact (work_gone.trans (work_stopAndFinish _ _)).trans work_driveOwed

lemma work_applyParked (fresh cur) (labelsUsable : Bool) :
    Work G o (o.applyParked t fresh cur labelsUsable) := by
  unfold applyParked
  refine .either (work_stopAndFinish _ _) ?_
  dsimp only
  have hrouted : Work G o (o.modify t fun r => r.adoptRouting fresh) := .edit rfl
  generalize o.modify t _ = o1 at hrouted ⊢
  refine .either hrouted <| hrouted.trans ?_
  have hrestored : Work G o1 ((o1.modify t fun r => r.restoreBudgets).note (.requeued t)) :=
    .edited (.note rfl) rfl
  generalize (o1.modify t _).note _ = o2 at hrestored ⊢
  exact .either (hrestored.trans ((work_oweEffect _).trans (work_comment _))) <|
    hrestored.trans (work_enterBackoff _ _)

lemma work_confirmParkedAbsence : Work G o (o.confirmParkedAbsence t) := .sent rfl rfl

lemma work_offerParkedConfirmations (absent) : Work G o (o.offerParkedConfirmations absent) :=
  (Work.flags (by constructor <;> rfl)).trans (.foldl (fun _ id =>
      work_ofIssue (f := confirmParkedAbsence) id fun _ _ => work_confirmParkedAbsence) _)

lemma work_sweepParkedOne (w issues cur) : Work G o (o.sweepParkedOne w issues cur).1 := by
  unfold sweepParkedOne
  split
  · exact .refl _
  · dsimp only
    split
    · exact .refl _
    · split
      · exact .refl _
      · exact work_applyParked _ _ _

lemma work_sweepParked (wants issues err cur) : Work G o (o.sweepParked wants issues err cur) := by
  refine .maybe <| .trans ?_ (work_offerParkedConfirmations _)
  suffices h : ∀ acc : Orchestrator × List String, Work G acc.1 (wants.foldl
      (fun (acc : Orchestrator × List String) w =>
        ((acc.1.sweepParkedOne w issues cur).1,
          if (acc.1.sweepParkedOne w issues cur).2 then acc.2 ++ [w.id] else acc.2)) acc).1 from
    h (o, [])
  induction wants with
  | nil => exact fun _ => .refl _
  | cons w wants ih =>
    intro acc
    rw [List.foldl_cons]
    exact (work_sweepParkedOne w issues cur).trans (ih (_, _))

lemma work_onParkedConfirmed (res) (settled : Bool) :
    Work G o (o.onParkedConfirmed t res settled) := by
  unfold onParkedConfirmed
  extract_lets +onlyGivenNames o1
  have hcame : Work G o o1 := .edit rfl
  clear_value o1
  dsimp only
  refine .either hcame <| hcame.trans (.either ?_ ?_)
  · exact work_gone.trans (work_stopAndFinish _ _)
  · split
    · refine .either ?_ <| work_applyParked _ _ _
      exact (Work.edits t (by simp [Edits])).trans (work_stopAndFinish _ _)
    · exact .refl _

end Ben.Orchestrator
