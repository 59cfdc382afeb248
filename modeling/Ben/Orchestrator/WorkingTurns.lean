import Ben.Orchestrator.Working

/-!
# Every turn of the loop is work

Recovery, the answers that drive everything that waits for another try, dispatch and shutdown, each
again a sequence of strokes.
-/

namespace Ben.Orchestrator

variable [Platform] {G : Grounds} {o : Orchestrator} {t : Token}

/-! ## Recovery -/

lemma work_adoptRecovered (issue facts v cur state) :
    Work G o (o.adoptRecovered issue facts v cur state).1 := by
  unfold adoptRecovered
  refine (Work.stroke (.adopt o _ rfl rfl rfl)).trans (.stroke (.recovered _ _ _ ?_))
  simp [adopt]

lemma work_adoptUnclassified (issue cur) :
    Work G o (o.adoptUnclassified issue cur) := .stroke (.adopt o _ rfl rfl rfl)

lemma work_projectRecovery (facts v) : Work G o (o.projectRecovery t facts v) := by
  unfold projectRecovery
  refine .maybe ?_
  dsimp only
  have hprojected : Work G o (o.oweProjection t ("project " ++ labelName v.stateLabel)
      (.setStateLabels (o.heap t).issue v.stateLabel)) := work_oweEffect _
  refine .either hprojected <| hprojected.trans ?_
  split
  · exact .edited (work_comment _) rfl
  · exact work_comment _

lemma work_resumeRecoveredBackoff : Work G o (o.resumeRecoveredBackoff t) :=
  .either (work_transitionCaused _ _ _) <|
    (work_transitionCaused _ _ _).trans (work_enterBackoff _ _)

lemma work_applyRecovery (issue facts v cur) : Work G o (o.applyRecovery issue facts v cur) := by
  have hadopt := fun state => work_adoptRecovered (G := G) (o := o) issue facts v cur state
  unfold applyRecovery
  split
  · exact .stroke (.forget _ _)
  · exact work_adoptUnclassified _ _
  · exact work_adoptUnclassified _ _
  · exact ((hadopt _).trans (.edit (by rfl))).trans (work_projectRecovery _ _)
  · exact (((hadopt _).trans (.edit (by rfl))).trans
      (work_projectRecovery _ _)).trans work_beginApproval
  · exact ((hadopt _).trans (work_projectRecovery _ _)).trans work_resumeRecoveredBackoff
  · exact ((hadopt _).trans (.edit (by rfl))).trans (work_projectRecovery _ _)
  · exact (((hadopt _).trans (work_projectRecovery _ _)).trans (work_oweDisposal _)).trans
      work_driveHold
  · exact ((((hadopt _).trans (work_projectRecovery _ _)).trans
      work_abandonPendingClaimBase).trans (work_endCycle _ _ _ _)).trans (work_release _)
  · exact ((((hadopt _).trans (work_projectRecovery _ _)).trans
      work_abandonPendingClaimBase).trans (work_disposeRevoked _)).trans (work_release _)

lemma work_noteEvidence (facts) : Work G o (o.noteEvidence facts) := .maybe <| .note rfl

lemma work_recoverCandidate (issue cur reads) : Work G o (o.recoverCandidate issue cur reads) := by
  unfold recoverCandidate
  split
  · exact work_adoptUnclassified _ _
  · rename_i facts _
    refine (work_noteEvidence facts).trans ?_
    dsimp only
    split
    · exact work_adoptUnclassified _ _
    · exact work_applyRecovery _ _ _ _

lemma work_noteRecoveryEvidence (cur fresh reads) :
    Work G o (o.noteRecoveryEvidence cur fresh reads) := by
  unfold noteRecoveryEvidence
  split
  · refine .maybe ?_
    split
    · exact work_noteEvidence _
    · exact .refl _
  · exact .refl _

lemma work_retryRecoveryScan (cur) : Work G o (o.retryRecoveryScan cur) :=
  .maybe <| (Work.flags (by constructor <;> rfl)).trans (.spawn rfl)

lemma work_retryRecoveryOne (cur) : Work G o (o.retryRecoveryOne t cur) :=
  .maybe <| .sent rfl rfl

lemma work_retryRecovery (order) : Work G o (o.retryRecovery order) :=
  (work_retryRecoveryScan _).trans (.foldl (fun _ id =>
    work_ofIssue (f := fun o' t => o'.retryRecoveryOne t o.cur) id
      fun _ _ => work_retryRecoveryOne _) _)

lemma work_scanCandidate (issue cur) : Work G o (o.scanCandidate issue cur) :=
  .maybe <| .either (.stroke (.deferCandidate o issue.identifier)) <| work_adoptUnclassified _ _

lemma work_onRecovered (revision : Nat) (s) : Work G o (o.onRecovered t revision s) := by
  unfold onRecovered
  extract_lets +onlyGivenNames o1
  have hcame : Work G o o1 := .edit rfl
  clear_value o1
  dsimp only
  refine .either hcame <| hcame.trans ?_
  split
  · exact .refl _
  · exact .maybe <| (Work.stroke (.forget _ _)).trans (work_applyRecovery _ _ _ _)

/-! ## The sweep -/

lemma work_onSwept (res) : Work G o (o.onSwept res) := by
  unfold onSwept
  dsimp only
  split
  · exact .flags (by constructor <;> rfl)
  · exact .flags (by constructor <;> rfl)

lemma work_retrySweep : Work G o o.retrySweep := by
  unfold retrySweep
  refine .maybe <| .maybe ?_
  dsimp only
  exact Work.trans (.flags (by constructor <;> rfl)) (.spawn rfl)

/-! ## Reconciliation -/

/-- Work on every record of the table. -/
lemma work_eachRecord (order) {f : Orchestrator → Token → Orchestrator}
    (hf : ∀ o t, Work G o (f o t)) : Work G o (o.eachRecord order f) :=
  .foldl (fun _ id => work_ofIssue id hf) _

lemma work_beginReconcile (order) : Work G o (o.beginReconcile order) :=
  .maybe <| (Work.flags (by constructor <;> rfl)).trans (.spawn rfl)

lemma work_driveVerifyRetry (order) : Work G o (o.driveVerifyRetry order) :=
  work_eachRecord order fun _ _ => .maybe <| .edited work_beginVerify rfl

lemma work_onTick (orders) : Work G o (o.onTick orders) :=
  (work_beginCycleScan.trans (work_driveVerifyRetry _)).trans (work_beginReconcile _)

lemma work_beginDispatchReads : Work G o o.beginDispatchReads :=
  .maybe <| (Work.flags (by constructor <;> rfl)).trans (.spawn rfl)

lemma work_reconcileOne (id res cur) : Work G o (o.reconcileOne id res cur) := by
  unfold reconcileOne
  split
  · exact .refl _
  · dsimp only
    refine .maybe <| .either ?_ ?_
    · exact work_gone.trans (work_stopAndFinish _ _)
    · split
      · exact .either (work_stopAndFinish _ _) <| .either (work_stopAndFinish _ _) <|
            .edit rfl
      · exact .refl _

lemma work_reconcile (order) (refreshed : List (String × RefreshResult)) (cur) :
    Work G o (o.reconcile order refreshed cur) := by
  refine .foldl (fun o id => ?_) _
  split
  · exact work_reconcileOne _ _ _
  · exact .refl _

lemma work_retryPendingExit : Work G o (o.retryPendingExit t) := by
  unfold retryPendingExit
  extract_lets o1 o2 r o3 r' o4
  have hdriven : Work G o o1 := work_driveOwed.trans work_driveHold
  have hstop : Work G o1 o2 := .either (work_beginStop _) <| .refl _
  have hclaim : Work G o2 o3 :=
    .either (.either work_beginClaimBase <| work_beginApproval) <| .refl _
  have hbase : Work G o3 o4 := .either work_beginClaimBase <| .refl _
  exact (((hdriven.trans hstop).trans hclaim).trans hbase).trans work_confirmQuiet

lemma work_onReconciled (orders) (refreshed : List (String × RefreshResult)) (parked sweep) :
    Work G o (o.onReconciled orders refreshed parked sweep) := by
  unfold onReconciled
  dsimp only
  refine .trans ?_ work_beginDispatchReads
  refine .trans ?_ work_retrySweep
  refine .trans ?_ (work_retryRecovery _)
  refine .trans ?_ work_driveMarkerClears
  refine .trans ?_ work_offerOwedConfirmations
  refine .trans ?_ (work_eachRecord _ fun _ _ => work_retryPendingExit)
  refine .trans ?_ work_driveEndedCycles
  refine .trans ?_ (work_retryHeldExits _)
  refine .trans ?_ (work_offerHeldConfirmations _)
  have hcame : Work G o { o with reconcileInFlight := false } := .flags (by constructor <;> rfl)
  refine (hcame.trans (work_reconcile orders.refreshed refreshed o.cur)).trans ?_
  cases sweep with
  | none => exact .refl _
  | some s => exact (work_sweepHeld _ _ _ _).trans (work_sweepParked _ _ _ _)

/-! ## Dispatch -/

lemma work_claimWhileFree (cur l) (hdraining : o.draining = false)
    (heligible : ∀ issue ∈ l, (o.held.lookup issue.identifier).isNone ∧
      o.endedCycleOwed issue.identifier = false ∧
      o.sweepDisposing.contains issue.identifier = false) : Work G o (o.claimWhileFree cur l) := by
  induction l generalizing o with
  | nil => exact .refl _
  | cons issue rest ih =>
    obtain ⟨hheld, hcycle, hfree⟩ := heligible issue (.head _)
    refine .maybe <|
      (Work.stroke (.claim o issue cur hdraining hheld hcycle hfree)).trans (ih hdraining ?_)
    exact fun other hother => heligible other (.tail _ hother)

lemma work_dispatch (candidates cur) : Work G o (o.dispatch candidates cur) := by
  refine .guard fun hdraining =>
    work_claimWhileFree cur _ (by simpa using hdraining) fun issue hmem => ?_
  have heligible : o.eligible issue :=
    (List.mem_filter.1 ((List.perm_insertionSort _ _).mem_iff.1 hmem)).2
  simp only [eligible, Bool.and_eq_true, Bool.not_eq_true'] at heligible
  exact ⟨heligible.1.1.2, heligible.1.2, heligible.2⟩

lemma work_onTickResult (orders candidates err) (revision : Nat) :
    Work G o (o.onTickResult orders candidates err revision) := by
  unfold onTickResult
  dsimp only
  have hcame : Work G o { o with dispatchInFlight := false } := .flags (by constructor <;> rfl)
  exact .either (hcame.trans (work_onTick _)) <| .either hcame <| hcame.trans (work_dispatch _ _)

/-! ## Shutdown -/

lemma work_suspend : Work G o (o.suspend t) := by
  unfold suspend
  refine .either work_driveOwed ?_
  extract_lets +onlyGivenNames o1
  have hsuspended : Work G o o1 := .edit rfl
  clear_value o1
  dsimp only
  refine hsuspended.trans ?_
  generalize heq : (if (o1.heap t).handle.isNone ∧ (o1.heap t).pending = 0 then _ else o1) = o2
  have hcomplete : Work G o1 o2 :=
    heq ▸ .either ((work_recordAttempt _ _).trans work_completeShutdown) (.refl _)
  refine hcomplete.trans ((work_driveOwed (t := t)).trans ?_)
  exact .either (work_beginStop _) <| .refl _

lemma work_driveShutdown (order) : Work G o (o.driveShutdown order) := by
  refine .maybe ?_
  have hsuspended : Work G o (o.eachRecord order suspend) :=
    work_eachRecord order fun _ _ => work_suspend
  exact hsuspended.trans (.either (.flags (by constructor <;> rfl)) <| .refl _)

/-! ## Startup -/

lemma work_recover (reads) : Work G o (o.recover reads) := by
  unfold recover
  extract_lets cur cycles o1
  have hcycles : Work G o o1 :=
    .either (work_applyCycleScan _ _ _ _) <| .stroke (.scanFailed _ _)
  clear_value o1
  refine hcycles.trans ?_
  split
  · exact (Work.stroke (.oweScan _)).trans (.flags (by constructor <;> rfl))
  · rename_i candidates _
    refine .either ?_ ?_
    · exact (Work.stroke (.oweScan _)).trans (.flags (by constructor <;> rfl))
    · exact .trans (.foldl (fun _ issue => work_recoverCandidate issue o.cur
        (reads.facts issue.identifier)) candidates) (.flags (by constructor <;> rfl))

end Ben.Orchestrator
