import Ben.Orchestrator.FrameEffects

/-!
# Work that no tenure sees

Retained claims, ended cycles, the pacing of questions and the execution of the ordered queue
are kept apart from the records: whatever the loop does about them changes nothing that matters
to a tenure.
-/

namespace Ben

variable [Platform]

namespace Orchestrator

/-! ## Retained claims -/

variable (o : Orchestrator)

@[simp] lemma view_modifyHeld (id) (f : HeldClaim → HeldClaim) :
    (o.modifyHeld id f).view = o.view := by
  unfold modifyHeld
  split <;> rfl

@[simp] lemma view_dropHeld (id) : (o.dropHeld id).view = o.view := rfl

@[simp] lemma view_driveHold (t) : (o.driveHold t).view = o.view :=
  view_guard fun _ => view_ask rfl rfl rfl fun _ => rfl

@[simp] lemma view_confirmDoneOwnership (t) : (o.confirmDoneOwnership t).view = o.view :=
  view_ask rfl rfl rfl fun _ => rfl

/-- The release of a retained claim is no exit of a tenure. -/
lemma view_enqueue_heldRelease (id token issue) :
    (o.enqueue (.heldRelease id token issue)).1.view = o.view := by
  unfold enqueue
  split
  · refine view_congr rfl rfl fun t => ?_
    have hexits : ({ o with effects := o.effects ++ [.heldRelease id token issue] } :
        Orchestrator).ExitOwed t = o.ExitOwed t := by
      simp [ExitOwed, Job.exits]
    simp only [tenure, hexits]
    rfl
  · rfl

@[simp] lemma view_driveHeldRelease (id h) : (o.driveHeldRelease id h).view = o.view :=
  view_guard fun _ => (view_modifyHeld _ _ _).trans (view_enqueue_heldRelease _ _ _ _)

@[simp] lemma view_driveHeldExit (id) : (o.driveHeldExit id).view = o.view := by
  unfold driveHeldExit
  split
  · rfl
  · exact view_guard fun _ => view_driveHeldRelease _ _ _

@[simp] lemma view_releaseHeld (id why) : (o.releaseHeld id why).view = o.view := by
  unfold releaseHeld
  split
  · rfl
  · exact view_guard fun _ => by simp

@[simp] lemma view_checkHeldHistory (id h fresh) :
    (o.checkHeldHistory id h fresh).view = o.view :=
  (view_spawn_side _ rfl fun _ => rfl).trans (view_modifyHeld _ _ _)

@[simp] lemma view_classifyHeld (id h fresh cur) :
    (o.classifyHeld id h fresh cur).view = o.view := by
  unfold classifyHeld
  repeat' split
  all_goals simp

@[simp] lemma view_sweepHeldOne (id issues cur) :
    (o.sweepHeldOne id issues cur).1.view = o.view := by
  unfold sweepHeldOne
  split
  · rfl
  · split
    · rfl
    · split
      · rfl
      · exact view_classifyHeld _ _ _ _ _

@[simp] lemma view_sweepHeld (order issues err cur) :
    (o.sweepHeld order issues err cur).1.view = o.view := by
  unfold sweepHeld
  split
  · rfl
  · generalize visitOrder order o.held.keys = ids
    suffices h : ∀ acc : Orchestrator × List String, (ids.foldl (fun acc id =>
        ((acc.1.sweepHeldOne id issues cur).1,
          if (acc.1.sweepHeldOne id issues cur).2 then acc.2 ++ [id] else acc.2)) acc).1.view =
        acc.1.view from h (o, [])
    intro acc
    induction ids generalizing acc with
    | nil => rfl
    | cons id ids ih => rw [List.foldl_cons, ih, view_sweepHeldOne]

@[simp] lemma view_confirmHeldClaim (id) : (o.confirmHeldClaim id).view = o.view := by
  unfold confirmHeldClaim
  split
  · rfl
  · exact (view_spawn_side _ rfl fun _ => rfl).trans (view_modifyHeld _ _ _)

@[simp] lemma view_offerHeldConfirmations (absent) :
    (o.offerHeldConfirmations absent).view = o.view :=
  view_foldl (fun o id => view_confirmHeldClaim o id) _ _

@[simp] lemma view_retryHeldExits (order) : (o.retryHeldExits order).view = o.view := by
  refine view_foldl (fun o id => ?_) _ _
  split
  · rfl
  · exact view_ite (fun _ => view_driveHeldExit _ _) fun _ => rfl

@[simp] lemma view_onHeldReleased (id token err) :
    (o.onHeldReleased id token err).view = o.view := by
  unfold onHeldReleased
  repeat' split
  all_goals simp

@[simp] lemma view_onHeldConfirmed (id token res) :
    (o.onHeldConfirmed id token res).view = o.view := by
  unfold onHeldConfirmed
  dsimp only
  repeat' split
  all_goals simp

@[simp] lemma view_onHeldHistory (id token err fresh) (anchor : Int)
    (closed superseded : Bool) (approvalErr) :
    (o.onHeldHistory id token err fresh anchor closed superseded approvalErr).view = o.view := by
  unfold onHeldHistory
  dsimp only
  repeat' split
  all_goals simp

/-! ## Ended cycles -/

@[simp] lemma view_adoptDurableEndedCycles (workspaces refs) :
    (o.adoptDurableEndedCycles workspaces refs).view = o.view :=
  view_foldl (fun o _ => view_oweEndedCycle o _ _ _ _) _ _

@[simp] lemma view_applyCycleScan (workspaces refs err) (mayClear : Bool) :
    (o.applyCycleScan workspaces refs err mayClear).1.view = o.view := by
  unfold applyCycleScan
  split
  · rfl
  · exact view_adoptDurableEndedCycles o workspaces refs

@[simp] lemma view_beginCycleScan : o.beginCycleScan.view = o.view :=
  view_guard fun _ => view_ite (fun _ => rfl) fun _ => view_spawn_side _ rfl fun _ => rfl

@[simp] lemma view_clearEndedCycle (address) : (o.clearEndedCycle address).view = o.view := by
  unfold clearEndedCycle
  dsimp only
  split
  · rfl
  · refine view_ite (fun _ => rfl) fun _ => (view_ofIssue _ fun o t => view_driveOwed o t).trans ?_
    split
    · exact view_ite (fun _ => view_driveHeldExit _ _) fun _ => rfl
    · rfl

@[simp] lemma view_disposeEndedCycle (address) : (o.disposeEndedCycle address).view = o.view := by
  unfold disposeEndedCycle
  split
  · rfl
  · exact view_ite (fun _ => view_clearEndedCycle _ _) fun _ => view_spawn_side _ rfl fun _ => rfl

@[simp] lemma view_driveEndedCycles : o.driveEndedCycles.view = o.view :=
  view_foldl (fun o address => view_disposeEndedCycle o address) _ _

@[simp] lemma view_onCycleDisposed (address err) :
    (o.onCycleDisposed address err).view = o.view := by
  unfold onCycleDisposed
  split
  · rfl
  · dsimp only
    split
    · rfl
    · exact view_clearEndedCycle _ _

@[simp] lemma view_claimBaseScan (workspaces refs err) (seq : Nat) :
    (o.claimBaseScan workspaces refs err seq).1.view = o.view := by
  have hcount : (if o.cycleMutationsInFlight ≤ 0 then { o with cycleScanFailed := true }
      else { o with cycleMutationsInFlight := o.cycleMutationsInFlight - 1 }).view = o.view := by
    split <;> rfl
  unfold claimBaseScan
  dsimp only
  generalize (if o.cycleMutationsInFlight ≤ 0 then _ else _) = o1 at hcount ⊢
  split
  · rw [view_applyCycleScan, hcount]
  · split
    · exact (view_applyCycleScan _ _ _ _ _).trans hcount
    · exact hcount

/-! ## Turns and questions -/

@[simp] lemma view_beginDispatchReads : o.beginDispatchReads.view = o.view :=
  view_guard fun _ => view_spawn_side _ rfl fun _ => rfl

@[simp] lemma view_beginReconcile (order) : (o.beginReconcile order).view = o.view :=
  view_guard fun _ => view_spawn_side _ rfl fun _ => rfl

@[simp] lemma view_onCycleScan (workspaces refs err) (seq : Nat) :
    (o.onCycleScan workspaces refs err seq).view = o.view := by
  unfold onCycleScan
  dsimp only
  rw [view_beginDispatchReads]
  split
  · exact view_applyCycleScan _ _ _ _ _
  · rfl

@[simp] lemma view_confirmOwedAbsence (t) : (o.confirmOwedAbsence t).view = o.view :=
  view_ask rfl rfl rfl fun _ => rfl

@[simp] lemma view_offerOwedConfirmations : o.offerOwedConfirmations.view = o.view :=
  view_guard fun _ =>
    view_foldl (fun _ id => view_ofIssue id fun o t => view_confirmOwedAbsence o t) _ _

@[simp] lemma view_confirmParkedAbsence (t) : (o.confirmParkedAbsence t).view = o.view :=
  view_ask rfl rfl rfl fun _ => rfl

@[simp] lemma view_offerParkedConfirmations (absent) :
    (o.offerParkedConfirmations absent).view = o.view :=
  view_foldl (fun _ id => view_ofIssue id fun o t => view_confirmParkedAbsence o t) _ _

@[simp] lemma view_retryRecoveryScan (cur) : (o.retryRecoveryScan cur).view = o.view :=
  view_guard fun _ => view_spawn_side _ rfl fun _ => rfl

@[simp] lemma view_retryRecoveryOne (t cur) : (o.retryRecoveryOne t cur).view = o.view :=
  view_guard fun _ => view_ask rfl rfl rfl fun _ => rfl

@[simp] lemma view_retryRecovery (order) : (o.retryRecovery order).view = o.view :=
  (view_foldl (fun _ id => view_ofIssue id fun o t => view_retryRecoveryOne o t _) _ _).trans
    (view_retryRecoveryScan o _)

@[simp] lemma view_retrySweep : o.retrySweep.view = o.view := by
  unfold retrySweep
  split
  · rfl
  · exact view_guard fun _ => view_spawn_side _ rfl fun _ => rfl

@[simp] lemma view_onSwept (res) : (o.onSwept res).view = o.view := by
  unfold onSwept
  dsimp only
  split <;> rfl

/-! ## The ordered queue -/

/-- A job that ran is now reported: an exit among them is still an exit. -/
lemma view_runEffect {o o' : Orchestrator} {err} (h : o.runEffect err = some o') :
    o'.view = o.view := by
  unfold runEffect at h
  cases heffects : o.effects with
  | nil => simp [heffects] at h
  | cons job rest =>
    rw [heffects] at h
    have hran : ∀ (w : Worker), w.duty = none → (∀ t, w.exits t = job.exits t) →
        (({ o with effects := rest }.note (.ran job err)).spawn w).view = o.view := by
      intro w hduty hexits
      refine view_congr rfl rfl fun t => ?_
      have hother : ∀ d tag, w.duty = some (d, tag) → tag.token ≠ t := by simp [hduty]
      have hconcerns : (Act.spawned w).concerns t = false := by
        rw [← Bool.not_eq_true]
        intro hc
        obtain ⟨d, tag, hd, -⟩ := concerns_spawned hc
        simp [hduty] at hd
      have howed : (({ o with effects := rest }.note (.ran job err)).spawn w).ExitOwed t =
          o.ExitOwed t := by
        simp only [ExitOwed, spawn, note, heffects, List.mem_cons, exists_eq_or_imp, hexits,
          eq_iff_iff]
        rw [or_assoc]
        exact or_congr_right or_left_comm
      refine Tenure.ext rfl (outstanding_cons_of_other _ _ hother) ?_ rfl rfl howed rfl
      exact (past_cons_of_not_concerns _ hconcerns).trans (past_cons_of_not_concerns _ rfl)
    cases job with
    | owed tag eff => exact Option.some.inj h ▸ hran _ rfl fun _ => rfl
    | heldRelease id token issue => exact Option.some.inj h ▸ hran _ rfl fun _ => rfl

end Orchestrator

end Ben
