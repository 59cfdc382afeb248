import Ben.Orchestrator.Table
import Ben.Orchestrator.Unseen

/-!
# What a turn of the loop does to the tenures

Handlers that look after more than one record, or that may end a tenure: the completion of an
owed effect, the conversion of finished records, the watching of parked ones, reconciliation,
the retries of every turn, dispatch and shutdown.  Each keeps the invariant of all tenures.
-/

namespace Ben

variable [Platform]

section

variable {m : Mode} {v : Tenure}

/-- An exit that was owed may no longer be. -/
lemma Sound.exits_of_imp (h : Sound m v) {E : Prop} (hE : E → v.exits) :
    Sound m { v with exits := E } :=
  { h with exit := fun he => h.exit (hE he) }

/-- A parked record is settled. -/
lemma Sound.settled_of_parked (h : Sound m v) (hstate : v.phase.state = .needsReview) :
    v.Settled where
  launch := h.no_launch (by simp [hstate])
  handle := by
    cases hh : v.phase.handle with
    | none => rfl
    | some g => rcases (h.handle g hh).2.1 with hs | hs | hs <;> simp [hstate] at hs
  timers := Nat.eq_zero_of_not_pos fun ht => by
    rcases (h.timer ht).2.state with ⟨hs, -⟩ | hs <;> simp [hstate] at hs
  verifies := Nat.eq_zero_of_not_pos fun hv => by
    simpa [hstate] using (h.verifying (.inl hv)).state
  verifyRetry := Bool.eq_false_of_not_eq_true fun hv => by
    simpa [hstate] using (h.verifying (.inr hv)).state
  outcome ho := by
    by_contra hq
    rcases (h.held ho (Bool.eq_false_of_not_eq_true hq)).2 with hs | hs <;> simp [hstate] at hs
  summaries := Nat.eq_zero_of_not_pos fun hs => by
    rcases (h.summary hs).2.2.2 with hs | hs <;> simp [hstate] at hs
  selfStops hs := (h.selfStop hs).2.2.2.resolve_left (by simp [hstate])
  claims := Nat.eq_zero_of_not_pos fun hc => by simpa [hstate] using (h.claiming hc).2.1
  unclassified := Bool.eq_false_of_not_eq_true fun hu => by
    simpa [hstate] using (h.unclassified hu).1

end

namespace Orchestrator

variable {m : Mode} {o : Orchestrator} {t : Token}

/-- Work that keeps the invariant piece by piece keeps it. -/
lemma keeps_foldl {α : Type} {f : Orchestrator → α → Orchestrator}
    (hf : ∀ o a, Good m o.view → Keeps m o.view (f o a).view) (h : Good m o.view) (l : List α) :
    Keeps m o.view (l.foldl f o).view := by
  induction l generalizing o with
  | nil => exact .refl h
  | cons a l ih => exact (hf o a h).trans (ih (hf o a h).good)

/-- Work on every record of the table keeps the invariant if the work on each does. -/
lemma keeps_eachRecord {f : Orchestrator → Token → Orchestrator}
    (hf : ∀ o t, Good m o.view → (o.tenure t).attached → Keeps m o.view (f o t).view)
    (h : Good m o.view) (order) : Keeps m o.view (o.eachRecord order f).view := by
  refine keeps_foldl (fun o id h => ?_) h _
  split
  · rename_i t ht
    exact hf o t h (attached_of_has h ht)
  · exact .refl h

/-- Work that is not seen keeps the invariant. -/
lemma keeps_of_view {o' : Orchestrator} (hview : o'.view = o.view) (h : Good m o.view) :
    Keeps m o.view o'.view := by
  rw [hview]
  exact .refl h

/-- Work on a record of the table keeps the invariant of all. -/
lemma keeps_of_moves {o' : Orchestrator} (h : Good m o.view) (hatt : (o.tenure t).attached)
    (hmoves : Moves m t o.view o'.view) : Keeps m o.view o'.view :=
  hmoves.keeps h (h.born hatt)

/-! ## Finished records -/

/-- Only finished records are converted. -/
lemma idle_of_readyToConvert (h : o.readyToConvert t) (hs : Sound m (o.tenure t)) :
    (o.tenure t).Idle := by
  simp only [readyToConvert, Bool.and_eq_true, beq_iff_eq] at h
  exact hs.idle_of_state h.1.1.1.1.1 rfl

/-- Giving up the record of an idle tenure and taking a token for the retained claim. -/
lemma keeps_convertToHeld (h : Good m o.view) (hatt : (o.tenure t).attached)
    (hidle : (o.tenure t).Idle) (anchor : Int) (revision) :
    Keeps m o.view (o.convertToHeld t anchor revision).view := by
  have hforget : Keeps m o.view (o.forget (o.heap t).issue.identifier).view :=
    keeps_forget_own h hatt hidle rfl
  refine ⟨⟨hforget.good.sound, fun t' ht' => ?_, hforget.good.keyed, hforget.good.named⟩,
    hforget.slots⟩
  have hlt : o.fresh < t' := ht'
  exact hforget.good.blank t' (Nat.lt_of_succ_lt hlt)

/-- Ordering the end of the cycle of a record that is not running is not seen. -/
lemma view_endCycle (o : Orchestrator) (hfree : o.Free t) (id workspaces ws why) :
    ((o.oweEndedCycle id workspaces ws why).note (.endsCycle t)).view = o.view := by
  have hview := view_oweEndedCycle o id workspaces ws why
  exact (view_note_relies _ (.inr (.inr rfl)) (hfree.of_view hview)).trans hview

lemma keeps_onClaimAnchor (h : Good m o.view) (hatt : (o.tenure t).attached) (err) (anchor : Int)
    (superseded : Bool) (approvalErr revision) :
    Keeps m o.view (o.onClaimAnchor t err anchor superseded approvalErr revision).view := by
  unfold onClaimAnchor
  extract_lets +onlyGivenNames o1
  have hview : o1.view = o.view := view_modify_of_phase rfl
  clear_value o1
  dsimp only
  have hatt1 : (o1.tenure t).attached := tenure_of_view hview t ▸ hatt
  rw [← hview] at h ⊢
  refine keeps_guard h fun hready => ?_
  have hidle := idle_of_readyToConvert (by simpa using hready) (h.sound t)
  have hended : ∀ why, ((o1.oweEndedCycle (o1.heap t).issue.identifier o1.bundle.workspaces
      (o1.heap t).workspace why).note (.endsCycle t)).view = o1.view := fun why =>
    view_endCycle o1 hidle.2.2 _ _ _ _
  cases err with
  | some e =>
    refine keeps_ite (fun _ => ?_) fun _ => .refl h
    have hend := hended "issue is gone from the tracker"
    generalize (o1.oweEndedCycle _ _ _ "issue is gone from the tracker").note _ = o2 at hend ⊢
    have htenure := tenure_of_view hend t
    rw [← hend] at h ⊢
    exact keeps_forget_own h (htenure ▸ hatt1) (htenure ▸ hidle)
      (congrArg (fun v : Tenure => v.phase.id) htenure)
  | none =>
    refine keeps_ite (fun _ => keeps_of_view (view_confirmDoneOwnership _ _) h) fun _ => ?_
    refine keeps_guard h fun _ => ?_
    refine keeps_ite (fun _ => ?_) fun _ => ?_
    · have hend := hended "the approval anchoring this workspace cycle was withdrawn"
      generalize (o1.oweEndedCycle _ _ _ _).note _ = o2 at hend ⊢
      have htenure := tenure_of_view hend t
      rw [← hend] at h ⊢
      exact keeps_of_moves h (htenure ▸ hatt1) (moves_release (h.sound t) (htenure ▸ hidle) _)
    · exact keeps_ite (fun _ => keeps_of_view (view_confirmDoneOwnership _ _) h) fun _ =>
        keeps_convertToHeld h hatt1 hidle _ _

lemma keeps_onDoneOwnership (h : Good m o.view) (hatt : (o.tenure t).attached) (res) :
    Keeps m o.view (o.onDoneOwnership t res).view := by
  unfold onDoneOwnership
  extract_lets +onlyGivenNames o1
  have hview : o1.view = o.view := view_modify_of_phase rfl
  clear_value o1
  have hatt1 : (o1.tenure t).attached := tenure_of_view hview t ▸ hatt
  rw [← hview] at h ⊢
  refine keeps_guard h fun hready => ?_
  have hidle := idle_of_readyToConvert (by simpa using hready) (h.sound t)
  extract_lets r id o2
  have hended : o2.view = o1.view := by
    simp only [o2]
    split
    · exact view_endCycle o1 hidle.2.2 _ _ _ _
    · rfl
  clear_value o2
  have htenure := tenure_of_view hended t
  have hatt2 : (o2.tenure t).attached := htenure ▸ hatt1
  have hidle2 : (o2.tenure t).Idle := htenure ▸ hidle
  rw [← hended] at h ⊢
  have hforget : Keeps m o2.view (o2.forget id).view :=
    keeps_forget_own h hatt2 hidle2 (congrArg (fun v : Tenure => v.phase.id) htenure)
  have hrelease : ∀ why, Keeps m o2.view (o2.release t why).view := fun why =>
    keeps_of_moves h hatt2 (moves_release (h.sound t) hidle2 why)
  refine keeps_ite (fun _ => hforget) fun _ => ?_
  split
  · exact keeps_ite (fun _ => hforget) fun _ => keeps_ite (fun _ => hrelease _) fun _ =>
      keeps_ite (fun _ => hrelease _) fun _ => .refl h
  · exact .refl h

/-! ## Effects that came back -/

/-- Taking the head off what a record owes may only take an exit away. -/
lemma view_unowe (o : Orchestrator) (t) :
    ∃ E, (o.modify t fun r => { r with owed := r.owed.tail, owedWriteFailed := false }).view =
      o.view.update t (fun v => { v with exits := E }) ∧ (E → o.ExitOwed t) := by
  refine ⟨(o.modify t fun r => { r with owed := r.owed.tail, owedWriteFailed := false }).ExitOwed t,
    view_eq_set rfl rfl ?_ fun t' h => tenure_modify_of_ne _ h, ?_⟩
  · simp only [tenure, heap_modify_self]
    rfl
  · rintro (⟨eff, heff, hexit⟩ | hrest)
    · rw [heap_modify_self] at heff
      exact .inl ⟨eff, List.mem_of_mem_tail heff, hexit⟩
    · exact .inr hrest

lemma moves_unowe (hs : Sound m (o.tenure t)) : Moves m t o.view
      (o.modify t fun r => { r with owed := r.owed.tail, owedWriteFailed := false }).view := by
  obtain ⟨E, hview, hE⟩ := view_unowe o t
  exact .of_set hview (hs.exits_of_imp hE) rfl id

lemma keeps_afterEffect (h : Good m o.view) (hatt : (o.tenure t).attached) {what}
    (hexit : isExit what → (o.tenure t).Idle) :
    Keeps m o.view (o.afterEffect t what).view := by
  refine keeps_ite (fun _ =>
    keeps_of_moves h hatt (moves_onClaimProjected (h.sound t) h.keyed hatt))
    fun _ => keeps_ite (fun hwhat => ?_) fun _ => .refl h
  refine keeps_forget_own h hatt (hexit ?_) rfl
  rcases hwhat with rfl | rfl <;> rfl

lemma keeps_onEffectDone (h : Good m o.view) (hatt : (o.tenure t).attached) {what}
    (hexit : isExit what → (o.tenure t).Idle) (err) :
    Keeps m o.view (o.onEffectDone t what err).view := by
  unfold onEffectDone
  extract_lets +onlyGivenNames o1
  have hview : o1.view = o.view := view_modify_of_phase rfl
  clear_value o1
  dsimp only
  have htenure := tenure_of_view hview t
  have hatt1 : (o1.tenure t).attached := htenure ▸ hatt
  have hexit1 : isExit what → (o1.tenure t).Idle := htenure ▸ hexit
  rw [← hview] at h ⊢
  have hunowe := keeps_of_moves h hatt1 (moves_unowe (h.sound t))
  obtain ⟨E, hshorter, -⟩ := view_unowe o1 t
  have htenure2 := tenure_of_update hshorter
  generalize (o1.modify t fun r => { r with owed := r.owed.tail, owedWriteFailed := false }) = o2
    at hunowe htenure2 ⊢
  refine keeps_ite (fun _ => keeps_ite (fun _ => ?_) fun _ => keeps_ite (fun _ => ?_)
    fun _ => .refl h) fun _ => ?_
  · rw [view_driveOwed]
    exact hunowe
  · exact keeps_of_view (view_modify_of_phase rfl) h
  · rw [view_driveHold, view_driveOwed]
    refine hunowe.trans (keeps_afterEffect hunowe.good ?_ fun hex => ?_)
    · rw [htenure2]
      exact hatt1
    · rw [htenure2]
      exact hexit1 hex

/-! ## Watching -/

lemma moves_onOwedConfirmed (hs : Sound m (o.tenure t)) (res) :
    Moves m t o.view (o.onOwedConfirmed t res).view := by
  unfold onOwedConfirmed
  extract_lets +onlyGivenNames o1
  have hview : o1.view = o.view := view_modify_of_phase rfl
  clear_value o1
  dsimp only
  have hs1 : Sound m (o1.tenure t) := tenure_of_view hview t ▸ hs
  rw [← hview]
  refine moves_guard hs1 fun _ => moves_ite (fun _ => ?_)
    fun _ => .of_eq rfl hs1
  obtain ⟨hleave, -⟩ := moves_gone hs1
  rw [view_driveOwed]
  exact hleave.trans (moves_stopAndFinish hleave.sound _ _)

/-- A milestone that is not the published one, and the label of a parked record, are not seen. -/
lemma view_reproject (o : Orchestrator) (t issue detail) :
    ((o.oweProjection t "re-project ben:needs-review for epoch fault"
      (.setStateLabels issue .needsReview)).comment t
        { milestone := .needsReview, detail := detail }).view = o.view := by
  rw [view_comment _ _ (show Milestone.needsReview ≠ .published by decide),
    view_oweProjection _ _ _ _ (by decide)]

/-- Restoring the budgets is seen in the record and in its history. -/
lemma view_requeue (o : Orchestrator) (t) :
    ((o.modify t fun r => r.restoreBudgets).note (.requeued t)).view = o.view.update t fun v =>
      { v with
        phase := { v.phase with turns := 0, costUSD := 0, attemptBase := v.phase.attempt }
        past := { v.past with starts := 0, spent := 0, overrun := fun _ => False } } := by
  have hrestore := view_phase o t (fun r => r.restoreBudgets)
    (fun p => { p with turns := 0, costUSD := 0, attemptBase := p.attempt }) rfl
  generalize o.modify t _ = o1 at hrestore ⊢
  refine (view_note_update (t := t) (f := fun p =>
    { p with starts := 0, spent := 0, overrun := fun _ => False }) o1 (fun _ => rfl)
      (by rw [past_cons]; simp [past])).trans ?_
  rw [hrestore, View.update_update]
  rfl

lemma moves_applyParked (hs : Sound m (o.tenure t)) (hstate : (o.heap t).state = .needsReview)
    (fresh cur) (labelsUsable : Bool) :
    Moves m t o.view (o.applyParked t fresh cur labelsUsable).view := by
  have hadopt : (o.modify t fun r => r.adoptRouting fresh).view = o.view :=
    view_modify_of_phase rfl
  unfold applyParked
  dsimp only
  refine moves_ite (fun _ => moves_stopAndFinish hs _ _) fun _ => ?_
  generalize o.modify t _ = o1 at hadopt ⊢
  have htenure := tenure_of_view hadopt t
  have hs1 : Sound m (o1.tenure t) := htenure ▸ hs
  rw [← hadopt]
  refine moves_guard hs1 fun _ => ?_
  have hstate1 : (o1.tenure t).phase.state = .needsReview := htenure ▸ hstate
  have hrestore := view_requeue o1 t
  have hmoves : Moves m t o1.view _ := .of_set hrestore
    (hs1.requeue hstate1 (hs1.settled_of_parked hstate1).launch) rfl id
  have htenure2 := tenure_of_update hrestore
  generalize (o1.modify t _).note _ = o2 at hmoves htenure2 ⊢
  have hs2 : Sound m (o2.tenure t) := hmoves.sound
  have hstate2 : (o2.tenure t).phase.state = .needsReview := by
    rw [htenure2]
    exact hstate1
  refine hmoves.trans (moves_ite (fun _ => .of_eq (view_reproject _ _ _ _) hs2) fun hfault => ?_)
  refine moves_enterBackoff hs2 (hs2.settled_of_parked hstate2)
    (Bool.eq_false_of_not_eq_true fun hd => ?_) (fun hm => ?_) (fun _ ho => ?_) _ _
  · rcases hs2.dispatching hd with hb | ⟨-, hf⟩
    · simp [hstate2] at hb
    · exact hfault hf
  · have hstarts : (o2.tenure t).past.starts = 0 := by rw [htenure2]
    have hturns : (o2.heap t).turns = 0 := congrArg (fun v : Tenure => v.phase.turns) htenure2
    have hlimit := (m.rations hm).1
    simpa [hstarts, hturns] using hlimit
  · rw [htenure2] at ho
    exact ho.elim

lemma moves_onParkedConfirmed (hs : Sound m (o.tenure t)) (res) (settled : Bool) :
    Moves m t o.view (o.onParkedConfirmed t res settled).view := by
  unfold onParkedConfirmed
  extract_lets +onlyGivenNames o1
  have hview : o1.view = o.view := view_modify_of_phase rfl
  clear_value o1
  dsimp only
  have hs1 : Sound m (o1.tenure t) := tenure_of_view hview t ▸ hs
  rw [← hview]
  refine moves_guard hs1 fun hparked => moves_ite (fun _ => ?_) fun _ => ?_
  · obtain ⟨hleave, -⟩ := moves_gone hs1
    exact hleave.trans (moves_stopAndFinish hleave.sound _ _)
  · have hstate : (o1.heap t).state = .needsReview := by
      simp only [Bool.or_eq_true, bne_iff_ne, ne_eq, not_or, not_not] at hparked
      exact hparked.2
    split
    · refine moves_ite (fun _ => ?_) fun _ => moves_applyParked hs1 hstate _ _ _
      obtain ⟨hleave, -⟩ := moves_modify (o := o1) (f := fun r => { r with claimLost := true })
        (fun p => { p with leaving := true }) hs1.leave id
        (funext fun r => by simp [Record.phase])
      exact hleave.trans (moves_stopAndFinish hleave.sound _ _)
    · exact .of_eq rfl hs1

section

variable (h : Good m o.view)

include h

lemma keeps_sweepParkedOne (w issues cur) :
    Keeps m o.view (o.sweepParkedOne w issues cur).1.view := by
  unfold sweepParkedOne
  dsimp only
  split
  · exact .refl h
  · rename_i t ht
    split
    · exact .refl h
    · rename_i hparked
      have hstate : (o.heap t).state = .needsReview := by
        simp only [Bool.or_eq_true, bne_iff_ne, ne_eq, not_or, not_not] at hparked
        exact hparked.1.2
      split
      · exact .refl h
      · exact keeps_of_moves h (attached_of_has h ht) (moves_applyParked (h.sound t) hstate _ _ _)

lemma keeps_sweepParked (wants issues err cur) :
    Keeps m o.view (o.sweepParked wants issues err cur).view := by
  unfold sweepParked
  refine keeps_guard h fun _ => ?_
  dsimp only
  rw [view_offerParkedConfirmations]
  suffices hfold : ∀ acc : Orchestrator × List String, Good m acc.1.view →
      Keeps m acc.1.view (wants.foldl (fun acc w =>
        ((acc.1.sweepParkedOne w issues cur).1,
          if (acc.1.sweepParkedOne w issues cur).2 then acc.2 ++ [w.id]
          else acc.2)) acc).1.view from
    hfold (o, []) h
  intro acc hacc
  induction wants generalizing acc with
  | nil => exact .refl hacc
  | cons w wants ih =>
    have hone := keeps_sweepParkedOne hacc w issues cur
    rw [List.foldl_cons]
    exact hone.trans (ih (_, _) hone.good)

/-! ## Reconciliation -/

lemma keeps_reconcileOne (id res cur) :
    Keeps m o.view (o.reconcileOne id res cur).view := by
  unfold reconcileOne
  dsimp only
  split
  · exact .refl h
  · rename_i t ht
    have hs := h.sound t
    refine keeps_guard h fun _ => keeps_of_moves (t := t) h (attached_of_has h ht) ?_
    refine moves_ite (fun _ => ?_) fun _ => ?_
    · obtain ⟨hleave, -⟩ := moves_gone hs
      exact hleave.trans (moves_stopAndFinish hleave.sound _ _)
    · split
      · refine moves_ite (fun _ => moves_stopAndFinish hs _ _) fun _ =>
          moves_ite (fun _ => moves_stopAndFinish hs _ _) fun _ => .of_eq ?_ hs
        exact view_modify_of_phase rfl
      · exact .of_eq rfl hs

lemma keeps_reconcile (order) (refreshed : List (String × RefreshResult)) (cur) :
    Keeps m o.view (o.reconcile order refreshed cur).view := by
  refine keeps_foldl (fun o id h => ?_) h _
  split
  · exact keeps_reconcileOne h _ _ _
  · exact .refl h

end

/-- Another try for one record: a claim base is only begun for a record that has been pinned. -/
lemma moves_retryPendingExit (hq : m.pinned → m.queued) (hs : Sound m (o.tenure t))
    (hatt : (o.tenure t).attached) : Moves m t o.view (o.retryPendingExit t).view := by
  unfold retryPendingExit
  extract_lets o1 o2 r o3 r' o4
  have hview : o1.view = o.view := by simp [o1]
  clear_value o1
  have htenure := tenure_of_view hview t
  have hs1 : Sound m (o1.tenure t) := htenure ▸ hs
  have hatt1 : (o1.tenure t).attached := htenure ▸ hatt
  rw [← hview]
  -- a stop that is still wanted
  have hstop : Moves m t o1.view o2.view := moves_ite
    (fun hc => by
      simp only [Bool.and_eq_true] at hc
      exact moves_beginStop hs1 _ hc.2 (.inr (.inl hc.1))) fun _ => .of_eq rfl hs1
  clear_value o2
  have hs2 : Sound m (o2.tenure t) := hstop.sound
  have hatt2 : (o2.tenure t).attached := by
    have hid : (o2.heap t).issue.identifier = (o1.heap t).issue.identifier := hstop.id
    change o2.records.lookup (o2.heap t).issue.identifier = some t
    rw [hid, show o2.records = o1.records from hstop.records]
    exact hatt1
  -- a verified claim that has not got further
  have hqueued : Moves m t o2.view o3.view := moves_ite
    (fun hc => moves_ite
      (fun hepoch => moves_beginClaimBase hs2
        (fun hm => hs2.queued (hq hm) hatt2 hc.1 hc.2 hepoch) fun _ => hc.2)
      fun _ => moves_beginApproval hs2 hc.2) fun _ => .of_eq rfl hs2
  clear_value o3
  have hs3 : Sound m (o3.tenure t) := hqueued.sound
  have hbackoff : Moves m t o3.view o4.view := moves_ite
    (fun hc => moves_beginClaimBase hs3 (fun hm => hs3.pinned hm (.inr (.inl hc.2.1)))
      fun hstate => nomatch hstate.symm.trans hc.1) fun _ => .of_eq rfl hs3
  exact ((hstop.trans hqueued).trans hbackoff).trans (moves_confirmQuiet hbackoff.sound)

lemma keeps_onReconciled (hq : m.pinned → m.queued) (h : Good m o.view) (orders)
    (refreshed : List (String × RefreshResult)) (parked sweep) :
    Keeps m o.view (o.onReconciled orders refreshed parked sweep).view := by
  unfold onReconciled
  dsimp only
  rw [view_beginDispatchReads, view_retrySweep, view_retryRecovery, view_driveMarkerClears,
    view_offerOwedConfirmations]
  have hrec : Keeps m o.view (({ o with reconcileInFlight := false } : Orchestrator).reconcile
      orders.refreshed refreshed o.cur).view :=
    keeps_reconcile (o := { o with reconcileInFlight := false }) h _ _ _
  generalize ({ o with reconcileInFlight := false } : Orchestrator).reconcile
      orders.refreshed refreshed o.cur = o1 at hrec ⊢
  have hretry : ∀ {o2 : Orchestrator}, Good m o2.view →
      Keeps m o2.view (o2.retryPendingExits orders.exits).view := fun h2 =>
    keeps_eachRecord (fun o t h hatt => keeps_of_moves h hatt
      (moves_retryPendingExit hq (h.sound t) hatt)) h2 _
  cases sweep with
  | none =>
    refine hrec.trans ?_
    have hview : ((o1.offerHeldConfirmations []).retryHeldExits orders.heldExits
        |>.driveEndedCycles).view = o1.view := by simp
    exact (keeps_of_view hview hrec.good).trans (hretry (by rw [hview]; exact hrec.good))
  | some s =>
    have hheld : Good m (o1.sweepHeld orders.held s.issues s.err o.cur).1.view := by
      rw [view_sweepHeld]
      exact hrec.good
    have hswept : Keeps m o1.view ((o1.sweepHeld orders.held s.issues s.err o.cur).1.sweepParked
        parked s.issues s.err o.cur).view := by
      have hparked := keeps_sweepParked hheld parked s.issues s.err o.cur
      rwa [view_sweepHeld] at hparked
    refine (hrec.trans hswept).trans ?_
    dsimp only
    generalize (o1.sweepHeld orders.held s.issues s.err o.cur).1.sweepParked
        parked s.issues s.err o.cur = o2 at hswept ⊢
    have hview : ((o2.offerHeldConfirmations
        (o1.sweepHeld orders.held s.issues s.err o.cur).2).retryHeldExits orders.heldExits
        |>.driveEndedCycles).view = o2.view := by simp
    exact (keeps_of_view hview hswept.good).trans (hretry (by rw [hview]; exact hswept.good))

/-! ## Ticks and dispatch -/

/-- A verification that was given up for a tick is asked for again. -/
lemma keeps_driveVerifyRetry (h : Good m o.view) (order) :
    Keeps m o.view (o.driveVerifyRetry order).view := by
  refine keeps_eachRecord (fun o t h hatt => ?_) h order
  dsimp only
  refine keeps_guard h fun hretry => keeps_of_moves (t := t) h hatt ?_
  have hs := h.sound t
  simp only [Bool.or_eq_true, bne_iff_ne, ne_eq, Bool.not_eq_true', not_or, not_not,
    Bool.not_eq_false] at hretry
  have hagain : (o.tenure t).phase.verifyRetry := hretry.1.1.1.2
  obtain ⟨hmoves, htenure⟩ := moves_modify (o := o) (m := m)
    (f := fun r => { r with verifyRetry := false }) (fun p => { p with verifyRetry := false })
    hs.unretry id rfl
  refine hmoves.trans (moves_beginVerify hmoves.sound ?_ ?_ ?_ ?_) <;> rw [htenure]
  · exact hs.verifying (.inr hagain)
  · exact hs.verifyOnce.2 hagain
  · exact fun hm ho => (hs.barred hm ho).2.2.2.2.2.2 (.inr hagain)

lemma keeps_onTick (h : Good m o.view) (orders) : Keeps m o.view (o.onTick orders).view := by
  have hview := view_beginCycleScan o
  unfold onTick
  rw [view_beginReconcile]
  generalize o.beginCycleScan = o1 at hview ⊢
  rw [← hview] at h ⊢
  exact keeps_driveVerifyRetry h _

/-- The candidates a dispatch goes through: named, not reserved for the sweep, and not in the
table except for a claim that has only just been begun. -/
def Claimable (o : Orchestrator) (issues : List Issue) : Prop :=
  ∀ issue ∈ issues, issue.identifier ≠ "" ∧ issue.identifier ∉ o.sweepDisposing ∧
    ∀ t, o.Has issue.identifier t → (o.heap t).state = .queued

/-- Beginning one claim leaves the other candidates claimable. -/
lemma Claimable.beginClaim {issues} (h : o.Claimable issues) (issue cur) :
    (o.beginClaim issue cur).Claimable issues := by
  intro other hother
  obtain ⟨hname, hreserved, hhas⟩ := h other hother
  refine ⟨hname, hreserved, fun t ht => ?_⟩
  by_cases hnew : t = o.fresh
  · subst hnew
    simp [Orchestrator.beginClaim, spawn]
  · have hheap : (o.beginClaim issue cur).heap t = o.heap t := Function.update_of_ne hnew _ _
    rw [hheap]
    refine hhas t ?_
    have ht' : (o.records.insert issue.identifier o.fresh).lookup other.identifier =
        some t := ht
    by_cases hid : other.identifier = issue.identifier
    · rw [hid, AList.lookup_insert] at ht'
      exact absurd (Option.some.inj ht').symm hnew
    · rwa [AList.lookup_insert_ne hid] at ht'

lemma keeps_claimWhileFree {cur : Snapshot} {issues}
    (hcap : m.capped → cur.definition.limits.maxConcurrentAgents = m.cap) (h : Good m o.view)
    (hissues : o.Claimable issues) : Keeps m o.view (o.claimWhileFree cur issues).view := by
  induction issues generalizing o with
  | nil => exact .refl h
  | cons issue rest ih =>
    unfold claimWhileFree
    refine keeps_guard h fun hfree => ?_
    obtain ⟨hname, hreserved, hhas⟩ := hissues issue (.head _)
    have hclaim := keeps_beginClaim h issue cur hname
      (fun t ht => (h.sound t).idle_of_state (hhas t ht) rfl) hreserved
      fun hc => hcap hc ▸ slots_lt_of_freeSlots hfree
    exact hclaim.trans (ih hclaim.good fun other hother =>
      hissues.beginClaim issue cur other (.tail _ hother))

lemma keeps_dispatch {cur : Snapshot} {candidates}
    (hcap : m.capped → cur.definition.limits.maxConcurrentAgents = m.cap) (h : Good m o.view)
    (hnames : ∀ issue ∈ candidates, issue.identifier ≠ "") :
    Keeps m o.view (o.dispatch candidates cur).view := by
  refine keeps_guard h fun _ => keeps_claimWhileFree hcap h fun issue hissue => ?_
  have hmem : issue ∈ candidates.filter o.eligible := (List.perm_insertionSort _ _).mem_iff.1 hissue
  obtain ⟨hcand, helig⟩ := List.mem_filter.1 hmem
  simp only [eligible, Bool.and_eq_true, Bool.not_eq_true', Option.isNone_iff_eq_none,
    List.contains_eq_mem, decide_eq_false_iff_not] at helig
  refine ⟨hnames issue hcand, helig.2, fun t ht => ?_⟩
  exact absurd (ht.symm.trans helig.1.1.1.2) (by simp)

lemma keeps_onTickResult (orders) {candidates} (err) (revision : Nat)
    (hcap : m.capped → o.definition.limits.maxConcurrentAgents = m.cap) (h : Good m o.view)
    (hnames : ∀ issue ∈ candidates, issue.identifier ≠ "") :
    Keeps m o.view (o.onTickResult orders candidates err revision).view :=
  keeps_ite (fun _ => keeps_onTick (o := { o with dispatchInFlight := false }) h orders) fun _ =>
    keeps_ite (fun _ => .refl h) fun _ =>
      keeps_dispatch (o := { o with dispatchInFlight := false }) hcap h hnames

/-! ## Shutdown -/

lemma moves_suspend (hs : Sound m (o.tenure t)) : Moves m t o.view (o.suspend t).view := by
  unfold suspend
  refine moves_ite (fun _ => .of_eq (view_driveOwed _ _) hs) fun _ => ?_
  obtain ⟨hmoves, htenure⟩ := moves_modify (o := o) (t := t) (m := m)
    (f := fun r => { r with suspended := true }) (fun p => { p with suspended := true })
    hs.suspend id rfl
  dsimp only
  generalize o.modify t _ = o1 at hmoves htenure ⊢
  have hs1 : Sound m (o1.tenure t) := hmoves.sound
  have hsusp : (o1.heap t).suspended := congrArg (fun v : Tenure => v.phase.suspended) htenure
  generalize heq : (if (o1.heap t).handle.isNone ∧ (o1.heap t).pending = 0 then _ else o1) = o2
  have hover : o2.view = o1.view := by
    rw [← heq]
    split
    · rename_i hc
      have hidle := idle_of_pending hs1 (Option.isNone_iff_eq_none.1 hc.1) hc.2.le
      have hview := view_recordAttempt o1 t .killed .unknown
      have hfree : o1.Free t := hidle.2.2
      exact (view_completeShutdown _ (hfree.of_view hview)).trans hview
    · rfl
  have hdrive : (o2.driveOwed t).view = o1.view := (view_driveOwed _ _).trans hover
  generalize o2.driveOwed t = o3 at hdrive ⊢
  have htenure3 := tenure_of_view hdrive t
  have hs3 : Sound m (o3.tenure t) := htenure3 ▸ hs1
  refine hmoves.trans ?_
  rw [← hdrive]
  refine moves_ite (fun hc => ?_) fun _ => .of_eq rfl hs3
  simp only [Bool.and_eq_true] at hc
  have hsusp3 : (o3.tenure t).phase.suspended := htenure3 ▸ hsusp
  exact moves_beginStop hs3 _ hc.1 (.inr (.inr (.inr (.inr hsusp3))))

lemma keeps_driveShutdown (h : Good m o.view) (order) :
    Keeps m o.view (o.driveShutdown order).view := by
  refine keeps_guard h fun _ => ?_
  have hall : Keeps m o.view (o.eachRecord order suspend).view :=
    keeps_eachRecord (fun o t h hatt => keeps_of_moves h hatt (moves_suspend (h.sound t))) h order
  exact keeps_ite (fun _ => hall) fun _ => hall

lemma keeps_onShutdown (h : Good m o.view) (orders) : Keeps m o.view (o.onShutdown orders).view :=
  keeps_driveShutdown (o := { o with drainWaiters := o.drainWaiters + 1, draining := true }) h _

end Orchestrator

end Ben
