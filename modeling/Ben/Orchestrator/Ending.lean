import Ben.Orchestrator.Local

/-!
# Ending an attempt keeps the invariant

The pieces an attempt's end is made of, each shown to be sound work on its tenure: where the
record goes next, what its exit does, and how it is known that nothing is left of the run.
-/

namespace Ben

variable [Platform]

/-- The run of a record is gone, and nothing stops it any more. -/
def Phase.stopped (p : Phase) : Phase :=
  { p with
    domainQuiet := true, handle := none, outcome := false, succeeded := false
    stopping := false, budgetStop := false }

/-- An outcome that is held is the current attempt's, and may be acted on. -/
structure Tenure.Concludes (m : Mode) (v : Tenure) : Prop where
  held : v.phase.outcome →
    v.past.prepared v.gen ∧ (v.phase.state = .running ∨ v.phase.state = .verifying)
  within : v.phase.outcome → v.Within m
  suspended : v.phase.suspended = false
  parking : v.phase.parkOnBudgetPending = false

/-- An attempt that ran and may be accounted for: the budget holds, or the record goes anyway. -/
structure Tenure.Accountable (m : Mode) (v : Tenure) : Prop where
  prepared : v.past.prepared v.gen
  state : v.phase.state = .running ∨ v.phase.state = .verifying
  suspended : v.phase.suspended = false
  within : m.frugal → v.past.overrun m.limits.maxCost →
    v.phase.parkOnBudgetPending ∨ v.phase.leaving

namespace Orchestrator

variable {m : Mode} {o : Orchestrator} {t : Token}

/-! ## Where the record goes next -/

/-- A record that may back off is seen in backoff, with the timer of a new attempt armed. -/
lemma view_enterBackoff (hallowed : allowed (o.heap t).state .backoff) (why cause) :
    (o.enterBackoff t why cause).view = o.view.update t fun v =>
      { v with
        phase := { v.phase with
          state := .backoff, stopping := false, generation := v.gen + 1 }
        out := v.out.add .timer (v.gen + 1) } := by
  have hmoved := view_transitionCaused_of_ne_done hallowed (by decide) why cause
  unfold enterBackoff
  simp only [transitionCaused_snd, hallowed]
  generalize (o.transitionCaused t .backoff why cause).1 = o1 at hmoved ⊢
  refine (view_armTimer _ _ _).trans ?_
  refine (congrArg (View.update · t _) (view_modify_phase hmoved (fun p =>
    { p with stopping := false, generation := p.generation + 1 }) (by rfl))).trans ?_
  simp only [View.update_update]
  rfl

variable (hs : Sound m (o.tenure t))

include hs

lemma moves_enterBackoff (hset : (o.tenure t).Settled)
    (hd : (o.tenure t).phase.claimBaseDispatch = false)
    (hspare : m.rationed →
      ((o.tenure t).past.starts : Int) + 1 ≤ m.limits.maxAttempts + (o.heap t).turns)
    (hwithin : (o.tenure t).Within m) (why cause) :
    Moves m t o.view (o.enterBackoff t why cause).view := by
  cases hallowed : allowed (o.heap t).state .backoff with
  | false =>
    refine .of_eq ?_ hs
    unfold enterBackoff
    simp only [transitionCaused_snd, hallowed, transitionCaused_of_not_allowed hallowed]
    rfl
  | true =>
    have hdone : (o.heap t).state ≠ .done := by
      rintro hstate
      simp [hstate, allowed, legalTransitions] at hallowed
    exact .of_set (view_enterBackoff hallowed why cause)
      (hs.nextAttempt hset hdone _ (.inl ⟨rfl, hd⟩)
        (fun hm => ⟨fun _ => hspare hm, nofun⟩) hwithin) rfl
      fun h => by simp [Phase.bound] at h

omit hs in
/-- Nothing leaves `done`. -/
lemma ne_done_of_allowed {next} (h : allowed (o.heap t).state next) :
    (o.tenure t).phase.state ≠ .done := by
  change (o.heap t).state ≠ .done
  rintro hstate
  rw [hstate] at h
  cases next <;> cases h

lemma moves_enterFailed (hset : (o.tenure t).Settled)
    (hd : (o.tenure t).phase.claimBaseDispatch = false) (why cause) :
    Moves m t o.view (o.enterFailed t why cause).view := by
  unfold enterFailed
  cases hallowed : allowed (o.heap t).state .failed with
  | false =>
    simp only [transitionCaused_snd, hallowed, transitionCaused_of_not_allowed hallowed]
    exact .of_eq rfl hs
  | true =>
    have hmoved := view_transitionCaused_of_ne_done hallowed (by decide) why cause
    simp only [transitionCaused_snd, hallowed]
    generalize (o.transitionCaused t .failed why cause).1 = o1 at hmoved ⊢
    have hidle := hs.idle_of_settled hset
    have hcomment : (o1.comment t
        { milestone := .failed, reason := (o1.heap t).failureReason, detail := why }).view =
        o1.view := view_comment _ _ (by simp)
    generalize o1.comment t _ = o2 at hcomment ⊢
    have hfree : o2.Free t := by
      have htenure := tenure_of_update (hcomment.trans hmoved)
      exact (congrArg (fun v : Tenure => v.past.live) htenure).trans hidle.2.2
    have hcomplete := (view_completeFailure o2 hfree).trans (hcomment.trans hmoved)
    obtain ⟨E, hrelease⟩ := view_release (o2.completeFailure t) t ("failed: " ++ why)
    refine .of_set (View.update_comp hcomplete hrelease)
      (((hs.rest hset (ne_done_of_allowed hallowed) (.inr rfl) fun h => ?_).leave).oweExit
        hidle rfl E) rfl fun h => ?_
    · cases hd.symm.trans h
    · simp [Phase.bound] at h

omit hs in
/-- A record that may be parked is seen parked, unless it is on its way out. -/
lemma view_enterNeedsReview (o : Orchestrator) (t why cause) :
    ((o.enterNeedsReview t why cause).view = o.view ∧ ((o.heap t).orderedExit ∨
        allowed (o.heap t).state .needsReview = false)) ∨
      ((o.enterNeedsReview t why cause).view = o.view.update t (fun v =>
          { v with phase := { v.phase with state := .needsReview } }) ∧
        allowed (o.heap t).state .needsReview) := by
  unfold enterNeedsReview
  split
  · rename_i hexit
    exact .inl ⟨rfl, .inl hexit⟩
  · cases hallowed : allowed (o.heap t).state .needsReview with
    | false =>
      simp only [transitionCaused_snd, hallowed, transitionCaused_of_not_allowed hallowed]
      exact .inl ⟨rfl, .inr trivial⟩
    | true =>
      have hmoved := view_transitionCaused_of_ne_done hallowed (by decide) why cause
      simp only [transitionCaused_snd, hallowed]
      exact .inr ⟨(view_comment _ _ (by simp)).trans hmoved, trivial⟩

lemma moves_enterNeedsReview (hset : (o.tenure t).Settled)
    (hd : (o.tenure t).phase.claimBaseDispatch → (o.tenure t).phase.epochFaulted) (why cause) :
    Moves m t o.view (o.enterNeedsReview t why cause).view := by
  rcases view_enterNeedsReview o t why cause with ⟨hview, -⟩ | ⟨hview, hallowed⟩
  · exact .of_eq hview hs
  · refine .of_set hview
      (hs.rest hset (ne_done_of_allowed hallowed) (.inl rfl) fun h => ⟨rfl, hd h⟩) rfl fun h => ?_
    simp [Phase.bound] at h

lemma moves_enterEpochFault (hset : (o.tenure t).Settled) (why) :
    Moves m t o.view (o.enterEpochFault t why).view := by
  unfold enterEpochFault
  have hfault := view_phase o t (fun r => { r with epochFaulted := true, epochFaultDetail := why })
    (fun p => { p with epochFaulted := true }) rfl
  have hmoves : Moves m t o.view
      (o.modify t fun r => { r with epochFaulted := true, epochFaultDetail := why }).view :=
    .of_set hfault hs.fault rfl id
  refine hmoves.trans (moves_enterNeedsReview hmoves.sound ?_ ?_ _ _) <;>
    rw [tenure_of_update hfault]
  · exact { hset with }
  · exact fun _ => rfl

omit hs in
/-- The account of a failed attempt is not seen. -/
lemma view_failAttempt (o : Orchestrator) (t) (reason : FailureReason) :
    (((o.attemptEnded t).recordAttempt t reason .unknown).modify t fun r =>
      { r with failureReason := reason, lastOutcome := reason.name }.recordAccount
        reason.name).view = o.view := by
  rw [view_modify_of_phase rfl, view_recordAttempt, view_attemptEnded]

/-- With an attempt remaining, the agents started so far leave room for another. -/
lemma spare_of_attemptsRemain (hrem : o.attemptsRemain t) (hm : m.rationed) :
    ((o.tenure t).past.starts : Int) + 1 ≤ m.limits.maxAttempts + (o.heap t).turns := by
  obtain ⟨-, hturns, -, hattempts, -⟩ := hs.rationed hm
  have hlimits : o.definition.limits = m.limits := hs.limits (.inl hm)
  have hlt := of_decide_eq_true hrem
  rw [hlimits] at hlt
  change (0 : Int) ≤ (o.heap t).turns at hturns
  change _ ≤ (o.heap t).attempt - (o.heap t).attemptBase at hattempts
  omega

lemma moves_failAttempt (hset : (o.tenure t).Settled)
    (hd : (o.tenure t).phase.claimBaseDispatch = false) (hwithin : (o.tenure t).Within m)
    (reason) (retryable : Bool) (detail) :
    Moves m t o.view (o.failAttempt t reason retryable detail).view := by
  have hview := view_failAttempt o t reason
  unfold failAttempt
  dsimp only
  generalize ((o.attemptEnded t).recordAttempt t reason .unknown).modify t _ = o1
    at hview ⊢
  have htenure := tenure_of_view hview t
  rw [← hview]
  split
  · rename_i hretry
    have hs1 : Sound m (o1.tenure t) := htenure ▸ hs
    exact moves_enterBackoff hs1 (htenure ▸ hset) (htenure ▸ hd)
      (spare_of_attemptsRemain hs1 (Bool.and_eq_true_iff.1 hretry).2) (htenure ▸ hwithin) _ _
  · exact moves_enterFailed (htenure ▸ hs) (htenure ▸ hset) (htenure ▸ hd) _ _

lemma moves_parkCredential (hset : (o.tenure t).Settled)
    (hd : (o.tenure t).phase.claimBaseDispatch = false) (detail) :
    Moves m t o.view (o.parkCredential t detail).view := by
  have hview : (((o.attemptEnded t).recordAttempt t .none .unknown).modify t fun r =>
      { r with lastOutcome := "" }.forgetAccount).view = o.view := by
    rw [view_modify_of_phase rfl, view_recordAttempt, view_attemptEnded]
  unfold parkCredential
  dsimp only
  generalize ((o.attemptEnded t).recordAttempt t .none .unknown).modify t _ = o1 at hview ⊢
  have htenure := tenure_of_view hview t
  rw [← hview]
  exact moves_enterNeedsReview (htenure ▸ hs) (htenure ▸ hset) (by simp [htenure, hd]) _ _

lemma moves_failLaunch (hset : (o.tenure t).Settled)
    (hd : (o.tenure t).phase.claimBaseDispatch = false) (hwithin : (o.tenure t).Within m)
    (err what) (retryable : Bool) :
    Moves m t o.view (o.failLaunch t err what retryable).view := by
  unfold failLaunch
  dsimp only
  split
  · exact moves_failAttempt hs hset hd hwithin _ _ _
  · split
    · exact moves_parkCredential hs hset hd _
    · exact moves_failAttempt hs hset hd hwithin _ _ _

/-! ## Acting on an outcome -/

omit hs in
/-- A verification leaves when nothing is left running. -/
lemma view_spawn_verify (hfree : o.Free t) (issue ws principal) :
    (o.spawn (.verify (o.tag t) issue ws principal)).view = o.view.update t fun v =>
      { v with
        out := { v.out.add .verify v.gen with
          strayVerifies := fun ws' g =>
            v.out.strayVerifies ws' g + if v.gen == g && ws != ws' then 1 else 0
          strayRuns := v.out.strayRuns } } := by
  have hpast : past t (.spawned (.verify (o.tag t) issue ws principal) :: o.trace) =
      past t o.trace := by
    rw [past_cons]
    simp [past, show live t o.trace = [] from hfree]
  rw [view_spawn o rfl, show (o.tag t).token = t from rfl, hpast,
    outstanding_cons_of_duty _ _ rfl (show (o.tag t).token = t from rfl)]
  simp only [Worker.strayVerify, Worker.strayRun, Bool.false_eq_true, if_false, Nat.add_zero]
  simp only [show (o.tag t).token = t from rfl, beq_self_eq_true, Bool.true_and]
  rfl

lemma moves_beginVerify (hV : (o.tenure t).Verifying)
    (hnone : (o.tenure t).out.verifies (o.tenure t).gen = 0)
    (hretry : (o.tenure t).phase.verifyRetry = false) (hwithin : (o.tenure t).Within m) :
    Moves m t o.view (o.beginVerify t).view := by
  have hfree : o.Free t := (hs.idle_of_handle hV.handle (hs.no_launch (by simp [hV.state]))).2.2
  have hpending := view_phase o t (fun r => { r with pending := r.pending + 1 })
    (fun p => { p with pending := p.pending + 1 }) rfl
  have hfree' : (o.modify t fun r => { r with pending := r.pending + 1 }).Free t := hfree
  refine .of_set (View.update_comp hpending (view_spawn_verify hfree' _ _ _))
    ((hs.verify hV hnone hretry hwithin).astray ?_ (fun g hg ws => ?_) hs.stray.2
      fun g hg => (hs.ahead g hg).1.strayRuns) rfl id
  · change _ + (if _ && (o.heap t).workspace != (o.heap t).workspace then 1 else 0) = 0
    simpa using hs.stray.1
  · have hzero := (hs.ahead g hg).1.strayVerifies ws
    have hne : (o.tenure t).phase.generation ≠ g := Nat.ne_of_lt hg
    simpa [hne] using hzero

omit hs in
/-- Parking on the budget is seen as parking. -/
lemma view_parkOnBudgetSummarized (o : Orchestrator) (t) (hfree : o.Free t) :
    ((o.parkOnBudgetSummarized t).view = o.view ∧ ((o.tenure t).phase.leaving ∨
        (o.heap t).stopping ∨ (o.tenure t).phase.finish ∨
        allowed (o.heap t).state .needsReview = false)) ∨
      ((o.parkOnBudgetSummarized t).view = o.view.update t (fun v =>
          { v with phase := { v.phase with state := .needsReview } }) ∧
        allowed (o.heap t).state .needsReview) := by
  have hview : ((((o.note (.routed t)).attemptEnded t).modify t fun r =>
      r.recordAccount r.lastOutcome).recordAttempt t .budgetExceeded .unknown).view = o.view := by
    rw [view_recordAttempt, view_modify_of_phase rfl, view_attemptEnded,
      view_note_relies o (.inl rfl) hfree]
  unfold parkOnBudgetSummarized
  dsimp only
  generalize (Orchestrator.recordAttempt _ t .budgetExceeded .unknown) = o1 at hview ⊢
  have hphase : (o1.heap t).phase = (o.heap t).phase :=
    congrArg Tenure.phase (tenure_of_view hview t)
  have hstate : (o1.heap t).state = (o.heap t).state := congrArg Phase.state hphase
  rw [← hview, ← hstate]
  refine (view_enterNeedsReview o1 t "budget exceeded" .budgetExceeded).imp (fun h => ⟨h.1, ?_⟩) id
  rw [tenure_of_view hview.symm t,
    show (o.heap t).stopping = (o1.heap t).stopping from (congrArg Phase.stopping hphase).symm]
  rcases h.2 with hexit | hnot
  · simp only [Record.orderedExit, Bool.or_eq_true] at hexit
    change ((o1.heap t).releasing || (o1.heap t).gone || (o1.heap t).claimLost) ∨ _ ∨
      (o1.heap t).finish.isSome ∨ _
    simp only [Bool.or_eq_true]
    tauto
  · exact .inr (.inr (.inr hnot))

/-- A record that runs or is verified dispatches nothing. -/
lemma not_dispatching (hstate : (o.heap t).state = .running ∨ (o.heap t).state = .verifying) :
    (o.tenure t).phase.claimBaseDispatch = false := by
  rcases hstate with h | h <;> exact hs.not_dispatching h rfl

lemma moves_applyOutcomeSummarized (hc : (o.tenure t).Concludes m) (hsum : (o.heap t).summarized) :
    Moves m t o.view (o.applyOutcomeSummarized t).view := by
  unfold applyOutcomeSummarized
  dsimp only
  cases hout : (o.heap t).outcome with
  | none => exact .of_eq rfl hs
  | some out =>
    dsimp only
    split
    · exact .of_eq rfl hs
    · rename_i hopen
      have hquiet : (o.tenure t).phase.domainQuiet := by
        change (o.heap t).domainQuiet
        simp_all
      have houtcome : (o.tenure t).phase.outcome := by
        change (o.heap t).outcome.isSome
        simp [hout]
      obtain ⟨hprep, hstate⟩ := hc.held houtcome
      have hhandle : (o.tenure t).phase.handle = none := by
        cases hh : (o.tenure t).phase.handle with
        | none => rfl
        | some g => cases hc.suspended.symm.trans ((hs.handle g hh).2.2.2.1 hquiet)
      have hzero := hs.no_launch (by rcases hstate with h | h <;> simp [h])
      obtain ⟨hverifies, hretry⟩ := hs.no_verify (.inr (.inl houtcome))
      have hunheld : ((o.modify t fun r => { r with outcome := none }).note (.routed t)).view =
          o.view.update t fun v =>
            { v with phase := { v.phase with outcome := false, succeeded := false } } := by
        refine (view_note_relies _ (.inl rfl) ?_).trans ?_
        · exact hs.quiet hquiet
        · exact view_modify_phase rfl (fun p => { p with outcome := false, succeeded := false }) rfl
      have hmoves : Moves m t o.view
          ((o.modify t fun r => { r with outcome := none }).note (.routed t)).view :=
        .of_set hunheld hs.unhold rfl id
      generalize (o.modify t fun r => { r with outcome := none }).note (.routed t) = o1
        at hunheld hmoves ⊢
      have htenure := tenure_of_update hunheld
      have hwithin1 : (o1.tenure t).Within m := by
        rw [htenure]
        exact hc.within houtcome
      refine hmoves.trans ?_
      split
      · rename_i hsucceeded
        have hver : (o.heap t).state = .verifying := by
          refine hstate.resolve_left fun hr => ?_
          have := (hs.sorted houtcome).2 hr
          change (o.heap t).outcome.any _ = false at this
          simp [hout, hsucceeded] at this
        refine moves_beginVerify hmoves.sound ?_ ?_ ?_ hwithin1 <;> rw [htenure]
        · exact ⟨hver, hhandle, rfl, hsum, hc.parking, hprep⟩
        · exact hverifies
        · exact hretry
      · refine moves_failAttempt hmoves.sound ?_ ?_ hwithin1 _ _ _ <;> rw [htenure]
        · exact hs.unhold.settled_of_summarized hprep hzero hhandle hsum hverifies hretry nofun
        · exact not_dispatching hs hstate

lemma moves_resumeAfterAccount (ha : (o.tenure t).Accountable m)
    (hsum : (o.tenure t).phase.summarized) :
    Moves m t o.view (o.resumeAfterAccount t).view := by
  obtain ⟨hprep, hstate, hsusp, hover⟩ := ha
  unfold resumeAfterAccount
  split
  · rename_i hpark
    have hparking := hs.parking hpark
    have hzero := hs.no_launch (by rcases hstate with h | h <;> simp [h])
    obtain ⟨hverifies, hretry⟩ := hs.no_verify (.inr (.inr hpark))
    have hset : (o.tenure t).Settled :=
      hs.settled_of_summarized hprep hzero hparking.2 hsum hverifies hretry fun _ => hparking.1
    have hview := view_phase o t (fun r => { r with parkOnBudgetPending := false })
      (fun p => { p with parkOnBudgetPending := false }) rfl
    have hfree : (o.modify t fun r => { r with parkOnBudgetPending := false }).Free t :=
      (hs.idle_of_settled hset).2.2
    have hphase : ((o.modify t fun r => { r with parkOnBudgetPending := false }).heap t).phase =
        { (o.heap t).phase with parkOnBudgetPending := false } :=
      congrArg Tenure.phase (tenure_of_update hview)
    have hparked := view_parkOnBudgetSummarized _ t hfree
    generalize o.modify t _ = o1 at hview hphase hparked ⊢
    have hstate1 : (o1.heap t).state = (o.heap t).state := congrArg Phase.state hphase
    rcases hparked with ⟨hkept, hexit⟩ | ⟨hparked, hallowed⟩
    · refine .of_set (hkept.trans hview)
        (hs.unpark (fun _ hpos => absurd hpos hset.summaries.not_gt) fun _ _ _ => ?_) rfl id
      rcases hexit with hl | hstop | hfinish | hnot
      · exact .inl ((congrArg Phase.leaving hphase).symm.trans hl)
      · exact .inr (.inl ((congrArg Phase.stopping hphase).symm.trans hstop))
      · exact .inr (.inr (.inl ((congrArg Phase.finish hphase).symm.trans hfinish)))
      · rw [hstate1] at hnot
        obtain h | h : (o.heap t).state = .running ∨ (o.heap t).state = .verifying := hstate
        all_goals
          rw [h] at hnot
          cases hnot
    · rw [hstate1] at hallowed
      refine .of_set (View.update_comp hview hparked)
        ((hs.rest hset (ne_done_of_allowed hallowed) (.inl rfl) fun h => ?_).unpark
          (fun _ hpos => absurd hpos hset.summaries.not_gt) fun _ _ h => ?_) rfl fun h => ?_
      · cases (not_dispatching hs hstate).symm.trans h
      · rcases h with h | h <;> cases h
      · simp [Phase.bound] at h
  · rename_i hpark
    exact moves_applyOutcomeSummarized hs ⟨fun _ => ⟨hprep, hstate⟩, fun _ hm ho =>
      (hover hm ho).resolve_left hpark, hsusp, Bool.eq_false_of_not_eq_true hpark⟩ hsum

lemma moves_beginSummary (ha : (o.tenure t).Accountable m)
    (hsum : (o.tenure t).phase.summarized = false)
    (hheard : m.frugal → (o.tenure t).phase.eventsClosed = false →
      (o.tenure t).phase.parkOnBudgetPending ∨ (o.tenure t).phase.leaving) :
    Moves m t o.view (o.beginSummary t).view := by
  unfold beginSummary
  dsimp only
  by_cases hflag : (o.heap t).summarizing
  · rw [if_pos hflag]
    exact .of_eq rfl hs
  · rw [if_neg hflag]
    have hflag' : (o.tenure t).phase.summarizing = false := Bool.eq_false_of_not_eq_true hflag
    split
    · -- nothing was prepared, so there is nothing to read
      have hnone : (o.tenure t).out.summaries (o.tenure t).gen = 0 :=
        Nat.eq_zero_of_not_pos fun hpos => by simpa [hflag'] using (hs.summary hpos).2.1
      obtain ⟨hmoves, htenure⟩ := moves_modify (f := fun r => { r with summarized := true })
        (fun p => { p with summarized := true }) (hs.summarised hnone) id rfl
      refine hmoves.trans (moves_resumeAfterAccount hmoves.sound ?_ ?_) <;> rw [htenure]
      exact { ha with }
    · have hpending :=
        view_phase o t (fun r => { r with summarizing := true, pending := r.pending + 1 })
        (fun p => { p with summarizing := true, pending := p.pending + 1 }) rfl
      exact .of_set (View.update_comp hpending
        (view_spawn_plain rfl rfl (fun _ _ => rfl) fun _ _ => rfl))
        (hs.summarize ha.state ha.prepared hflag' hsum hheard ha.within) rfl id

/-- The run that a breach stopped is gone, and the record is about to be parked. -/
lemma moves_parkOnBudget {o1 : Orchestrator} (hfree : o.Free t)
    (hhalted : (o.tenure t).Halted) (hprobes : (o.tenure t).out.probes (o.tenure t).gen = 0)
    (hstate : (o.heap t).state = .running ∨ (o.heap t).summarized)
    (hver : (o.heap t).state ≠ .verifying) (hsusp : (o.heap t).suspended = false)
    (hview : o1.view = o.view.update t fun v => { v with phase := v.phase.stopped }) :
    Moves m t o.view (o1.parkOnBudget t).view := by
  obtain ⟨hprep, hzero, hstops, hself, -, -⟩ := hhalted
  have hquiet := (hs.quieten hfree hzero (.inl hprobes) (.inl hstops)).unhold
  have hphase : (o1.heap t).phase = (o.heap t).phase.stopped :=
    congrArg Tenure.phase (tenure_of_update hview)
  have hsum : (o1.heap t).summarized = (o.heap t).summarized := congrArg Phase.summarized hphase
  have hstate1 : (o1.heap t).state = (o.heap t).state := congrArg Phase.state hphase
  unfold parkOnBudget
  split
  · rename_i hnot
    have hsum' : (o.heap t).summarized = false := by simpa [hsum] using hnot
    have hrunning := hstate.resolve_right (by simp [hsum'])
    have hparked := view_phase o1 t (fun r => { r with parkOnBudgetPending := true })
      (fun p => { p with parkOnBudgetPending := true }) rfl
    have hmoves : Moves m t o.view
        (o1.modify t fun r => { r with parkOnBudgetPending := true }).view :=
      .of_set (View.update_comp hview hparked)
        ((hquiet.awaitBudget rfl rfl hsum').unstop hstops hself fun _ _ _ => .inr (.inl rfl)) rfl
        (o.tenure t).phase.bound_of_quiet
    have htenure := tenure_of_update (View.update_comp hview hparked)
    refine hmoves.trans (moves_beginSummary hmoves.sound ?_ ?_ ?_) <;> rw [htenure]
    · exact ⟨hprep, .inl hrunning, hsusp, fun _ _ => .inl rfl⟩
    · exact hsum'
    · exact fun _ _ => .inl rfl
  · rename_i hsum1
    have hsum' : (o.heap t).summarized := by simpa [hsum] using hsum1
    obtain ⟨hverifies, hretry⟩ := hs.no_verify (.inl hver)
    have hset := hquiet.settled_of_summarized hprep hzero rfl hsum' hverifies hretry
      fun _ => rfl
    have hfree1 : o1.Free t :=
      (congrArg (fun v : Tenure => v.past.live) (tenure_of_update hview)).trans hfree
    rcases view_parkOnBudgetSummarized o1 t hfree1 with ⟨hkept, hexit⟩ | ⟨hparked, hallowed⟩
    · refine .of_set (hkept.trans hview) (hquiet.unstop hstops hself fun _ _ h => ?_) rfl
        (Phase.bound_of_quiet _)
      rcases hexit with hl | hstop | hfinish | hnot
      · exact .inl ((congrArg Phase.leaving hphase).symm.trans hl)
      · cases (congrArg Phase.stopping hphase).symm.trans hstop
      · exact .inr (.inr (.inl ((congrArg Phase.finish hphase).symm.trans hfinish)))
      · have hrunning : (o.heap t).state = .running := h.resolve_right hver
        rw [hstate1, hrunning] at hnot
        cases hnot
    · rw [hstate1] at hallowed
      refine .of_set (View.update_comp hview hparked)
        ((hquiet.rest hset (ne_done_of_allowed hallowed) (.inl rfl) fun h => ⟨rfl, ?_⟩).unstop
          hstops hself fun _ _ h => ?_) rfl fun h => ?_
      · rcases hs.dispatching h with hb | ⟨-, hf⟩
        · exact absurd hprep (hs.fresh (.inr (.inr hb)))
        · exact hf
      · rcases h with h | h <;> cases h
      · simp [Phase.bound] at h

lemma moves_applyOutcome (hc : (o.tenure t).Concludes m) :
    Moves m t o.view (o.applyOutcome t).view := by
  unfold applyOutcome
  dsimp only
  split
  · exact .of_eq rfl hs
  · rename_i hopen
    have hsome : (o.heap t).outcome.isSome := by
      cases hout : (o.heap t).outcome <;> simp_all
    have hclosed : (o.heap t).eventsClosed := by
      by_contra hc
      simp [hc] at hopen
    split
    · rename_i hsum
      exact moves_beginSummary hs ⟨(hc.held hsome).1, (hc.held hsome).2, hc.suspended,
        fun hm ho => .inr (hc.within hsome hm ho)⟩
        (show (o.heap t).summarized = false by simpa using hsum)
        fun _ h => nomatch h.symm.trans hclosed
    · rename_i hsum
      exact moves_applyOutcomeSummarized hs hc (by simpa using hsum)

/-! ## Establishing quiet -/

/-- A run's handle is the one of its attempt. -/
lemma handle_eq {g} (h : (o.heap t).handle = some g) :
    g = (o.heap t).generation := (hs.handle g h).1

lemma moves_beginProbe (hclosed : (o.heap t).eventsClosed)
    (hstops : (o.heap t).stopInFlight = false) (hbudget : (o.heap t).budgetStop = false) :
    Moves m t o.view (o.beginProbe t).view := by
  unfold beginProbe
  dsimp only
  by_cases hflight : (o.heap t).probeInFlight
  · rw [if_pos hflight]
    exact .of_eq rfl hs
  · rw [if_neg hflight]
    cases hhandle : (o.heap t).handle with
    | none => exact .of_eq rfl hs
    | some g =>
      obtain rfl := handle_eq hs hhandle
      have hflag := view_phase o t (fun r => { r with probeInFlight := true })
        (fun p => { p with probeInFlight := true }) rfl
      refine .of_set (View.update_comp hflag (view_spawn_plain rfl rfl (fun _ _ => rfl) ?_))
        (hs.probe hhandle hclosed (Bool.eq_false_of_not_eq_true hflight) hstops hbudget) rfl id
      intro _ g
      simp only [Worker.strayRun, tag, heap_modify_self]
      by_cases hg : (o.heap t).generation = g <;> simp [hg]

lemma moves_beginStop (mode) (hhandle : (o.heap t).handle.isSome)
    (hpre : (o.tenure t).out.probes (o.tenure t).gen = 0 ∨ (o.heap t).stopping ∨
      (o.tenure t).Doomed) : Moves m t o.view (o.beginStop t mode).view := by
  unfold beginStop
  dsimp only
  by_cases hflight : (o.heap t).stopInFlight
  · rw [if_pos hflight]
    exact .of_eq rfl hs
  · rw [if_neg hflight]
    cases hsome : (o.heap t).handle with
    | none => simp [hsome] at hhandle
    | some g =>
      obtain rfl := handle_eq hs hsome
      have hflag := view_phase o t (fun r => { r with stopInFlight := true })
        (fun p => { p with stopInFlight := true }) rfl
      refine .of_set (View.update_comp hflag (view_spawn_plain rfl rfl (fun _ _ => rfl) ?_))
        (hs.sendStop hsome (Bool.eq_false_of_not_eq_true hflight) hpre) rfl id
      intro _ g
      simp only [Worker.strayRun, tag, heap_modify_self]
      by_cases hg : (o.heap t).generation = g <;> simp [hg]

lemma moves_quiet (hfree : o.Free t) (hzero : (o.tenure t).launches = 0)
    (hprobes : (o.tenure t).out.probes (o.tenure t).gen = 0)
    (hstops : (o.tenure t).out.stops (o.tenure t).gen = 0) (hc : (o.tenure t).Concludes m) :
    Moves m t o.view (o.quiet t).view := by
  unfold quiet
  dsimp only
  have hfreed := view_quieted hfree
  generalize (o.modify t fun r => { r with domainQuiet := true }).freeWorkspaceMarker t = o1
    at hfreed ⊢
  have hgone : (o1.modify t fun r => { r with handle := none }).view =
      (o.view.update t fun v => { v with phase := { v.phase with domainQuiet := true } }).update t
        fun v => { v with phase := { v.phase with handle := none } } :=
    view_modify_phase hfreed (fun p => { p with handle := none }) rfl
  rw [View.update_update] at hgone
  have hsound := hs.quieten hfree hzero (.inl hprobes) (.inl hstops)
  have hmoves : Moves m t o.view (o1.modify t fun r => { r with handle := none }).view :=
    .of_set hgone hsound rfl (o.tenure t).phase.bound_of_quiet
  refine hmoves.trans (moves_applyOutcome hmoves.sound ?_)
  rw [tenure_of_update hgone]
  exact { hc with }

/-- A record that is not on its way out breaks no budget while it has a handle. -/
lemma budgetStop_eq_false (hhandle : (o.heap t).handle.isSome)
    (hstop : (o.heap t).stopping = false) : (o.heap t).budgetStop = false := by
  by_contra hb
  have hb' : (o.tenure t).phase.budgetStop := Bool.eq_true_of_not_eq_false hb
  obtain ⟨hrun, hver, -⟩ := hs.budget hb'
  obtain ⟨g, hg⟩ := Option.isSome_iff_exists.1 hhandle
  obtain ⟨-, hstate, -, -, hpre⟩ := hs.handle g hg
  rcases hstate with hstate | hstate | hstate
  · cases (hpre hstate).symm.trans hb'
  · cases hstop.symm.trans (hrun hstate)
  · exact hver hstate

omit hs in
/-- What it is not to be on the way out. -/
lemma not_exiting (h : (o.heap t).exiting = false) : (o.tenure t).phase.leaving = false ∧
    (o.heap t).stopping = false ∧ (o.tenure t).phase.finish = false ∧
    (o.heap t).suspended = false := by
  simp only [Record.exiting, Record.orderedExit, Bool.or_eq_false_iff] at h
  obtain ⟨⟨⟨⟨⟨hrel, hstop⟩, hfin⟩, hgone⟩, hlost⟩, hsusp⟩ := h
  refine ⟨?_, hstop, hfin, hsusp⟩
  change ((o.heap t).releasing || (o.heap t).gone || (o.heap t).claimLost) = false
  simp [hrel, hgone, hlost]

/-- The cost of a run that is neither on its way out nor about to be parked is within its cap. -/
lemma within_of_running (hexiting : (o.heap t).exiting = false)
    (hstate : (o.heap t).state = .running ∨ (o.heap t).state = .verifying)
    (hpark : (o.heap t).parkOnBudgetPending = false) : (o.tenure t).Within m := by
  obtain ⟨hleave, hstop, hfin, hsusp⟩ := not_exiting hexiting
  exact fun hm ho => absurd ho (hs.clear_of_running hm hstate hleave hstop hpark hfin hsusp)

lemma moves_confirmQuiet : Moves m t o.view (o.confirmQuiet t).view := by
  unfold confirmQuiet
  dsimp only
  split
  · exact .of_eq rfl hs
  · rename_i hguard
    simp only [Bool.or_eq_true, Bool.not_eq_true', not_or, Bool.not_eq_true, Bool.not_eq_false,
      Option.isNone_eq_false_iff] at hguard
    obtain ⟨⟨⟨⟨⟨hout, hclosed⟩, hquiet⟩, hprobe⟩, hstop⟩, hexiting⟩ := hguard
    obtain ⟨-, hstopping, -, hsusp⟩ := not_exiting hexiting
    obtain ⟨hprep, hstate⟩ := hs.held hout hquiet
    have hzero := hs.no_launch (by rcases hstate with h | h <;> simp [h])
    have hprobes : (o.tenure t).out.probes (o.tenure t).gen = 0 :=
      Nat.eq_zero_of_not_pos fun hp => nomatch hprobe.symm.trans (hs.probing hp).2.1
    split
    · rename_i hnone
      have hhandle : (o.tenure t).phase.handle = none := Option.isNone_iff_eq_none.1 hnone
      have hlive := (hs.idle_of_handle hhandle hzero).2.2
      have hpark : (o.heap t).parkOnBudgetPending = false := by
        by_contra hp
        exact absurd (hquiet.symm.trans (hs.parking (Bool.eq_true_of_not_eq_false hp)).1)
          Bool.false_ne_true
      have hfreed := view_quieted hlive
      have hmoves : Moves m t o.view
          ((o.modify t fun r => { r with domainQuiet := true }).freeWorkspaceMarker t).view :=
        .of_set hfreed (hs.quieten_held hlive hzero (.inl hhandle)) rfl
          (Phase.bound_of_quiet _)
      refine hmoves.trans (moves_applyOutcome hmoves.sound ?_)
      rw [tenure_of_update hfreed]
      exact ⟨fun _ => ⟨hprep, hstate⟩, fun _ => within_of_running hs hexiting hstate hpark, hsusp,
        hpark⟩
    · rename_i hnone
      have hsome : (o.heap t).handle.isSome := by
        simpa [Option.isSome_iff_ne_none] using hnone
      split
      · exact moves_beginProbe hs hclosed hstop (budgetStop_eq_false hs hsome hstopping)
      · exact moves_beginStop hs _ hsome (.inl hprobes)

/-! ## Exits -/

lemma moves_finishNow (hidle : (o.tenure t).Idle) (keep : Bool) (why) :
    Moves m t o.view (o.finishNow t keep why).view := by
  obtain ⟨E, hview⟩ := view_finishNow o t keep why hidle.2.2
  exact .of_set hview ((hs.leave.unpark (fun _ _ => rfl) fun _ _ _ => .inl rfl).oweExit hidle rfl E)
    rfl id

lemma moves_stopAndFinish (keep : Bool) (why) :
    Moves m t o.view (o.stopAndFinish t keep why).view := by
  unfold stopAndFinish
  extract_lets +onlyGivenNames o1
  have hview : o1.view = o.view := view_modify_of_phase rfl
  clear_value o1
  have hs1 : Sound m (o1.tenure t) := tenure_of_view hview t ▸ hs
  rw [← hview]
  split
  · rename_i hsome
    obtain ⟨hmoves, htenure⟩ := moves_modify (o := o1) (f := fun r => { r with stopping := true })
      (fun p => { p with stopping := true }) hs1.stop id rfl
    refine hmoves.trans (moves_beginStop hmoves.sound _ ?_ (.inr (.inl ?_)))
    · simpa using hsome
    · simp
  · rename_i hnone
    split
    · exact (moves_modify (fun p => { p with finish := true }) hs1.request id (by rfl)).1
    · rename_i hpending
      exact moves_finishNow hs1 (idle_of_pending hs1 (by simpa using hnone) (not_lt.1 hpending)) _ _

/-- An exit that waited is carried out, or nothing happens. -/
lemma moves_finishIfRequested : Moves m t o.view (o.finishIfRequested t).1.view := by
  unfold finishIfRequested
  cases hreq : (o.heap t).finish with
  | none => exact .of_eq rfl hs
  | some req =>
    dsimp only
    split
    · exact .of_eq rfl hs
    · rename_i hpending
      have hview := view_phase o t (fun r => { r with finish := none })
        (fun p => { p with finish := false }) rfl
      split
      · rename_i hsome
        have hsome' : (o.heap t).handle.isSome := by simpa using hsome
        obtain ⟨g, hg⟩ := Option.isSome_iff_exists.1 hsome'
        have hstopping : ((o.modify t fun r => { r with finish := none }).modify t fun r =>
            { r with stopping := true }).view =
            (o.view.update t fun v => { v with phase := { v.phase with finish := false } }).update t
              fun v => { v with phase := { v.phase with stopping := true } } :=
          view_modify_phase hview (fun p => { p with stopping := true }) rfl
        rw [View.update_update] at hstopping
        have hmoves : Moves m t o.view ((o.modify t fun r => { r with finish := none }).modify t
            fun r => { r with stopping := true }).view :=
          .of_set hstopping (hs.beginExit hg) rfl id
        refine hmoves.trans (moves_beginStop hmoves.sound _ ?_ (.inr (.inl ?_)))
        · simpa using hsome
        · simp
      · rename_i hnone
        have hidle := idle_of_pending hs (by simpa using hnone) (not_lt.1 hpending)
        obtain ⟨E, hfinish⟩ := view_finishNow (o.modify t fun r => { r with finish := none }) t
          req.keepWorkspace req.why hidle.2.2
        exact .of_set (View.update_comp hview hfinish)
          ((hs.finish hidle E).unpark (fun _ _ => rfl) fun _ _ _ => .inl rfl) rfl id

lemma moves_finishSuspended (hsusp : (o.heap t).suspended) :
    Moves m t o.view (o.finishSuspended t).view := by
  unfold finishSuspended
  dsimp only
  split
  · exact .of_eq rfl hs
  · rename_i hguard
    have hquiet : (o.tenure t).phase.domainQuiet := by
      change (o.heap t).domainQuiet
      by_contra h
      simp [h] at hguard
    have hzero : (o.tenure t).launches = 0 := by
      by_contra hne
      exact absurd ((hs.launching (Nat.pos_of_ne_zero hne)).domainQuiet.symm.trans hquiet)
        Bool.false_ne_true
    have hsound := (hs.quieten (hs.quiet hquiet) hzero (.inr (.inr (.inr hsusp)))
      (.inr hsusp)).unhold
    have hphase : { (o.tenure t).phase with domainQuiet := true } = (o.tenure t).phase := by
      rw [← hquiet]
    rw [view_attemptEnded]
    refine (moves_modify (fun p => { p with handle := none, outcome := false, succeeded := false })
      ?_ id (by rfl)).1
    rw [← hphase]
    exact hsound

lemma moves_suspendStopped (hsusp : (o.heap t).suspended) (hfree : o.Free t)
    (hzero : (o.tenure t).launches = 0) : Moves m t o.view (o.suspendStopped t).view := by
  unfold suspendStopped
  dsimp only
  have hfreed := view_quieted hfree
  have hmoves : Moves m t o.view
      ((o.modify t fun r => { r with domainQuiet := true }).freeWorkspaceMarker t).view :=
    .of_set hfreed (hs.quieten_held hfree hzero (.inr hsusp)) rfl
      (Phase.bound_of_quiet _)
  have htenure := tenure_of_update hfreed
  exact hmoves.trans (moves_finishSuspended hmoves.sound
    ((congrArg (fun v : Tenure => v.phase.suspended) htenure).trans hsusp))

lemma moves_endAttemptSuspended (hsusp : (o.heap t).suspended)
    (hnone : (o.tenure t).out.summaries (o.tenure t).gen = 0) :
    Moves m t o.view (o.endAttemptSuspended t).view := by
  unfold endAttemptSuspended
  dsimp only
  rw [view_recordAttempt, view_attemptEnded]
  exact (moves_modify (fun p => { p with parkOnBudgetPending := false })
    (hs.unpark (fun _ hpos => absurd hpos hnone.not_gt) fun _ _ _ => .inr (.inr (.inr hsusp)))
    id (by rfl)).1

end Orchestrator

end Ben
