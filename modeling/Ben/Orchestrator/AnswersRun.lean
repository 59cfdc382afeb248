import Ben.Orchestrator.Answers

/-!
# The answers about a run keep the invariant

A run's own stream, the probes and stops that establish its end, and the account of what it
left, are sound work on its tenure.
-/

namespace Ben

variable [Platform]

namespace Orchestrator

variable {m : Mode} {o : Orchestrator} {t : Token}

/-! ## The stream -/

/-- An event without usage counts nothing. -/
lemma view_countUsage_of_none {event : RunEvent} (h : event.type = .usage → event.usage = none) :
    (o.countUsage t event).view = o.view := by
  have hsame : ∀ r, addUsage r event = r := fun r => by
    unfold addUsage
    cases htype : event.type with
    | usage => rw [h htype]
    | _ => rfl
  have hview : (o.modify t fun r => addUsage r event).view = o.view :=
    view_modify_of_phase (by rw [hsame])
  unfold countUsage
  cases htype : event.type with
  | usage =>
    rw [h htype]
    exact hview
  | _ => exact hview

/-- Usage is seen in the record's cost and in its history. -/
lemma view_countUsage_of_some {event : RunEvent} {u : Usage} (htype : event.type = .usage)
    (husage : event.usage = some u) :
    (o.countUsage t event).view = o.view.update t fun v =>
      { v with
        phase := { v.phase with costUSD := v.phase.costUSD + u.costUSD }
        past := { v.past with
          spent := v.past.spent + u.costUSD
          overrun := fun cap => cap < v.past.spent + u.costUSD ∨ v.past.overrun cap } } := by
  have hcost := view_phase o t (fun r => addUsage r event)
    (fun p => { p with costUSD := p.costUSD + u.costUSD }) (by
      unfold addUsage
      rw [htype, husage]
      rfl)
  unfold countUsage
  dsimp only
  generalize o.modify t _ = o1 at hcost ⊢
  rw [htype, husage]
  refine (view_note_update (t := t) (f := fun p =>
    { p with
      spent := p.spent + u.costUSD
      overrun := fun cap => cap < p.spent + u.costUSD ∨ p.overrun cap }) o1 (fun _ => rfl)
      (by rw [past_cons]; simp [past])).trans ?_
  rw [hcost, View.update_update]
  rfl

/-- A budget breach stops the run, or has the loop say that there was nothing to stop. -/
lemma moves_beginStop_breached (hs : Sound m (o.tenure t))
    (hstate : (o.tenure t).phase.state = .running) (hstop : (o.tenure t).phase.stopping)
    (hself : (o.tenure t).out.selfStops (o.tenure t).gen = 0) (mode) :
    Moves m t o.view (o.beginStop t mode).view := by
  cases hhandle : (o.heap t).handle with
  | some g => exact moves_beginStop hs mode (by simp [hhandle]) (.inr (.inl hstop))
  | none =>
    unfold beginStop
    dsimp only
    refine moves_guard hs fun hflight => ?_
    simp only [hhandle]
    have hstops : (o.tenure t).out.stops (o.tenure t).gen = 0 :=
      Nat.eq_zero_of_not_pos fun hp => hflight (hs.stopping hp).2.1
    exact .of_set (view_spawn_plain rfl rfl (fun _ _ => rfl) fun _ _ => rfl)
      (hs.sendSelfStop hstate hhandle hstop hself hstops) rfl id

/-- Holding an outcome is seen with whether it is a success. -/
lemma view_holdOutcome {V : View} (hview : o.view = V) (t) (event : RunEvent) (detail) :
    (o.holdOutcome t event detail).view = V.update t fun v =>
      { v with phase := { v.phase with
          outcome := true, succeeded := event.type == .succeeded } } :=
  view_modify_phase hview (fun p =>
    { p with outcome := true, succeeded := event.type == .succeeded }) rfl

/-- An event without usage. -/
lemma moves_onRunEvent_of_none (hs : Sound m (o.tenure t)) {event : RunEvent}
    (hterm : m.frugal → event.type = .succeeded → (o.tenure t).past.terminal (o.tenure t).gen)
    (hnone : event.type = .usage → event.usage = none) :
    Moves m t o.view (o.onRunEvent t event).view := by
  have hview := view_countUsage_of_none (o := o) (t := t) hnone
  unfold onRunEvent
  dsimp only
  generalize o.countUsage t event = o1 at hview ⊢
  have htenure := tenure_of_view hview t
  have hs1 : Sound m (o1.tenure t) := htenure ▸ hs
  rw [← hview]
  refine moves_guard hs1 fun hguard => ?_
  have hstate : (o1.heap t).state = .running := by simpa using hguard
  cases htype : event.type with
  | started => exact .of_eq (view_modify_of_phase rfl) hs1
  | progress => exact .of_eq (view_modify_of_phase rfl) hs1
  | heartbeat => exact .of_eq rfl hs1
  | usage =>
    simp only [hnone htype, Option.isNone_none, if_true]
    exact .of_eq rfl hs1
  | succeeded =>
    refine moves_guard hs1 fun hstop => ?_
    have hallowed : allowed (o1.heap t).state .verifying := by rw [hstate]; rfl
    have hmoved := view_transitionCaused_of_ne_done hallowed (by decide)
      (transitionReason .running .verifying) .none
    unfold transition
    simp only [transitionCaused_snd, hallowed]
    generalize (o1.transitionCaused t .verifying _ .none).1 = o2 at hmoved ⊢
    have hheld := view_holdOutcome (o := o2.modify t fun r => { r with lastOutcome := "succeeded" })
      ((view_modify_of_phase rfl).trans hmoved) t event "agent run failed"
    rw [View.update_update, show (event.type == .succeeded) = true by rw [htype]; rfl] at hheld
    exact .of_set hheld
      (hs1.succeed hstate (show (o1.heap t).stopping = false by simpa using hstop)
        fun hm => htenure ▸ hterm hm htype) rfl
      fun _ => Phase.bound_of_state (.inr (.inr hstate))
  | failed =>
    refine moves_guard hs1 fun _ => ?_
    have hheld := view_holdOutcome (o := o1.modify t fun r =>
      { r with failureReason := event.reason })
      (view_modify_of_phase rfl) t event "agent run failed"
    rw [show (event.type == .succeeded) = false by rw [htype]; rfl] at hheld
    exact .of_set hheld (hs1.hold hstate) rfl id

/-- Usage: a cost that goes over the cap stops the run, unless it is being stopped already. -/
lemma moves_onRunEvent_of_some (hs : Sound m (o.tenure t))
    (hpump : 0 < (o.tenure t).out.pumps (o.tenure t).gen) {event : RunEvent} {u}
    (hheard : m.frugal → ¬ (o.tenure t).past.terminal (o.tenure t).gen)
    (htype : event.type = .usage) (husage : event.usage = some u) :
    Moves m t o.view (o.onRunEvent t event).view := by
  have hview := view_countUsage_of_some (o := o) (t := t) htype husage
  have hprobes : (o.tenure t).out.probes (o.tenure t).gen = 0 :=
    Nat.eq_zero_of_not_pos fun hp => absurd hpump (hs.stream.2 (hs.probing hp).2.2.1).not_gt
  unfold onRunEvent
  dsimp only
  generalize o.countUsage t event = o1 at hview ⊢
  have hphase : (o1.heap t).phase =
      { (o.heap t).phase with costUSD := (o.heap t).costUSD + u.costUSD } :=
    congrArg Tenure.phase (tenure_of_update hview)
  have hstate1 : (o1.heap t).state = (o.heap t).state := congrArg Phase.state hphase
  have hstop1 : (o1.heap t).stopping = (o.heap t).stopping := congrArg Phase.stopping hphase
  have hsusp1 : (o1.heap t).suspended = (o.heap t).suspended := congrArg Phase.suspended hphase
  -- nothing is done about the cost: it is within the cap, or the run is on its way out
  have hkept : ((o.heap t).state = .running → m.frugal →
        m.limits.maxCost < (o.tenure t).past.spent + u.costUSD →
        (o.heap t).stopping ∨ (o.heap t).suspended) →
      Moves m t o.view o1.view := fun hrun =>
    .of_set hview (hs.spend fun hm ho => ho.elim
      (fun hover => hs.barred_of_pump hm hpump (hheard hm) fun hr => hrun hr hm hover)
      (hs.barred hm)) rfl id
  refine moves_ite (fun hguard => hkept fun hr => ?_) fun hguard => ?_
  · simp [hstate1, hr] at hguard
  have hstate : (o.heap t).state = .running := by simpa [hstate1] using hguard
  simp only [htype, husage, Option.isNone_some, Bool.false_eq_true, if_false]
  refine moves_ite (fun hbreach => ?_) fun hbreach => hkept fun _ hm hover => ?_
  · have hstop : (o.tenure t).phase.stopping = false := by
      change (o.heap t).stopping = false
      simpa [hstop1] using hbreach.2.2.1
    have hself : (o.tenure t).out.selfStops (o.tenure t).gen = 0 :=
      Nat.eq_zero_of_not_pos fun hp => by simpa [hstop] using (hs.selfStop hp).2.2.1
    have hstopped := view_phase o1 t (fun r => { r with
        stopping := true, budgetStop := true, failureReason := .budgetExceeded
        lastOutcome := FailureReason.budgetExceeded.name })
      (fun p => { p with stopping := true, budgetStop := true }) rfl
    have hsound := hs.breach hstate hprobes
    have hmoves : Moves m t o.view (o1.modify t fun r =>
        { r with
          stopping := true, budgetStop := true, failureReason := .budgetExceeded
          lastOutcome := FailureReason.budgetExceeded.name }).view :=
      .of_set (View.update_comp hview hstopped) (hsound.spend fun hm _ =>
        hsound.barred_of_pump hm hpump (hheard hm) fun _ => .inl rfl) rfl id
    have htenure := tenure_of_update (View.update_comp hview hstopped)
    generalize o1.modify t _ = o2 at hmoves htenure ⊢
    refine hmoves.trans (moves_beginStop_breached hmoves.sound ?_ ?_ ?_ _) <;> rw [htenure]
    · exact hstate
    · rfl
    · exact hself
  · by_contra hnot
    simp only [not_or, Bool.not_eq_true] at hnot
    have hmax : (o1.heap t).maxCost = m.limits.maxCost :=
      (congrArg Phase.maxCost hphase).trans (hs.priced hm (.inr hstate))
    have hcost : (o1.heap t).costUSD = (o.tenure t).past.spent + u.costUSD :=
      (congrArg Phase.costUSD hphase).trans (congrArg (· + u.costUSD) (hs.tallied hm))
    refine hbreach ⟨?_, ?_, ?_, ?_⟩
    · rw [hmax]
      exact m.price hm
    · rw [hmax, hcost]
      exact hover
    · simp [hstop1, hnot.1]
    · simp [hsusp1, hnot.2]

lemma moves_onRunEvent (hs : Sound m (o.tenure t))
    (hpump : 0 < (o.tenure t).out.pumps (o.tenure t).gen) (event : RunEvent)
    (hheard : m.frugal → event.type = .usage → ¬ (o.tenure t).past.terminal (o.tenure t).gen)
    (hterm : m.frugal → event.type = .succeeded → (o.tenure t).past.terminal (o.tenure t).gen) :
    Moves m t o.view (o.onRunEvent t event).view := by
  by_cases hnone : event.type = .usage → event.usage = none
  · exact moves_onRunEvent_of_none hs hterm hnone
  · rw [Classical.not_imp] at hnone
    obtain ⟨htype, hsome⟩ := hnone
    obtain ⟨u, husage⟩ := Option.ne_none_iff_exists'.1 hsome
    exact moves_onRunEvent_of_some hs hpump (fun hm => hheard hm htype) htype husage

lemma moves_onEventsClosed (out : Out) (hout : (o.tenure t).out = out.add .drain (o.tenure t).gen)
    (h : Sound m { o.tenure t with out := out.add .pump (o.tenure t).gen }) (sawTerminal : Bool) :
    Moves m t o.view (o.onEventsClosed t sawTerminal).view := by
  have hcame : Sound m { o.tenure t with out := out } :=
    Sound.came (v := { o.tenure t with out := out }) h (by decide)
  obtain ⟨hprep, -, hpumps, -⟩ := Sound.came_pump (v := { o.tenure t with out := out }) h
  have hzero : out.prepares (o.tenure t).gen + out.starts (o.tenure t).gen = 0 := by
    by_contra hne
    have hnone : (out.add .pump (o.tenure t).gen).pumps (o.tenure t).gen = 0 :=
      (h.launching (Nat.pos_of_ne_zero hne)).pumps
    simp [Out.add] at hnone
  have hclosed : Sound m { o.tenure t with
      phase := { (o.tenure t).phase with eventsClosed := true }
      out := out.add .drain (o.tenure t).gen } := hcame.closeStream hprep hpumps hzero
  rw [← hout] at hclosed
  obtain ⟨hmoves, htenure⟩ := moves_modify (o := o) (t := t)
    (f := fun r => { r with eventsClosed := true }) (fun p => { p with eventsClosed := true })
    hclosed id rfl
  unfold onEventsClosed
  dsimp only
  generalize o.modify t _ = o1 at hmoves htenure ⊢
  have hs : Sound m (o1.tenure t) := hmoves.sound
  refine hmoves.trans (moves_guard hs fun _ => ?_)
  refine moves_ite (fun _ => moves_confirmQuiet hs) fun _ => ?_
  refine moves_guard hs fun hguard => ?_
  have hstate : (o1.heap t).state = .running := by simpa using hguard
  have hheld := view_holdOutcome (o := o1) rfl t { type := .failed, reason := .crashed }
    "the agent exited without a terminal event"
  have hmoves2 : Moves m t o1.view _ := .of_set hheld (hs.hold hstate) rfl id
  exact hmoves2.trans (moves_confirmQuiet hmoves2.sound)

lemma moves_onHandleDone (hs : Sound m (o.tenure t)) :
    Moves m t o.view (o.onHandleDone t).view := by
  unfold onHandleDone
  extract_lets +onlyGivenNames o1
  have hview : o1.view = o.view := view_modify_of_phase rfl
  clear_value o1
  have hs1 : Sound m (o1.tenure t) := tenure_of_view hview t ▸ hs
  rw [← hview]
  exact moves_ite (fun hsusp => moves_finishSuspended hs1 hsusp) fun _ => moves_confirmQuiet hs1

/-! ## Probes and stops -/

/-- A record that is neither on its way out nor suspended is not doomed. -/
lemma not_doomed (h : (o.heap t).exiting = false) : ¬ (o.tenure t).Doomed := by
  obtain ⟨hleave, -, hfinish, hsusp⟩ := not_exiting h
  rintro (hd | hd | hd)
  · cases hleave.symm.trans hd
  · cases hfinish.symm.trans hd
  · cases hsusp.symm.trans hd

/-- A probe or a stop established that nothing is left of a run that is not on its way out. -/
lemma moves_quiet_of_handle (hs : Sound m (o.tenure t)) (hfree : o.Free t)
    (hzero : (o.tenure t).launches = 0) (hprobes : (o.tenure t).out.probes (o.tenure t).gen = 0)
    (hstops : (o.tenure t).out.stops (o.tenure t).gen = 0)
    (hhandle : (o.tenure t).phase.handle = some (o.tenure t).gen)
    (hexiting : (o.heap t).exiting = false) : Moves m t o.view (o.quiet t).view := by
  have hsusp := (not_exiting hexiting).2.2.2
  have hquiet : (o.tenure t).phase.domainQuiet = false := by
    by_contra hq
    exact absurd
      (hsusp.symm.trans ((hs.handle _ hhandle).2.2.2.1 (Bool.eq_true_of_not_eq_false hq)))
      Bool.false_ne_true
  have hpark : (o.heap t).parkOnBudgetPending = false := by
    by_contra hp
    have := (hs.parking (Bool.eq_true_of_not_eq_false hp)).1
    simp [hquiet] at this
  exact moves_quiet hs hfree hzero hprobes hstops ⟨fun hout => hs.held hout hquiet, fun hout =>
    within_of_running hs hexiting (hs.held hout hquiet).2 hpark, hsusp, hpark⟩

lemma moves_onProbed (h : Sound m ((o.tenure t).sent .probe))
    {termination} (hfree : termination = .confirmed → o.Free t) :
    Moves m t o.view (o.onProbed t termination).view := by
  obtain ⟨hprep, hprobes, hhandle⟩ := h.came_probe
  have hcame := h.came (by decide)
  have hzero : (o.tenure t).launches = 0 := by
    by_contra hne
    have hnone : ((o.tenure t).out.add .probe (o.tenure t).gen).probes (o.tenure t).gen = 0 :=
      (h.launching (Nat.pos_of_ne_zero hne)).probes
    simp [Out.add] at hnone
  obtain ⟨hmoves, htenure⟩ := moves_modify (f := fun r => { r with probeInFlight := false })
    (fun p => { p with probeInFlight := false }) (hcame.probed hprobes) id rfl
  unfold onProbed
  dsimp only
  have hfree1 : termination = .confirmed →
      (o.modify t fun r => { r with probeInFlight := false }).Free t := hfree
  generalize o.modify t _ = o1 at hmoves htenure hfree1 ⊢
  have hs : Sound m (o1.tenure t) := hmoves.sound
  refine hmoves.trans (moves_guard hs fun hguard => ?_)
  simp only [Bool.or_eq_true, not_or, Bool.not_eq_true] at hguard
  refine moves_ite (fun _ => moves_confirmQuiet hs) fun _ => ?_
  refine moves_guard hs fun hconfirmed => ?_
  refine moves_quiet_of_handle hs (hfree1 (not_not.1 hconfirmed)) ?_ ?_ ?_ ?_ hguard.1
  · rw [htenure]
    exact hzero
  · rw [htenure]
    exact hprobes
  · refine Nat.eq_zero_of_not_pos fun hp => ?_
    cases hguard.2.symm.trans (hs.stopping hp).2.1
  · rw [htenure]
    refine hhandle.resolve_right fun hd => not_doomed hguard.1 ?_
    rw [htenure]
    exact hd

/-- The run of a record on its way out is known to be gone. -/
lemma view_stopped (o : Orchestrator) (t) (hfree : o.Free t) :
    (((o.modify t fun r => { r with domainQuiet := true }).freeWorkspaceMarker t).modify t fun r =>
      { r with
        handle := none, outcome := none
        stopping := false, budgetStop := false, finishAfterStop := false }).view =
      o.view.update t fun v => { v with phase := v.phase.stopped } := by
  have hfreed := view_quieted hfree
  refine (view_modify_phase hfreed (fun p =>
    { p with
      handle := none, outcome := false, succeeded := false, stopping := false
      budgetStop := false }) (by rfl)).trans ?_
  rw [View.update_update]
  rfl

/-- The exit of a stopped record whose run is gone. -/
lemma moves_stoppedExit (hs : Sound m (o.tenure t)) (hfree : o.Free t)
    (hhalted : (o.tenure t).Halted) {o1 : Orchestrator}
    (hview : o1.view = o.view.update t fun v => { v with phase := v.phase.stopped }) :
    Moves m t o.view (if (o1.heap t).pending > 0 then
        o1.modify t fun r => { r with finish := some ⟨r.keepOnStop, r.stopReason⟩ }
      else o1.finishNow t (o1.heap t).keepOnStop (o1.heap t).stopReason).view := by
  obtain ⟨-, hzero, hstops, hself, -, -⟩ := hhalted
  have hidle : (o.tenure t).Idle := and_assoc.1 ⟨Nat.add_eq_zero_iff.1 hzero, hfree⟩
  refine moves_ite (fun _ => ?_) fun _ => ?_
  · have hrequested :=
      view_phase o1 t (fun r => { r with finish := some ⟨r.keepOnStop, r.stopReason⟩ })
      (fun p => { p with finish := true }) rfl
    exact .of_set (View.update_comp hview hrequested)
      ((((hs.request.quieten hfree hzero (.inr (.inr (.inl rfl))) (.inl hstops)).unhold).unstop
        hstops hself fun _ _ _ => .inr (.inr (.inl rfl)))) rfl
      (o.tenure t).phase.bound_of_quiet
  · have hfree1 : o1.Free t :=
      (congrArg (fun v : Tenure => v.past.live) (tenure_of_update hview)).trans hfree
    obtain ⟨E, hfinished⟩ := view_finishNow o1 t (o1.heap t).keepOnStop (o1.heap t).stopReason
      hfree1
    exact .of_set (View.update_comp hview hfinished)
      (((((hs.leave.quieten hfree hzero (.inr (.inl rfl)) (.inl hstops)).unhold).unstop hstops
        hself fun _ _ _ => .inl rfl).unpark (fun _ _ => rfl) fun _ _ _ => .inl rfl).oweExit hidle
        rfl E) rfl (o.tenure t).phase.bound_of_quiet

lemma moves_onStopped (hs : Sound m (o.tenure t)) (hhalted : (o.tenure t).Halted) {termination}
    (hfree : termination = .confirmed → o.Free t) :
    Moves m t o.view (o.onStopped t termination).view := by
  obtain ⟨hmoves, htenure⟩ := moves_modify (f := fun r => { r with stopInFlight := false })
    (fun p => { p with stopInFlight := false }) (hs.stopped hhalted.stops) id rfl
  have hfree1 : termination = .confirmed →
      (o.modify t fun r => { r with stopInFlight := false }).Free t := hfree
  unfold onStopped
  dsimp only
  generalize o.modify t _ = o1 at hmoves htenure hfree1 ⊢
  have hs1 : Sound m (o1.tenure t) := hmoves.sound
  have hhalted1 : (o1.tenure t).Halted := by
    rw [htenure]
    exact { hhalted with }
  refine hmoves.trans (moves_ite (fun hsusp => ?_) fun hsusp => ?_)
  · refine moves_guard hs1 fun hconfirmed => ?_
    exact moves_suspendStopped hs1 hsusp (hfree1 (not_not.1 hconfirmed)) hhalted1.launches
  refine moves_guard hs1 fun hconfirmed => ?_
  have hfree2 := hfree1 (not_not.1 hconfirmed)
  have hhandle1 := hhalted1.handle.imp id fun h => h.resolve_left hsusp
  refine moves_ite (fun hexiting => ?_) fun _ => ?_
  · have hexiting : (o1.heap t).exiting = false := by simpa using hexiting
    have hnot : ¬ (o1.tenure t).phase.stopping := fun h =>
      nomatch (not_exiting hexiting).2.1.symm.trans h
    exact moves_quiet_of_handle hs1 hfree2 hhalted1.launches
      (hhalted1.probes.resolve_right fun h => h.elim hnot (not_doomed hexiting)) hhalted1.stops
      (hhandle1.resolve_right fun h => hnot h.1) hexiting
  have hview := view_stopped o1 t hfree2
  have hflags : (((o1.modify t fun r => { r with domainQuiet := true }).freeWorkspaceMarker
      t).heap t).phase = { (o1.heap t).phase with domainQuiet := true } := by
    have hfreed := view_quieted hfree2
    exact congrArg Tenure.phase (tenure_of_update hfreed)
  generalize (o1.modify t fun r => { r with domainQuiet := true }).freeWorkspaceMarker t = o2
    at hview hflags ⊢
  generalize o2.modify t _ = o3 at hview ⊢
  refine moves_ite (fun hbudget => ?_) fun _ => ?_
  · -- the breach alone stopped the run
    simp only [Bool.and_eq_true] at hbudget
    have hbroken : (o1.tenure t).phase.budgetStop :=
      (congrArg Phase.budgetStop hflags).symm.trans hbudget.1
    obtain ⟨-, hver, hnone⟩ := hs1.budget hbroken
    refine moves_parkOnBudget hs1 hfree2 hhalted1 hnone ?_ hver
      (Bool.eq_false_of_not_eq_true hsusp) hview
    rcases hhandle1 with h | h
    · obtain ⟨-, hs', -, -, hpre⟩ := hs1.handle _ h
      rcases hs' with hs' | hs' | hs'
      · cases (hpre hs').symm.trans hbroken
      · exact .inl hs'
      · exact absurd hs' hver
    · exact h.2
  · have hended : ∀ reason, ((o3.attemptEnded t).recordAttempt t reason .unknown).view = o3.view :=
      fun reason => by simp
    exact moves_stoppedExit hs1 hfree2 hhalted1 ((hended _).trans hview)

lemma moves_onSummarized (h : Sound m ((o.tenure t).sent .summary)) (facts err) :
    Moves m t o.view (o.onSummarized t facts err).view := by
  obtain ⟨hprep, -, hnone, hstate⟩ := h.came_summary
  obtain ⟨hmoves, htenure⟩ := moves_modify
    (f := fun r =>
      { r with
        pending := r.pending - 1, summarizing := false, summarized := true
        attemptFacts := if err.isSome then r.attemptFacts else facts
        attemptFactsRead := if err.isSome then r.attemptFactsRead else true })
    (fun p => { p with pending := p.pending - 1, summarizing := false, summarized := true })
    ((h.came_awaited (by decide) rfl).summarised hnone) id rfl
  unfold onSummarized
  dsimp only
  generalize o.modify t _ = o1 at hmoves htenure ⊢
  have hs : Sound m (o1.tenure t) := hmoves.sound
  refine hmoves.trans (moves_ite (fun _ => moves_finishIfRequested hs) fun _ => ?_)
  refine moves_ite (fun hsusp => moves_endAttemptSuspended hs hsusp ?_) fun hsusp => ?_
  · rw [htenure]
    exact hnone
  have hawake : (o1.tenure t).phase.suspended = false := Bool.eq_false_of_not_eq_true hsusp
  rw [htenure] at hawake
  refine moves_resumeAfterAccount hs ?_ ?_ <;> rw [htenure]
  exact ⟨hprep, hstate, hawake, fun hm ho => h.leaving_of_summary hm ho⟩

end Orchestrator

end Ben
