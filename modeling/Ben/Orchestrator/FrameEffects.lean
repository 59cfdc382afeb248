import Ben.Orchestrator.Frame

/-!
# What owing an effect changes

Owing and driving an effect is not seen by the view of the tenures, unless the effect is an
exit, relies on a workspace being free, or treats the work as published.  What relies on a free
workspace is not seen either as long as nothing of the tenure's runs is left.
-/

namespace Ben

variable [Platform]

namespace Orchestrator

variable {o : Orchestrator} {t : Token}

/-! ## Driving and owing -/

/-- Queueing an exit that is owed anyway is not seen. -/
lemma exitOwed_enqueue {eff} (heff : eff ∈ (o.heap t).owed) (t') :
    (o.enqueue (.owed (o.tag t) eff)).1.ExitOwed t' = o.ExitOwed t' := by
  unfold enqueue
  split
  · apply propext
    constructor
    · rintro (h | ⟨job, hjob, hexit⟩ | h)
      · exact .inl h
      · rcases List.mem_append.1 hjob with hjob | hjob
        · exact .inr (.inl ⟨job, hjob, hexit⟩)
        · rw [List.mem_singleton.1 hjob] at hexit
          simp only [Job.exits, tag, Bool.and_eq_true, beq_iff_eq] at hexit
          obtain ⟨rfl, hexit⟩ := hexit
          exact .inl ⟨eff, heff, hexit⟩
      · exact .inr (.inr h)
    · rintro (h | ⟨job, hjob, hexit⟩ | h)
      · exact .inl h
      · exact .inr (.inl ⟨job, List.mem_append_left _ hjob, hexit⟩)
      · exact .inr (.inr h)
  · rfl

lemma view_enqueue {eff} (heff : eff ∈ (o.heap t).owed) :
    (o.enqueue (.owed (o.tag t) eff)).1.view = o.view := by
  have hsame : (o.enqueue (.owed (o.tag t) eff)).1.nextToken = o.nextToken ∧
      (o.enqueue (.owed (o.tag t) eff)).1.records = o.records ∧
      ∀ t', (o.enqueue (.owed (o.tag t) eff)).1.tenure t' =
        { o.tenure t' with exits := (o.enqueue (.owed (o.tag t) eff)).1.ExitOwed t' } := by
    unfold enqueue
    split <;> exact ⟨rfl, rfl, fun _ => rfl⟩
  refine view_congr hsame.1 hsame.2.1 fun t' => ?_
  rw [hsame.2.2 t', exitOwed_enqueue heff t']
  rfl

/-- Nothing is left running in a state with the same view. -/
lemma Free.of_view {o' : Orchestrator} (hfree : o.Free t) (hview : o'.view = o.view) :
    o'.Free t := by
  have hlive := congrArg (fun V : View => (V.tenure t).past.live) hview
  exact hlive.trans hfree

section

variable (o)

@[simp] lemma view_driveOwed (t) : (o.driveOwed t).view = o.view := by
  unfold driveOwed
  dsimp only
  split
  · rfl
  · split
    · rfl
    · rename_i eff rest howed
      split
      · rfl
      · rw [view_modify_of_phase rfl]
        exact view_enqueue (by simp [howed])

/-- Owing an effect is seen as far as it is an exit and as far as the history tells it. -/
lemma view_oweEffect (t) (eff : OwedEffect) : (o.oweEffect t eff).view = o.view.set t
      { o.tenure t with
        past := past t (.owes t eff :: o.trace)
        exits := o.ExitOwed t ∨ isExit eff.what = true } := by
  unfold oweEffect
  rw [view_driveOwed]
  refine view_eq_set rfl rfl ?_ fun t' ht' => ?_
  · simp only [tenure, note, modify, ExitOwed, Function.update_self, List.mem_append,
      List.mem_singleton, or_and_right, exists_or, exists_eq_left]
    congr 1
    exact propext or_right_comm
  · have hconcerns : (Act.owes t eff).concerns t' = false := by
      simp [Ne.symm ht']
    simp only [tenure, note, modify, ExitOwed, Function.update_of_ne ht',
      past_cons_of_not_concerns _ hconcerns]
    rfl

/-- An effect that is no exit, relies on nothing and publishes nothing is owed unseen. -/
lemma view_oweEffect_side (t) {eff : OwedEffect}
    (hexit : isExit eff.what = false) (hconcerns : (Act.owes t eff).concerns t = false) :
    (o.oweEffect t eff).view = o.view := by
  rw [view_oweEffect, past_cons_of_not_concerns _ hconcerns]
  simp only [hexit, Bool.false_eq_true, or_false]
  exact View.set_self o.view t

/-! ## Helpers that are not seen -/

omit [Platform] in
lemma isExit_project (l) : isExit ("project " ++ labelName l) = false := by
  cases l <;> decide

omit [Platform] in
lemma isExit_comment (m : Milestone) : isExit ("comment " ++ m.name) = false := by
  cases m <;> decide

/-- A state-label projection is owed unseen. -/
lemma view_oweProjection (t) {what} (issue label) (hwhat : isExit what = false) :
    (o.oweProjection t what (.setStateLabels issue label)).view = o.view :=
  view_oweEffect_side o t hwhat (by simp)

/-- A milestone other than the published one is owed unseen. -/
lemma view_comment (t) {c : MilestoneComment} (hc : c.milestone ≠ .published) :
    (o.comment t c).view = o.view :=
  view_oweEffect_side o t (isExit_comment _) (by simp [hc])

@[simp] lemma view_abandonPendingClaimBase (t) : (o.abandonPendingClaimBase t).view = o.view := by
  refine view_guard fun _ => (view_oweEffect_side _ t rfl (by simp)).trans ?_
  exact view_modify_of_phase rfl

@[simp] lemma view_attemptEnded (t) : (o.attemptEnded t).view = o.view := by
  refine view_guard fun _ => ?_
  have hfired := view_modify_of_phase (o := o) (t := t)
    (f := fun r => { r with afterRunFired := true }) rfl
  exact view_ite (fun _ => hfired) fun _ => (view_oweEffect_side _ t rfl (by simp)).trans hfired

@[simp] lemma view_recordAttempt (t reason verdict) :
    (o.recordAttempt t reason verdict).view = o.view :=
  view_guard fun _ =>
    (view_note_side _ fun _ => rfl).trans (view_modify_of_phase rfl)

@[simp] lemma view_oweEndedCycle (id workspaces ws why) :
    (o.oweEndedCycle id workspaces ws why).view = o.view := by
  unfold oweEndedCycle
  dsimp only
  split
  · rfl
  · split <;> rfl

/-! ## Relying on a free workspace -/

/-- With nothing left running, relying on it is not seen. -/
lemma view_note_relies {a}
    (ha : a = .routed t ∨ a = .freesMarker t ∨ a = .endsCycle t) (hfree : o.Free t) :
    (o.note a).view = o.view := by
  rw [view_note o t (by rcases ha with rfl | rfl | rfl <;> intro t' ht' <;>
    simp [Ne.symm ht'])]
  have hpast : past t (a :: o.trace) = past t o.trace := by
    rw [past_cons]
    rcases ha with rfl | rfl | rfl <;>
      simp [past, show live t o.trace = [] from hfree]
  rw [hpast]
  exact View.set_self o.view t

/-- With nothing left running, a disposal that publishes nothing is owed unseen. -/
lemma view_owe_disposal {ws does}
    (hdoes : (∃ keep, does = .disposeRevoked ws keep) ∨ does = .completeFailure ws ∨
      does = .completeShutdown ws) (hfree : o.Free t) :
    (o.owe t "dispose workspace" .localSide does).view = o.view := by
  unfold owe
  rw [view_oweEffect]
  have hpast : past t (.owes t ⟨"dispose workspace", .localSide, false, does⟩ :: o.trace) =
      past t o.trace := by
    rw [past_cons]
    rcases hdoes with ⟨keep, rfl⟩ | rfl | rfl <;>
      simp [past, show live t o.trace = [] from hfree]
  have hexit : isExit "dispose workspace" = false := by decide
  simp only [hpast, hexit, Bool.false_eq_true, or_false]
  exact View.set_self o.view t

lemma view_oweDisposal {complete : Workspace → Effect}
    (hdoes : ∀ ws, (∃ keep, complete ws = .disposeRevoked ws keep) ∨
      complete ws = .completeFailure ws ∨ complete ws = .completeShutdown ws)
    (hfree : o.Free t) : (o.oweDisposal t complete).view = o.view :=
  view_guard fun _ =>
    (view_owe_disposal _ (hdoes _) (by exact hfree)).trans (view_modify_of_phase rfl)

lemma view_completeFailure (hfree : o.Free t) : (o.completeFailure t).view = o.view :=
  view_guard fun _ => view_oweDisposal o (fun _ => .inr (.inl rfl)) hfree

lemma view_completeShutdown (hfree : o.Free t) : (o.completeShutdown t).view = o.view :=
  view_guard fun _ => view_oweDisposal o (fun _ => .inr (.inr rfl)) hfree

lemma view_oweRemoteRevocation (hfree : o.Free t) : (o.oweRemoteRevocation t).1.view = o.view := by
  have hcycle : (o.oweEndedCycle (o.heap t).issue.identifier o.bundle.workspaces
      (o.heap t).workspace "claim revoked by tracker state").view = o.view :=
    view_oweEndedCycle _ _ _ _ _
  exact (view_note_relies _ (.inr (.inr rfl)) (hfree.of_view hcycle)).trans hcycle

lemma view_disposeRevoked (keep : Bool) (hfree : o.Free t) :
    (o.disposeRevoked t keep).view = o.view := by
  have hrevoked := view_oweRemoteRevocation o hfree
  unfold disposeRevoked
  dsimp only
  split
  · exact hrevoked
  · exact (view_oweDisposal _ (fun ws => .inl ⟨keep, rfl⟩) (hfree.of_view hrevoked)).trans hrevoked

/-! ## Removing run markers -/

@[simp] lemma view_driveMarkerClear (p) : (o.driveMarkerClear p).view = o.view :=
  view_guard fun _ => view_spawn_side _ rfl fun _ => rfl

@[simp] lemma view_driveMarkerClears : o.driveMarkerClears.view = o.view := by
  refine view_foldl (fun o p => ?_) _ _
  split
  · rfl
  · exact view_driveMarkerClear _ _

@[simp] lemma view_clearMarkerWith (root issue) : (o.clearMarkerWith root issue).view = o.view := by
  unfold clearMarkerWith
  rw [view_driveMarkerClears]
  unfold rememberPendingClear
  split <;> rfl

/-- With nothing left running, freeing the workspace is not seen. -/
lemma view_freeWorkspaceMarker (hfree : o.Free t) : (o.freeWorkspaceMarker t).view = o.view := by
  unfold freeWorkspaceMarker
  rw [view_clearMarkerWith]
  exact view_note_relies o (.inr (.inl rfl)) hfree

@[simp] lemma view_onMarkerCleared (serial : Nat) (err) :
    (o.onMarkerCleared serial err).view = o.view := by
  unfold onMarkerCleared
  split
  · exact view_driveMarkerClears o
  · dsimp only
    split
    · exact view_driveMarkerClears _
    · split
      · rfl
      · exact view_driveMarkerClears _

/-! ## Moving -/

/-- A move happens exactly when the map allows it. -/
@[simp] lemma transitionCaused_snd (t next reason cause) :
    (o.transitionCaused t next reason cause).2 = allowed (o.heap t).state next := by
  unfold transitionCaused
  dsimp only
  split
  · simp_all
  · split <;> simp_all

end

/-- A move that the map does not allow does nothing. -/
lemma transitionCaused_of_not_allowed {next} (h : allowed (o.heap t).state next = false)
    (reason cause) :
    (o.transitionCaused t next reason cause).1 = o := by
  simp [transitionCaused, h]

omit [Platform] in
lemma isExit_transition (s next : State) :
    isExit (if s = .queued ∧ next = .claimed then effectClaimLabel
      else "project " ++ labelName (stateLabel next)) = false := by
  split
  · decide
  · exact isExit_project _

/-- A move changes the state, and is in the history. -/
lemma view_transitionCaused {next : State} (h : allowed (o.heap t).state next)
    (reason : String) (cause : FailureReason) :
    ∃ entry : TransitionEntry, entry.target = next ∧
      (o.transitionCaused t next reason cause).1.view = o.view.set t
        { o.tenure t with
          phase := { (o.heap t).phase with state := next }
          past := past t (.entered t entry :: o.trace) } := by
  refine ⟨{ at_ := o.now, issue := (o.heap t).issue.identifier, source := (o.heap t).state
            target := next, reason := reason, runID := (o.heap t).runID
            failureReason := cause }, rfl, ?_⟩
  have hmoved : ((o.modify t fun r => { r with state := next }).note (.entered t
      { at_ := o.now, issue := (o.heap t).issue.identifier, source := (o.heap t).state
        target := next, reason := reason, runID := (o.heap t).runID
        failureReason := cause })).view = o.view.set t
        { o.tenure t with
          phase := { (o.heap t).phase with state := next }
          past := past t (.entered t
            { at_ := o.now, issue := (o.heap t).issue.identifier, source := (o.heap t).state
              target := next, reason := reason, runID := (o.heap t).runID
              failureReason := cause } :: o.trace) } := by
    rw [view_note _ t (by intro t' ht'; simp [Ne.symm ht']),
      view_modify _ _ _ rfl rfl, View.set_set, ← view_tenure (o.modify _ _),
      view_modify _ _ _ rfl rfl, View.set_tenure_self]
    rfl
  unfold transitionCaused
  simp only [h, Bool.not_true, Bool.false_eq_true, if_false]
  split
  · exact hmoved
  · exact (view_oweProjection _ _ _ _ (isExit_transition _ _)).trans hmoved

/-- A move elsewhere than into done changes the state and nothing else. -/
lemma view_transitionCaused_of_ne_done {next} (h : allowed (o.heap t).state next)
    (hdone : next ≠ .done) (reason cause) :
    (o.transitionCaused t next reason cause).1.view = o.view.update t fun v =>
      { v with phase := { v.phase with state := next } } := by
  obtain ⟨entry, htarget, hview⟩ := view_transitionCaused h reason cause
  rw [hview, past_cons_of_not_concerns]
  · rfl
  · simp [htarget, hdone]

end Orchestrator

end Ben
