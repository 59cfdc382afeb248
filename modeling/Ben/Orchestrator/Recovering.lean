import Ben.Orchestrator.Turns
import Ben.Orchestrator.Evidence
import Ben.Orchestrator.Acts

/-!
# Recovered claims

A verdict of recovery begins a tenure, with its record in the state the verdict calls for, or ends
one.  Here every verdict is shown to leave the tenures sound, at startup and for claims that are
classified later, and so are the reservations of the sweep.
-/

namespace Ben

variable [Platform]

section

variable {m : Mode} {v : Tenure} (h : Sound m v)

include h

/-- A recovered claim may have an epoch fault on record. -/
lemma Sound.setFault (hd : v.phase.claimBaseDispatch = false) (b : Bool) :
    Sound m { v with phase := { v.phase with epochFaulted := b } } :=
  { h with dispatching := fun hd' => nomatch hd.symm.trans hd' }

/-- A recovered claim that has to wait needs another verdict. -/
lemma Sound.unclassify (hstate : v.phase.state = .queued) (hver : v.phase.claimVerified = false)
    (hclaims : v.out.claims v.gen = 0) :
    Sound m { v with phase := { v.phase with unclassified := true } } :=
  { h with
    claiming := fun hc => absurd hc hclaims.not_gt
    unclassified := fun _ => ⟨hstate, hver⟩
    reserved := fun _ _ => rfl
    published := fun hp => ⟨(h.published hp).1, (h.published hp).2.1, .inr rfl⟩ }

/-- The claim of a recovered record is verified by its assignment. -/
lemma Sound.verifyRecovered (hq : ¬ m.queued) (hclaims : v.out.claims v.gen = 0)
    (hun : v.phase.unclassified = false) (hspare : m.rationed → v.Spare m.limits) :
    Sound m { v with phase := { v.phase with claimVerified := true } } :=
  { h with
    claiming := fun hc => absurd hc hclaims.not_gt
    approving := fun _ => rfl
    basing := fun _ _ => rfl
    unclassified := fun hu => nomatch hun.symm.trans hu
    queued := fun hm => absurd hm hq
    rationed := fun hm =>
      have hr := h.rationed hm
      hr.of_counts rfl (fun _ => hspare hm) hr.2.2.2.2.2.2.1 hr.2.2.2.2.2.2.2 }

end

namespace Orchestrator

variable {m : Mode} {o : Orchestrator} {t : Token}

/-! ## Projections -/

/-- The label and the milestone of a verdict that does not publish are owed unseen. -/
lemma view_projectRecovery (o : Orchestrator) (t facts) {v : RecoveryVerdict}
    (hv : v.milestone ≠ .published) :
    (o.projectRecovery t facts v).view = o.view := by
  have hcomment : (recoveryComment facts v).milestone ≠ .published := by
    unfold recoveryComment
    split
    · rename_i hm
      exact absurd hm hv
    · split <;> simp
    · simp
    · exact hv
  unfold projectRecovery
  refine view_ite (fun _ => rfl) fun _ => ?_
  have hlabel : (o.oweProjection t ("project " ++ labelName v.stateLabel)
      (.setStateLabels (o.heap t).issue v.stateLabel)).view = o.view :=
    view_oweProjection _ _ _ _ (isExit_project _)
  dsimp only
  refine view_ite (fun _ => hlabel) fun _ => ?_
  rw [view_comment _ _ hcomment]
  split
  · exact (view_modify_of_phase rfl).trans hlabel
  · exact hlabel

/-- The milestone of published work is owed on the verifier's word. -/
lemma moves_projectRecovery (hs : Sound m (o.tenure t)) (facts) {v : RecoveryVerdict}
    (hpub : v.milestone = .published → (o.tenure t).Publishable m) :
    Moves m t o.view (o.projectRecovery t facts v).view ∧
      ((o.projectRecovery t facts v).tenure t).phase = (o.tenure t).phase ∧
      ((o.tenure t).Publishable m → ((o.projectRecovery t facts v).tenure t).Publishable m) := by
  by_cases hm : v.milestone = .published
  · unfold projectRecovery
    by_cases hproject : v.project
    · have hlabel : (o.oweProjection t ("project " ++ labelName v.stateLabel)
          (.setStateLabels (o.heap t).issue v.stateLabel)).view = o.view :=
        view_oweProjection _ _ _ _ (isExit_project _)
      simp only [hproject, Bool.not_true, Bool.false_eq_true, if_false, hm, reduceCtorEq]
      generalize o.oweProjection t _ _ = o1 at hlabel ⊢
      have htenure := tenure_of_view hlabel t
      have hmile : (recoveryComment facts v).milestone = .published := by
        unfold recoveryComment
        simp only [hm]
      rw [← hlabel, ← htenure]
      obtain ⟨hmoves, hphase, hp⟩ := moves_owe_published (o := o1) (t := t) (m := m)
        ⟨"comment " ++ (recoveryComment facts v).milestone.name, .tracker, false,
          .comment (o1.heap t).issue (recoveryComment facts v)⟩ (htenure ▸ hs)
        (htenure ▸ hpub hm) (isExit_comment _) (by simp [hmile])
        (by simp [Act.publishedWorkspace]) (by simp)
      exact ⟨hmoves, hphase, fun _ => hp⟩
    · simp only [Bool.eq_false_of_not_eq_true hproject, Bool.not_false, if_true]
      exact ⟨.of_eq rfl hs, trivial, id⟩
  · have hview := view_projectRecovery o t facts hm
    refine ⟨.of_eq hview hs, ?_, ?_⟩ <;> rw [tenure_of_view hview t]
    exact id

/-! ## Adopting -/

/-- The record a verdict begins with. -/
def recoveredRecord (issue : Issue) (facts : RecoveryFacts) (v : RecoveryVerdict) (cur : Snapshot)
    (state : State) : Record :=
  { issue := issue, state := state, workspace := facts.workspace, prURL := facts.verify.prURL
    definition := cur.definition, attempt := v.attemptFloor, claimEpoch := v.cycleAnchor
    recovered := true
    attemptBase := if v.attemptFloor ≥ 2 then v.attemptFloor - 1 else 0 }

lemma adoptRecovered_eq (o : Orchestrator) (issue facts v cur state) :
    ∃ entry : TransitionEntry, entry.target = state ∧
      o.adoptRecovered issue facts v cur state =
        ((o.adopt (recoveredRecord issue facts v cur state)).note
          (.entered o.fresh entry), o.fresh) :=
  ⟨_, rfl, rfl⟩

/-- A recovered record begins before any attempt, parked or finished. -/
lemma initial_recoveredRecord (issue facts) (v : RecoveryVerdict) (cur) {state}
    (hstate : state = .queued ∨ state = .needsReview ∨ state = .done) (hfloor : v.Floored) :
    (recoveredRecord issue facts v cur state).phase.Initial := by
  refine ⟨rfl, rfl, rfl, rfl, rfl, rfl, rfl, le_refl _, rfl, hstate, nofun, rfl, ?_, rfl, rfl⟩
  have hpos := hfloor.1
  simp only [Record.phase, recoveredRecord]
  split <;> omega

/-- The claim can be taken over: its issue has a name, nothing is running for it, and the sweep
does not hold it. -/
structure Recoverable (o : Orchestrator) (issue : Issue) : Prop where
  named : issue.identifier ≠ ""
  idle : ∀ t, o.Has issue.identifier t → (o.tenure t).Idle
  free : issue.identifier ∉ o.sweepDisposing

/-- What is known of a tenure that recovery began. -/
structure Recovered (m : Mode) (o o' : Orchestrator) (r : Record) : Prop where
  keeps : Keeps m o.view o'.view
  slots : o'.view.slots ≤ o.view.slots
  phase : (o'.tenure o.fresh).phase = r.phase
  attached : (o'.tenure o.fresh).attached
  claims : (o'.tenure o.fresh).out.claims (o'.tenure o.fresh).gen = 0
  starts : (o'.tenure o.fresh).past.starts = 0
  overrun : ∀ cap, ¬ (o'.tenure o.fresh).past.overrun cap
  certified : (o'.tenure o.fresh).past.certified =
    (o.tenure o.fresh).past.certified

lemma Recovered.sound {r} (h : Recovered m o o' r) : Sound m (o'.tenure o.fresh) :=
  h.keeps.good.sound _

/-- A recovered claim begins before any attempt or parked. -/
lemma recovered_adopt (h : Good m o.view) {issue} (hrec : o.Recoverable issue)
    (facts : RecoveryFacts) (v : RecoveryVerdict) (cur state)
    (hstate : state = .queued ∨ state = .needsReview ∨ state = .done)
    (hdone : state = .done → facts.workspace.claimEpoch = v.cycleAnchor ∧ 0 < v.cycleAnchor)
    (hfloor : v.Floored) :
    Recovered m o (o.adopt (recoveredRecord issue facts v cur state))
      (recoveredRecord issue facts v cur state) := by
  have hblank : (o.tenure o.fresh).Blank := h.blank _ (Nat.lt_succ_self _)
  have hnew := tenure_adopt_new o (recoveredRecord issue facts v cur state) rfl hblank.exits
  have hbound : (recoveredRecord issue facts v cur state).phase.bound = false := by
    rcases hstate with rfl | rfl | rfl <;> rfl
  have hkeeps := keeps_adopt h (initial_recoveredRecord issue facts v cur hstate hfloor) rfl
    hrec.named hrec.idle (fun hr => absurd hr hrec.free) hdone
    fun _ hb => nomatch hbound.symm.trans hb
  refine ⟨hkeeps, ?_, ?_, ?_, ?_, ?_, ?_, ?_⟩
  · have hle := slots_adopt_le h (r := recoveredRecord issue facts v cur state) rfl
    simpa [hbound] using hle
  all_goals rw [hnew]
  · trivial
  · exact (hblank.untouched _).claims
  · exact hblank.starts
  · exact hblank.overrun

/-- Recording that a claim was recovered into a state other than done is not seen. -/
lemma view_note_entered (o : Orchestrator) (t) (entry : TransitionEntry)
    (hdone : entry.target ≠ .done) : (o.note (.entered t entry)).view = o.view :=
  view_note_side _ fun t' => by simp [hdone]

lemma recovered_adoptRecovered (h : Good m o.view) {issue} (hrec : o.Recoverable issue) (facts)
    (v : RecoveryVerdict) (cur) {state} (hstate : state = .queued ∨ state = .needsReview)
    (hfloor : v.Floored) :
    ∃ o', o.adoptRecovered issue facts v cur state = (o', o.fresh) ∧
      Recovered m o o' (recoveredRecord issue facts v cur state) := by
  obtain ⟨entry, htarget, heq⟩ := adoptRecovered_eq o issue facts v cur state
  have hne : entry.target ≠ .done := by
    rw [htarget]
    rcases hstate with rfl | rfl <;> decide
  have hadopt := recovered_adopt h hrec facts v cur state
    (hstate.imp id .inl) (fun hd => by rcases hstate with rfl | rfl <;> cases hd) hfloor
  refine ⟨_, heq, ?_⟩
  have hview := view_note_entered (o.adopt (recoveredRecord issue facts v cur state))
    o.fresh entry hne
  generalize (o.adopt (recoveredRecord issue facts v cur state)).note _ = o' at hview ⊢
  have htenure := tenure_of_view hview o.fresh
  refine ⟨hview ▸ hadopt.keeps, hview ▸ hadopt.slots, ?_, ?_, ?_, ?_, ?_, ?_⟩ <;> rw [htenure]
  · exact hadopt.phase
  · exact hadopt.attached
  · exact hadopt.claims
  · exact hadopt.starts
  · exact hadopt.overrun
  · exact hadopt.certified

/-! ## Applying a verdict -/

/-- Work on the tenure recovery has begun. -/
lemma Recovered.then {o' o'' : Orchestrator} {r} (h : Recovered m o o' r)
    (hmoves : Moves m o.fresh o'.view o''.view) : Keeps m o.view o''.view :=
  h.keeps.trans (keeps_of_moves h.keeps.good h.attached hmoves)

/-- The verifier's word a verdict rests on. -/
def Backed (o : Orchestrator) (issue : Issue) (facts : RecoveryFacts) (v : RecoveryVerdict) :
    Prop :=
  v.action = .hold ∨ v.milestone = .published →
    Certified issue.identifier facts.workspace o.trace ∧
      facts.workspace.claimEpoch = v.cycleAnchor ∧ 0 < v.cycleAnchor ∧
      (v.action = .hold ∨ v.action = .wait)

variable {issue : Issue} {facts : RecoveryFacts} {v : RecoveryVerdict}

/-- Any other verdict owes no published milestone. -/
lemma Backed.unpublished (hb : o.Backed issue facts v) (hhold : v.action ≠ .hold)
    (hwait : v.action ≠ .wait) : v.milestone ≠ .published := fun hm =>
  (hb (.inr hm)).2.2.2.elim hhold hwait

lemma keeps_adoptUnclassified (h : Good m o.view) (hname : issue.identifier ≠ "")
    (hidle : ∀ t, o.Has issue.identifier t → (o.tenure t).Idle) (cur) :
    Keeps m o.view (o.adoptUnclassified issue cur).view :=
  keeps_adopt h ⟨rfl, rfl, rfl, rfl, rfl, rfl, rfl, le_refl _, rfl, .inl rfl, fun _ => ⟨rfl, rfl⟩,
    rfl, ⟨le_refl _, le_refl _⟩, rfl, rfl⟩ rfl hname hidle (fun _ => rfl) nofun
    fun _ hb => by simp [Phase.bound, Record.phase] at hb

/-- Putting a recovered record into the table in another state changes only the state. -/
lemma view_adopt_state (h : Good m o.view) (facts) (v : RecoveryVerdict) (cur issue state state') :
    (o.adopt (recoveredRecord issue facts v cur state')).view =
      (o.adopt (recoveredRecord issue facts v cur state)).view.update o.fresh fun v =>
        { v with phase := { v.phase with state := state' } } := by
  have hexits := (h.blank o.fresh (Nat.lt_succ_self _)).exits
  refine view_eq_set rfl rfl ?_ fun t ht => ?_
  · rw [view_tenure, tenure_adopt_new _ _ rfl hexits, tenure_adopt_new _ _ rfl hexits]
    rfl
  · rw [tenure_adopt_of_ne _ _ ht, tenure_adopt_of_ne _ _ ht]
    rfl

section

variable (h : Good m o.view) (hrec : o.Recoverable issue) (hb : o.Backed issue facts v)
  (hfloor : v.Floored) (cur : Snapshot)

include h hrec hb hfloor

lemma keeps_recover_wait (hv : v.action = .wait) :
    Keeps m o.view (o.applyRecovery issue facts v cur).view := by
  obtain ⟨o1, heq, hadopt⟩ := recovered_adoptRecovered h hrec facts v cur (.inl rfl) hfloor
  simp only [applyRecovery, hv, heq]
  have hs := hadopt.sound
  obtain ⟨hmoves, htenure⟩ := moves_modify (o := o1) (t := o.fresh) (m := m)
    (f := fun r => { r with unclassified := true }) (fun p => { p with unclassified := true })
    (hs.unclassify (by rw [hadopt.phase]; rfl) (by rw [hadopt.phase]; rfl) hadopt.claims) id rfl
  refine hadopt.then (hmoves.trans (moves_projectRecovery hmoves.sound facts fun hm => ?_).1)
  obtain ⟨hcert, hepoch, hpos, -⟩ := hb (.inr hm)
  rw [htenure]
  refine ⟨.inr rfl, ?_, ?_⟩
  · change (o1.tenure o.fresh).past.certified _ _
    rw [hadopt.certified, hadopt.phase]
    exact hcert
  · simp only [hadopt.phase]
    exact ⟨fun _ => hepoch, hpos⟩

lemma keeps_recover_approve (hq : ¬ m.queued) (hv : v.action = .approve)
    (hslot : m.capped → (o.view.slots : Int) < m.cap) :
    Keeps m o.view (o.applyRecovery issue facts v cur).view := by
  obtain ⟨o1, heq, hadopt⟩ := recovered_adoptRecovered h hrec facts v cur (.inl rfl) hfloor
  simp only [applyRecovery, hv, heq]
  have hs := hadopt.sound
  have hview := view_phase o1 o.fresh (fun r => { r with claimVerified := true })
    (fun p => { p with claimVerified := true }) rfl
  have hmoves : Moves m o.fresh o1.view
      (o1.modify o.fresh fun r => { r with claimVerified := true }).view := by
    refine .of_slot hadopt.keeps.good.keyed (fun hc => .inr ?_) hview
      (hs.verifyRecovered hq hadopt.claims (by rw [hadopt.phase]; rfl) fun hm => ?_) rfl
    · exact lt_of_le_of_lt (Int.ofNat_le.2 hadopt.slots) (hslot hc)
    · have hlimit := (m.rations hm).1
      have hfirst := hfloor.2 hv
      simp only [Tenure.Spare, hadopt.starts, hadopt.phase, Record.phase, recoveredRecord]
      split <;> omega
  have hver : ((o1.modify o.fresh fun r => { r with claimVerified := true }).heap
      o.fresh).claimVerified := by simp
  generalize o1.modify o.fresh _ = o2 at hmoves hver ⊢
  have hproject := view_projectRecovery o2 o.fresh facts
    (hb.unpublished (by simp [hv]) (by simp [hv]))
  have hs2 : Sound m (o2.tenure o.fresh) := hmoves.sound
  refine hadopt.then (hmoves.trans ?_)
  generalize o2.projectRecovery o.fresh facts v = o3 at hproject ⊢
  have htenure := tenure_of_view hproject o.fresh
  rw [← hproject]
  refine moves_beginApproval (htenure ▸ hs2) ?_
  exact (congrArg (fun v : Tenure => v.phase.claimVerified) htenure).trans hver

/-- An orphan that may have work on its branch waits for another attempt. -/
lemma keeps_recover_backoff (hv : v.action = .backoff) :
    Keeps m o.view (o.applyRecovery issue facts v cur).view := by
  obtain ⟨entry, htarget, heq⟩ := adoptRecovered_eq o issue facts v cur .claimed
  -- the record passes through two states in one turn, seen from the one it would begin in
  have hadopt := recovered_adopt h hrec facts v cur .queued (.inl rfl) nofun hfloor
  have hview := view_adopt_state h facts v cur issue .queued .claimed
  rw [← view_note_entered _ o.fresh entry (by rw [htarget]; decide),
    ← view_projectRecovery _ o.fresh facts
      (hb.unpublished (by simp [hv]) (by simp [hv]))] at hview
  simp only [applyRecovery, hv, heq]
  generalize ((o.adopt (recoveredRecord issue facts v cur .claimed)).note _).projectRecovery
    o.fresh facts v = o2 at hview ⊢
  generalize o.adopt (recoveredRecord issue facts v cur .queued) = o1 at hadopt hview
  have hs := hadopt.sound
  have hstate : (o1.tenure o.fresh).phase.state = .queued := by
    rw [hadopt.phase]
    rfl
  have hset : (o1.tenure o.fresh).Settled :=
    hs.settled_of_unprepared (hs.fresh (.inl hstate)) (Nat.eq_zero_of_not_pos fun ht => by
      rcases (hs.timer ht).2.state with ⟨hw, -⟩ | hw <;> simp [hstate] at hw)
      hadopt.claims (by rw [hadopt.phase]; rfl)
  have hclaimed : (o2.heap o.fresh).state = .claimed :=
    congrArg (fun v : Tenure => v.phase.state) (tenure_of_update hview)
  have hallowed : allowed (o2.heap o.fresh).state .preparing := by
    rw [hclaimed]
    rfl
  have hmoved := View.update_comp hview (view_transitionCaused_of_ne_done hallowed (by decide)
    "recovered orphan: resuming the failure track" .none)
  unfold resumeRecoveredBackoff transition
  simp only [transitionCaused_snd, hallowed]
  generalize (o2.transitionCaused o.fresh _ _ _).1 = o3 at hmoved ⊢
  have hpreparing : (o3.heap o.fresh).state = .preparing :=
    congrArg (fun v : Tenure => v.phase.state) (tenure_of_update hmoved)
  have hend := View.update_comp hmoved (view_enterBackoff (o := o3) (t := o.fresh)
    (by rw [hpreparing]; rfl)
    "recovered orphan: work may already exist on the branch (SPEC §9.10)" .none)
  refine hadopt.then (.of_set hend (hs.nextAttempt hset (by simp [hstate]) _ (.inl ⟨rfl, ?_⟩)
    (fun hm => ⟨fun _ => ?_, nofun⟩) fun _ ho => absurd ho (hadopt.overrun _)) rfl
    fun hbound => by simp [Phase.bound] at hbound)
  · rw [hadopt.phase]
    rfl
  · have hlimit := (m.rations hm).1
    simpa [hadopt.starts, hadopt.phase, Record.phase, recoveredRecord] using hlimit

lemma keeps_recover_park (hv : v.action = .park) :
    Keeps m o.view (o.applyRecovery issue facts v cur).view := by
  obtain ⟨o1, heq, hadopt⟩ := recovered_adoptRecovered h hrec facts v cur (.inr rfl) hfloor
  simp only [applyRecovery, hv, heq]
  have hs := hadopt.sound
  rw [view_projectRecovery _ _ _ (hb.unpublished (by simp [hv]) (by simp [hv]))]
  exact hadopt.then (moves_modify (fun p => { p with epochFaulted := v.epochFault })
    (hs.setFault (by rw [hadopt.phase]; rfl) _) id (by rfl)).1

/-- A claim that is given up: its projections are owed, then its release. -/
lemma keeps_recover_release (hv : v.action = .releaseKeep ∨ v.action = .releaseDispose) :
    Keeps m o.view (o.applyRecovery issue facts v cur).view := by
  obtain ⟨o1, heq, hadopt⟩ := recovered_adoptRecovered h hrec facts v cur (.inl rfl) hfloor
  have hunpub : v.milestone ≠ .published := by
    rcases hv with hv | hv <;> exact hb.unpublished (by simp [hv]) (by simp [hv])
  have hs := hadopt.sound
  have hidle : (o1.tenure o.fresh).Idle := hs.idle_of_state (s := .queued)
    (by rw [hadopt.phase]; rfl) rfl
  have hbefore : ((o1.projectRecovery o.fresh facts v).abandonPendingClaimBase
      o.fresh).view = o1.view := by
    rw [view_abandonPendingClaimBase, view_projectRecovery _ _ _ hunpub]
  have hrelease : ∀ {o2 : Orchestrator} why, o2.view = o1.view →
      Keeps m o.view (o2.release o.fresh why).view := fun {o2} why hview => by
    have htenure := tenure_of_view hview o.fresh
    have hmoves := moves_release (o := o2) (t := o.fresh) (m := m) (htenure ▸ hs)
      (htenure ▸ hidle) why
    rw [hview] at hmoves
    exact hadopt.then hmoves
  have hfree : ((o1.projectRecovery o.fresh facts v).abandonPendingClaimBase
      o.fresh).Free o.fresh := Free.of_view (o := o1) hidle.2.2 hbefore
  rcases hv with hv | hv <;> simp only [applyRecovery, hv, heq]
  · exact hrelease _ ((view_oweRemoteRevocation _ hfree).trans hbefore)
  · exact hrelease _ ((view_disposeRevoked _ _ hfree).trans hbefore)

/-- Finished work is taken over on the verifier's word. -/
lemma keeps_recover_hold (hv : v.action = .hold) :
    Keeps m o.view (o.applyRecovery issue facts v cur).view := by
  obtain ⟨hcert, hepoch, hpos, -⟩ := hb (.inl hv)
  obtain ⟨entry, htarget, heq⟩ := adoptRecovered_eq o issue facts v cur .done
  have hadopt := recovered_adopt h hrec facts v cur .done (.inr (.inr rfl))
    (fun _ => ⟨hepoch, hpos⟩) hfloor
  simp only [applyRecovery, hv, heq, view_driveHold]
  generalize o.adopt (recoveredRecord issue facts v cur .done) = o1 at hadopt ⊢
  have hs := hadopt.sound
  have hcert1 : (o1.tenure o.fresh).past.certified
      (o1.tenure o.fresh).phase.id (o1.tenure o.fresh).phase.workspace := by
    rw [hadopt.certified, hadopt.phase]
    exact hcert
  have hepoch1 : (o1.tenure o.fresh).Epochal m := by
    unfold Tenure.Epochal
    rw [hadopt.phase]
    exact ⟨fun _ => hepoch, hpos⟩
  have hstate1 : (o1.tenure o.fresh).phase.state = .done := by
    rw [hadopt.phase]
    rfl
  -- the entry into done is in the history
  have hpub : (Act.entered o.fresh entry).publishes o.fresh := by
    simp [htarget]
  have hview := view_note_update (t := o.fresh) o1 (a := .entered o.fresh entry)
    (f := fun p => { p with
      published := True
      reliedWhenFree := (false → live o.fresh o1.trace = []) ∧ p.reliedWhenFree
      publishedCertified := fun id ws =>
        (Certified id ws o1.trace ∧ ∀ ws' ∈ (none : Option Workspace), ws' = ws) ∧
          p.publishedCertified id ws }) (fun _ => by simp [htarget])
    (past_cons_publishes hpub (fun _ => rfl) (fun _ => rfl) rfl rfl rfl (fun _ _ => nofun)
      (fun _ => rfl) rfl rfl)
  have hentered : Moves m o.fresh o1.view
      (o1.note (.entered o.fresh entry)).view :=
    .of_set hview (hs.republish (.inl hstate1) hcert1 hepoch1 ⟨nofun, hs.reliedWhenFree⟩
      ⟨⟨hcert1, nofun⟩, hs.publishedCertified⟩) rfl id
  have htenure := tenure_of_update hview
  generalize o1.note _ = o2 at hentered htenure ⊢
  have hp : (o2.tenure o.fresh).phase.state = .done ∧ (o2.tenure o.fresh).Publishable m := by
    rw [htenure]
    exact ⟨hstate1, .inl hstate1, hcert1, hepoch1⟩
  obtain ⟨hproject, hphase, hpub2⟩ := moves_projectRecovery (v := v) hentered.sound facts
    fun _ => hp.2
  exact hadopt.then ((hentered.trans hproject).trans (moves_disposePublished hproject.sound
    ((congrArg Phase.state hphase).trans hp.1) (hpub2 hp.2)))

end

/-- A verdict of recovery keeps the invariant, as long as nothing is running for the issue, the
sweep does not hold it, and there is a slot for a claim that goes ahead. -/
lemma keeps_applyRecovery (hq : ¬ m.queued) (h : Good m o.view)
    (hidle : ∀ t, o.Has issue.identifier t → (o.tenure t).Idle)
    (hrec : v.action ≠ .gone → issue.identifier ≠ "" ∧ issue.identifier ∉ o.sweepDisposing)
    (hb : o.Backed issue facts v) (hfloor : v.Floored) (cur)
    (hslot : m.capped → v.action = .approve → (o.view.slots : Int) < m.cap) :
    Keeps m o.view (o.applyRecovery issue facts v cur).view := by
  have hrecoverable : v.action ≠ .gone → o.Recoverable issue := fun hne =>
    ⟨(hrec hne).1, hidle, (hrec hne).2⟩
  cases hv : v.action with
  | gone =>
    simp only [applyRecovery, hv]
    exact keeps_forget h _ hidle
  | blocked | unknown =>
    simp only [applyRecovery, hv]
    exact keeps_adoptUnclassified h (hrec (by simp [hv])).1 hidle cur
  | wait => exact keeps_recover_wait h (hrecoverable (by simp [hv])) hb hfloor cur hv
  | approve =>
    exact keeps_recover_approve h (hrecoverable (by simp [hv])) hb hfloor cur hq hv fun hc =>
      hslot hc hv
  | backoff => exact keeps_recover_backoff h (hrecoverable (by simp [hv])) hb hfloor cur hv
  | park => exact keeps_recover_park h (hrecoverable (by simp [hv])) hb hfloor cur hv
  | hold => exact keeps_recover_hold h (hrecoverable (by simp [hv])) hb hfloor cur hv
  | releaseKeep =>
    exact keeps_recover_release h (hrecoverable (by simp [hv])) hb hfloor cur (.inl hv)
  | releaseDispose =>
    exact keeps_recover_release h (hrecoverable (by simp [hv])) hb hfloor cur (.inr hv)

/-! ## Startup -/

lemma keeps_noteEvidence (h : Good m o.view) (facts) : Keeps m o.view (o.noteEvidence facts).view :=
  keeps_guard h fun _ => keeps_note_verifier h _ _ _

/-- What the verifier said of published work is in the history. -/
lemma certified_noteEvidence (hpub : facts.verify.verdict = .published) :
    Certified facts.candidate.issue.identifier facts.workspace (o.noteEvidence facts).trace := by
  simp [noteEvidence, hpub, Certified, note]

/-- A verdict rests on the evidence that was noted for it. -/
lemma backed_of_verdictSound {facts' : RecoveryFacts} (hv : VerdictSound issue v facts')
    (hverify : facts'.verify = facts.verify) (hworkspace : facts'.workspace = facts.workspace)
    (hissue : facts.candidate.issue = issue) : (o.noteEvidence facts).Backed issue facts' v :=
  fun hp => by
    obtain ⟨hpub, hrest⟩ := hv.published hp
    have hcert : Certified facts.candidate.issue.identifier facts.workspace
        (o.noteEvidence facts).trace := certified_noteEvidence (hverify ▸ hpub)
    rw [hissue, ← hworkspace] at hcert
    exact ⟨hcert, hrest⟩

/-- Evidence does not change what the table has, or what is reserved, or what runs. -/
lemma tenure_noteEvidence (o : Orchestrator) (facts t) : ∃ C, (o.noteEvidence facts).tenure t =
      { o.tenure t with past := { (o.tenure t).past with certified := C } } := by
  unfold noteEvidence
  split
  · exact ⟨_, rfl⟩
  · exact ⟨_, tenure_note_verifier _ _ _ _ _⟩

lemma records_noteEvidence (o : Orchestrator) (facts) :
    (o.noteEvidence facts).records = o.records := by
  unfold noteEvidence
  split <;> rfl

lemma slots_noteEvidence (o : Orchestrator) (facts) :
    (o.noteEvidence facts).view.slots = o.view.slots := by
  have hphase : ∀ t, ((o.noteEvidence facts).view.tenure t).phase = (o.view.tenure t).phase :=
    fun t => by
      obtain ⟨C, heq⟩ := tenure_noteEvidence o facts t
      rw [view_tenure, heq]
      rfl
  simp only [View.slots, hphase]
  rw [show (o.noteEvidence facts).view.records = o.view.records from records_noteEvidence o facts]

lemma idle_noteEvidence {id} (hidle : ∀ t, o.Has id t → (o.tenure t).Idle) (facts t)
    (ht : (o.noteEvidence facts).Has id t) :
    ((o.noteEvidence facts).tenure t).Idle := by
  obtain ⟨C, heq⟩ := tenure_noteEvidence o facts t
  rw [heq]
  refine hidle t ?_
  unfold Has at ht ⊢
  rw [records_noteEvidence] at ht
  exact ht

lemma keeps_recoverCandidate (hq : ¬ m.queued) (h : Good m o.view) (issue : Issue) (cur reads)
    (hidle : ∀ t, o.Has issue.identifier t → (o.tenure t).Idle) (hname : issue.identifier ≠ "")
    (hfree : issue.identifier ∉ o.sweepDisposing)
    (hslot : m.capped → ∀ v facts, recoveryVerdictOf issue cur reads = .ok (v, facts) →
      v.action = .approve → (o.view.slots : Int) < m.cap) :
    Keeps m o.view (o.recoverCandidate issue cur reads).view := by
  unfold recoveryVerdictOf at hslot
  unfold recoverCandidate
  cases hfacts : recoveryFacts issue cur reads with
  | error e => exact keeps_adoptUnclassified h hname hidle cur
  | ok facts =>
    rw [hfacts] at hslot
    have hnote := keeps_noteEvidence h facts
    have hsound := factsSound_of_recoveryFacts hfacts
    dsimp only at hslot ⊢
    cases hclassify : classify cur reads facts with
    | error e =>
      exact hnote.trans
        (keeps_adoptUnclassified hnote.good hname (idle_noteEvidence hidle facts) cur)
    | ok res =>
      obtain ⟨v, facts'⟩ := res
      obtain ⟨hv, hverify, hworkspace⟩ := verdictSound_of_classify hsound hclassify
      refine hnote.trans (keeps_applyRecovery hq hnote.good (idle_noteEvidence hidle facts)
        (fun _ => ⟨hname, ?_⟩) (backed_of_verdictSound hv hverify hworkspace hsound.issue)
        hv.floored
        cur fun hc happrove => ?_)
      · rw [(acted_noteEvidence (K := fun _ => True) trivial facts).reserved]
        exact hfree
      · rw [slots_noteEvidence]
        exact hslot hc v facts' hclassify happrove

/-! ## Claims classified later -/

/-- What a classification that came back may say of the record it is about. -/
def RecoveredSignal.Sound (o : Orchestrator) (id : String) : RecoveredSignal → Prop
  | .failed => True
  | .verdict v facts => v.Floored ∧
    ((v.action = .gone ∧ v.milestone ≠ .published ∧ facts.candidate.issue.identifier = "") ∨
      (facts.candidate.issue.identifier = id ∧ o.Backed facts.candidate.issue facts v))

lemma keeps_onRecovered (hq : ¬ m.queued) (h : Good m o.view) (hatt : (o.tenure t).attached)
    (revision : Nat) (s : RecoveredSignal) (hs : s.Sound o (o.heap t).issue.identifier)
    (hslot : m.capped → ∀ v facts, s = .verdict v facts → v.action = .approve →
      (o.view.slots : Int) < m.cap) :
    Keeps m o.view (o.onRecovered t revision s).view := by
  have hview : (o.modify t fun r => { r with recoverInFlight := false }).view = o.view :=
    view_modify_of_phase rfl
  unfold onRecovered
  dsimp only
  have htrace : (o.modify t fun r => { r with recoverInFlight := false }).trace = o.trace := rfl
  rw [← hview] at h hslot ⊢
  have htenure := tenure_of_view hview t
  rw [← htenure] at hatt
  have hid : ((o.modify t fun r => { r with recoverInFlight := false }).heap t).issue.identifier =
      (o.heap t).issue.identifier := congrArg (fun v : Tenure => v.phase.id) htenure
  rw [← hid] at hs
  generalize o.modify t _ = o1 at h hslot hatt hs htrace ⊢
  refine keeps_guard h fun hguard => ?_
  simp only [Bool.or_eq_true, decide_eq_true_eq, Bool.not_eq_true', not_or,
    List.contains_iff_mem, Bool.not_eq_false] at hguard
  obtain ⟨⟨-, hun⟩, hfree⟩ := hguard
  have hidle : (o1.tenure t).Idle :=
    (h.sound t).idle_of_state ((h.sound t).unclassified hun).1 rfl
  have hforget := keeps_forget_own h hatt hidle rfl
  have hnamed : (o1.heap t).issue.identifier ≠ "" := h.named _ (mem_entries_of_has hatt)
  cases s with
  | failed => exact .refl h
  | verdict v facts =>
    refine keeps_guard h fun _ => hforget.trans ?_
    obtain ⟨hfloor, ⟨hgone, hunpub, hempty⟩ | ⟨hissue, hb⟩⟩ := hs
    · refine keeps_applyRecovery hq hforget.good (fun t' ht' => ?_) (fun hne => absurd hgone hne)
        (fun hp => ?_) hfloor _ fun _ happrove => ?_
      · exact absurd hempty (hforget.good.named _ (mem_entries_of_has ht'))
      · exact absurd hp (not_or.2 ⟨by simp [hgone], hunpub⟩)
      · simp [hgone] at happrove
    · refine keeps_applyRecovery hq hforget.good (fun t' ht' => ?_) (fun _ => ?_) ?_ hfloor _
        fun hc happrove => ?_
      · exact absurd hissue (has_forget.1 ht').2
      · rw [hissue]
        exact ⟨hnamed, hfree⟩
      · unfold Backed at hb ⊢
        rw [← htrace] at hb
        exact hb
      · exact lt_of_le_of_lt (Int.ofNat_le.2 (slots_forget_le _ _)) (hslot hc v facts rfl happrove)

/-- What the worker behind a retained claim makes of its reads can be relied on, once the answer
of the verifier it obtained is in the history. -/
lemma sound_recoveredSignal (o : Orchestrator) (cur) {fresh : RefreshResult} (reads) {id}
    (hfresh : ∀ issue ∈ fresh.issue, issue.identifier = id) :
    (recoveredSignal cur fresh reads).Sound (o.noteRecoveryEvidence cur fresh reads) id := by
  have hgone : (RecoveredSignal.verdict { action := .gone }
      { candidate := ⟨{ identifier := "" }, false, false⟩ }).Sound
        (o.noteRecoveryEvidence cur fresh reads) id :=
    ⟨⟨le_refl _, nofun⟩, .inl ⟨rfl, nofun, rfl⟩⟩
  unfold recoveredSignal
  dsimp only
  rcases herr : fresh.err with _ | e
  · rcases hissue : fresh.issue with _ | issue
    · trivial
    · have hid := hfresh issue (by rw [hissue]; rfl)
      dsimp only
      split
      · exact hgone
      · rename_i hassigned
        unfold recoveryVerdictOf
        cases hfacts : recoveryFacts issue cur reads with
        | error e => trivial
        | ok facts =>
          have hnote : o.noteRecoveryEvidence cur fresh reads = o.noteEvidence facts := by
            simp only [noteRecoveryEvidence, herr, hissue, hassigned, hfacts, if_false,
              Bool.false_eq_true]
          dsimp only
          have hsound := factsSound_of_recoveryFacts hfacts
          cases hclassify : classify cur reads facts with
          | error e => trivial
          | ok res =>
            obtain ⟨v, facts'⟩ := res
            obtain ⟨hv, hverify, hworkspace⟩ := verdictSound_of_classify hsound hclassify
            rw [hnote]
            refine ⟨hv.floored, .inr ⟨by rw [hv.issue, hid], ?_⟩⟩
            rw [hv.issue]
            exact backed_of_verdictSound hv hverify hworkspace hsound.issue
  · dsimp only
    split
    · exact hgone
    · trivial

lemma keeps_noteRecoveryEvidence (h : Good m o.view) (cur fresh reads) :
    Keeps m o.view (o.noteRecoveryEvidence cur fresh reads).view := by
  unfold noteRecoveryEvidence
  split
  · refine keeps_guard h fun _ => ?_
    split
    · exact keeps_noteEvidence h _
    · exact .refl h
  · exact .refl h

lemma slots_noteRecoveryEvidence (o : Orchestrator) (cur fresh reads) :
    (o.noteRecoveryEvidence cur fresh reads).view.slots = o.view.slots := by
  unfold noteRecoveryEvidence
  split
  · split
    · rfl
    · split
      · exact slots_noteEvidence _ _
      · rfl
  · rfl

variable (h : Good m o.view)

include h

/-- A candidate is taken over only if nothing has it. -/
lemma keeps_scanCandidate (hname : issue.identifier ≠ "") (cur) :
    Keeps m o.view (o.scanCandidate issue cur).view := by
  unfold scanCandidate
  dsimp only
  refine keeps_guard h fun hnone => ?_
  refine keeps_ite (fun _ => keeps_of_view rfl h) fun _ => ?_
  refine keeps_adoptUnclassified h hname (fun t ht => ?_) cur
  have hsome : o.records.lookup issue.identifier = some t := ht
  simp [hsome] at hnone

lemma keeps_onRecoveryScan (order) {candidates}
    (hnames : ∀ issue ∈ candidates, issue.identifier ≠ "") (err) (revision : Nat) :
    Keeps m o.view (o.onRecoveryScan order candidates err revision).view := by
  have hview : ({ o with scanInFlight := false } : Orchestrator).view = o.view := rfl
  unfold onRecoveryScan
  dsimp only
  refine keeps_ite (fun _ => keeps_of_view hview h) fun _ => ?_
  rw [view_retryRecovery]
  suffices hfold : ∀ o' : Orchestrator, Good m o'.view → ∀ cur : Snapshot, Keeps m o'.view
      (candidates.foldl (fun o issue => o.scanCandidate issue cur) o').view from
    hfold { o with scanInFlight := false, scanOwed := false } h _
  intro o' h' cur
  induction candidates generalizing o' with
  | nil => exact .refl h'
  | cons issue rest ih =>
    have hone := keeps_scanCandidate h' (hnames issue (.head _)) cur
    exact hone.trans (ih (fun i hi => hnames i (.tail _ hi)) _ hone.good)

/-! ## Reservations -/

/-- A reservation changes only what is reserved. -/
lemma keeps_reserve (ids)
    (hids : ∀ t, (o.tenure t).attached → (o.heap t).issue.identifier ∈ ids →
      (o.heap t).issue.identifier ∈ o.sweepDisposing) :
    Keeps m o.view ({ o with sweepDisposing := ids } : Orchestrator).view :=
  ⟨⟨fun t =>
      { h.sound t with reserved := fun hatt hr => (h.sound t).reserved hatt (hids t hatt hr) },
    fun t ht => { h.blank t ht with }, h.keyed, h.named⟩, fun _ => le_max_left _ _⟩

/-- An issue is reserved only while the table has no record of it. -/
lemma keeps_grantDisposal (id) :
    Keeps m o.view (o.grantDisposal id).1.view := by
  unfold grantDisposal
  split
  · exact .refl h
  · rename_i hguard
    refine keeps_reserve h _ fun t hatt hr => (List.mem_cons.1 hr).resolve_left fun heq => hguard ?_
    have hsome : o.records.lookup id = some t := heq ▸ hatt
    simp [hsome]

lemma keeps_onSweepRelease (id) : Keeps m o.view (o.onSweepRelease id).view :=
  keeps_reserve h _ fun _ _ hr => List.mem_of_mem_filter hr

end Orchestrator

end Ben
