import Ben.Orchestrator.Ending

/-!
# Answers of a record's workers keep the invariant

Every handler of an answer that a record's own worker brings back is sound work on the record's
tenure.  Each is given the invariant as it was with the worker still out.
-/

namespace Ben

variable [Platform]

namespace Tenure

/-- The next attempt may be dispatched. -/
structure Dispatchable (m : Mode) (v : Tenure) : Prop where
  settled : v.Settled
  unprepared : ¬ v.past.prepared v.gen
  attached : v.attached
  staying : v.phase.leaving = false
  based : v.phase.claimBaseDispatch = false
  pinned : m.pinned → v.Pinned
  spare : m.rationed → v.Spare m.limits
  clear : m.frugal → ¬ v.past.overrun m.limits.maxCost

/-- The prepared attempt may be started. -/
structure Startable (m : Mode) (v : Tenure) : Prop where
  launching : v.Launching
  launches : v.launches = 0
  exits : ¬ v.exits
  spare : m.rationed → v.Spare m.limits
  clear : m.frugal → ¬ v.past.overrun m.limits.maxCost

/-- Nothing reads the stream of the current attempt yet. -/
structure Unread (v : Tenure) : Prop where
  prepared : v.past.prepared v.gen
  eventsClosed : v.phase.eventsClosed = false
  pumps : v.out.pumps v.gen = 0
  launches : v.launches = 0

end Tenure

namespace Orchestrator

variable {m : Mode} {o : Orchestrator} {t : Token}

/-! ## The claim and its content -/

lemma moves_beginApproval (hs : Sound m (o.tenure t)) (hver : (o.heap t).claimVerified) :
    Moves m t o.view (o.beginApproval t).view := by
  unfold beginApproval
  dsimp only
  split
  · exact .of_eq rfl hs
  · have hpending := view_phase o t
      (fun r => { r with approvalInFlight := true, pending := r.pending + 1 })
      (fun p => { p with pending := p.pending + 1 }) rfl
    exact .of_set (View.update_comp hpending
      (view_spawn_plain rfl rfl (fun _ _ => rfl) fun _ _ => rfl)) (hs.askApproval hver) rfl id

lemma moves_beginClaimBase (hs : Sound m (o.tenure t)) (hpin : m.pinned → (o.tenure t).Pinned)
    (hver : (o.heap t).state = .queued → (o.heap t).claimVerified) :
    Moves m t o.view (o.beginClaimBase t).view := by
  unfold beginClaimBase
  dsimp only
  split
  · exact .of_eq rfl hs
  · have hpending := view_phase o t
      (fun r => { r with claimBaseInFlight := true, pending := r.pending + 1 })
      (fun p => { p with pending := p.pending + 1 }) rfl
    split
    all_goals
      exact .of_set (View.update_comp hpending
        (view_spawn_plain rfl rfl (fun _ _ => rfl) fun _ _ => rfl))
        (hs.askClaimBase hpin hver) rfl id

/-- A check that passed is seen in the history. -/
lemma view_note_approved (o : Orchestrator) (t a) : (o.note (.approved t a)).view =
    o.view.update t fun v => { v with past := { v.past with approval := some a } } := by
  exact view_note_update (f := fun p => { p with approval := some a }) o (fun _ => rfl)
    (by rw [past_cons]; simp [past])

/-- Pinning content that passed the check is seen in the record and in its history. -/
lemma view_pin {o1 : Orchestrator} {a : ApprovedContent} (hview : o1.view =
      o.view.update t fun v => { v with past := { v.past with approval := some a } }) :
    ((o1.modify t fun r => r.pin a).note (.pinned t a)).view = o.view.update t fun v =>
      { v with
        phase := { v.phase with
          title := a.content.title, body := a.content.body, approvedAt := a.at_ }
        past := { v.past with pin := some a, approval := some a } } := by
  have hpin := view_phase o1 t (fun r => r.pin a)
    (fun p => { p with title := a.content.title, body := a.content.body, approvedAt := a.at_ }) rfl
  refine (view_note_update (t := t) (f := fun p => { p with pin := some a }) _ (fun _ => rfl)
    (by rw [past_cons]; simp [past])).trans ?_
  rw [hpin, hview, View.update_update, View.update_update]
  rfl

lemma moves_onApproved (h : Sound m ((o.tenure t).sent .approval))
    (history approval required principal err) :
    Moves m t o.view (o.onApproved t history approval required principal err).view := by
  have hver : (o.tenure t).phase.claimVerified := h.came_approval
  obtain ⟨hmoves, htenure⟩ := moves_modify
    (f := fun r => { r with pending := r.pending - 1, approvalInFlight := false })
    (fun p => { p with pending := p.pending - 1 }) (h.came_awaited (by decide) rfl) id rfl
  unfold onApproved
  dsimp only
  generalize o.modify t _ = o1 at hmoves htenure ⊢
  have hs : Sound m (o1.tenure t) := hmoves.sound
  have hver1 : (o1.tenure t).phase.claimVerified := by rw [htenure]; exact hver
  refine hmoves.trans ?_
  split
  · exact moves_finishIfRequested hs
  · split
    · exact .of_eq rfl hs
    · rename_i hguard
      have hstate : (o1.tenure t).phase.state = .queued := by
        change (o1.heap t).state = .queued
        simp_all
      have hset := hs.settled_of_verified hver1 hstate
      cases err with
      | some e =>
        dsimp only
        split
        · obtain ⟨hleave, hleft⟩ := moves_gone hs
          refine hleave.trans (moves_finishNow hleave.sound ?_ _ _)
          rw [hleft]
          exact hs.idle_of_settled hset
        · exact .of_eq rfl hs
      | none =>
        dsimp only
        cases checkApproval history required approval with
        | error e =>
          exact moves_enterNeedsReview hs hset
            (fun hd => nomatch (hs.not_dispatching hstate rfl).symm.trans hd) _ _
        | ok approved =>
          have hview := view_pin (view_note_approved o1 t approved)
          have hpinned : Moves m t o1.view (((o1.note (.approved t approved)).modify t fun r =>
              r.pin approved).note (.pinned t approved)).view :=
            .of_set hview (hs.pinContent approved) rfl id
          have htenure2 := tenure_of_update hview
          dsimp only
          generalize ((o1.note (.approved t approved)).modify t fun r => r.pin approved).note
            (.pinned t approved) = o2 at hpinned htenure2 ⊢
          have hset2 : (o2.tenure t).Settled := by
            rw [htenure2]
            exact { hset with }
          refine hpinned.trans ?_
          split
          · exact moves_enterEpochFault hpinned.sound hset2 _
          · have hpin2 : (o2.tenure t).Pinned := by
              rw [htenure2]
              exact ⟨approved, rfl⟩
            have hstate2 : (o2.tenure t).phase.state = .queued := by rw [htenure2]; exact hstate
            have hver2 : (o2.tenure t).phase.claimVerified := by rw [htenure2]; exact hver1
            obtain ⟨hepoch, htenure3⟩ := moves_modify (o := o2) (f := fun r =>
              { r with claimEpoch := claimCycleAnchor history principal })
              (fun p => { p with claimEpoch := claimCycleAnchor history principal })
              (hpinned.sound.setEpoch hset2.claims hset2.unclassified (.inl ⟨hstate2, rfl⟩)
                (fun _ => hpin2) fun _ _ => hpin2) id rfl
            refine hepoch.trans (moves_beginClaimBase hepoch.sound (fun _ => ?_) fun _ => ?_)
            · rw [htenure3]
              exact hpin2
            · rw [heap_modify_self]
              exact hver2

/-! ## Preparing -/

/-- A preparation leaves when nothing is left running. -/
lemma view_spawn_prepare (hfree : o.Free t) (issue) (attempt epoch : Int) :
    (o.spawn (.prepare (o.tag t) issue attempt epoch)).view = o.view.update t fun v =>
      { v with
        out := v.out.add .prepare v.gen
        past := { v.past with prepared := fun g => v.gen = g ∨ v.past.prepared g } } := by
  have hpast : past t (.spawned (.prepare (o.tag t) issue attempt epoch) :: o.trace) =
      { past t o.trace with
        prepared := fun g => (o.heap t).generation = g ∨ (past t o.trace).prepared g } := by
    rw [past_cons]
    simp [past, show live t o.trace = [] from hfree, tag]
  rw [view_spawn o rfl, show (o.tag t).token = t from rfl, hpast,
    outstanding_cons_of_plain _ _ rfl (show (o.tag t).token = t from rfl) (fun _ _ => rfl)
      fun _ _ => rfl]
  rfl

lemma moves_beginPrepare (hs : Sound m (o.tenure t)) (hset : (o.tenure t).Settled)
    (hstate : (o.tenure t).phase.state = .preparing)
    (hprep : ¬ (o.tenure t).past.prepared (o.tenure t).gen)
    (hatt : (o.tenure t).attached) (hleave : (o.tenure t).phase.leaving = false) :
    Moves m t o.view (o.beginPrepare t).view := by
  unfold beginPrepare
  split
  · exact .of_eq rfl hs
  · dsimp only
    have hreset := view_phase o t (fun r =>
        { r with
          ranThisAttempt := false, afterRunFired := false
          eventsClosed := false, handleDone := false, domainQuiet := false, outcome := none
          budgetStop := false, finishAfterStop := false
          attemptStartedAt := o.now, attemptUsage := {}, attemptRecorded := false
          attemptAgent := o.bundle.agent
          outputTail := "", outputTotal := 0, attemptFacts := {}, attemptFactsRead := false
          summarizing := false, summarized := false, parkOnBudgetPending := false
          pending := r.pending + 1 })
      (fun p =>
        { p with
          eventsClosed := false, domainQuiet := false, outcome := false, succeeded := false
          budgetStop := false, summarizing := false, summarized := false
          parkOnBudgetPending := false, pending := p.pending + 1 }) rfl
    generalize o.modify t _ = o1 at hreset ⊢
    have hidle := hs.idle_of_settled hset
    have hfree : o1.Free t :=
      (congrArg (fun v : Tenure => v.past.live) (tenure_of_update hreset)).trans hidle.2.2
    refine .of_set (View.update_comp hreset (view_spawn_prepare hfree _ _ _))
      (hs.prepare hset hstate hprep hatt fun hex => ?_) rfl fun hb => ?_
    · cases hleave.symm.trans (hs.exit hex).2
    · exact Phase.bound_of_state (.inr (.inl hstate))

/-- A settled record that has its slot, or for which one is free, is dispatched. -/
lemma moves_dispatch (hs : Sound m (o.tenure t)) (hd : (o.tenure t).Dispatchable m)
    (hkeyed : o.view.Keyed)
    (hslot : m.capped → (o.tenure t).phase.bound ∨ (o.view.slots : Int) < m.cap) (reason) :
    Moves m t o.view
      (if !(o.transition t .preparing reason).2 then (o.transition t .preparing reason).1
        else (o.transition t .preparing reason).1.beginPrepare t).view := by
  unfold transition
  cases hallowed : allowed (o.heap t).state .preparing with
  | false =>
    simp only [transitionCaused_snd, hallowed, transitionCaused_of_not_allowed hallowed]
    exact .of_eq rfl hs
  | true =>
    have hmoved := view_transitionCaused_of_ne_done hallowed (by decide) reason .none
    have hmoves : Moves m t o.view (o.transitionCaused t .preparing reason .none).1.view :=
      .of_slot hkeyed hslot hmoved
        (hs.ready hd.settled (ne_done_of_allowed hallowed) hd.based hd.pinned hd.spare hd.clear) rfl
    have htenure := tenure_of_update hmoved
    simp only [transitionCaused_snd, hallowed]
    generalize (o.transitionCaused t .preparing reason .none).1 = o1 at hmoves htenure ⊢
    refine hmoves.trans (moves_beginPrepare hmoves.sound ?_ ?_ ?_ ?_ ?_) <;> rw [htenure]
    · exact { hd.settled with }
    · exact hd.unprepared
    · exact hd.attached
    · exact hd.staying

lemma moves_onClaimProjected (hs : Sound m (o.tenure t)) (hkeyed : o.view.Keyed)
    (hatt : (o.tenure t).attached) : Moves m t o.view (o.onClaimProjected t).view := by
  unfold onClaimProjected
  dsimp only
  split
  · exact .of_eq rfl hs
  · rename_i hguard
    simp only [Bool.or_eq_true, not_or, Bool.not_eq_true, bne_eq_false_iff_eq] at hguard
    obtain ⟨hclaimed, hexiting⟩ := hguard
    have hstate : (o.tenure t).phase.state = .claimed := hclaimed
    have hprep := hs.fresh (.inr (.inl hstate))
    have hset := hs.settled_of_unprepared hprep
      (Nat.eq_zero_of_not_pos fun ht => by
        rcases (hs.timer ht).2.state with ⟨hw, -⟩ | hw <;> simp [hstate] at hw)
      (Nat.eq_zero_of_not_pos fun hc => by simpa [hstate] using (hs.claiming hc).2.1)
      (by
        by_contra hu
        simpa [hstate] using (hs.unclassified (by simpa using hu)).1)
    exact moves_dispatch hs ⟨hset, hprep, hatt, (not_exiting hexiting).1,
      hs.not_dispatching hstate rfl, fun hm => hs.pinned hm (.inr (.inr (.inl hstate))),
      fun hm => (hs.rationed hm).2.2.2.2.2.1 (.inr (.inl hstate)),
      fun hm ho => (hs.barred hm ho).2.1 hstate⟩ hkeyed
      (fun _ => .inl (Phase.bound_of_state (.inl hstate))) _

lemma moves_onClaimBaseBegun (h : Sound m ((o.tenure t).sent .claimBase)) (hkeyed : o.view.Keyed)
    (hatt : (o.tenure t).attached)
    (hslot : m.capped → (o.heap t).state = .backoff → (o.view.slots : Int) < m.cap)
    (err base baseErr scanned) :
    Moves m t o.view (o.onClaimBaseBegun t err base baseErr scanned).view := by
  obtain ⟨hpin, hver⟩ := h.came_claimBase
  have hview := view_phase o t
    (fun r => { r with pending := r.pending - 1, claimBaseInFlight := false })
    (fun p => { p with pending := p.pending - 1 }) rfl
  have hslots := slots_le_of_update hview id
  have hmoves : Moves m t o.view _ := .of_set hview (h.came_awaited (by decide) rfl) rfl id
  have htenure := tenure_of_update hview
  unfold onClaimBaseBegun
  dsimp only
  generalize o.modify t _ = o1 at hslots hmoves htenure ⊢
  have hs : Sound m (o1.tenure t) := hmoves.sound
  have hstate1 : (o1.tenure t).phase.state = (o.tenure t).phase.state := by rw [htenure]
  have hpin1 : m.pinned → (o1.tenure t).Pinned := by rw [htenure]; exact hpin
  have hver1 : (o1.tenure t).phase.state = .queued → (o1.tenure t).phase.claimVerified := by
    rw [htenure]
    exact hver
  refine hmoves.trans (moves_ite (fun _ => moves_finishIfRequested hs) fun _ => ?_)
  refine moves_guard hs fun hexiting => ?_
  refine moves_guard hs fun _ => ?_
  refine moves_guard hs fun hguard => ?_
  have hcases : (o1.tenure t).phase.state = .queued ∨ ((o1.tenure t).phase.state = .backoff ∧
      (o1.tenure t).phase.claimBaseDispatch) := by
    change (o1.heap t).state = .queued ∨ ((o1.heap t).state = .backoff ∧
      (o1.heap t).claimBaseDispatch)
    simp only [Bool.and_eq_true, Bool.or_eq_true, bne_iff_ne, ne_eq, Bool.not_eq_true', not_and,
      not_or, not_not, Bool.not_eq_false] at hguard
    exact or_iff_not_imp_left.2 hguard
  have hset : (o1.tenure t).Settled := by
    rcases hcases with hq | ⟨hb, hd⟩
    · exact hs.settled_of_verified (hver1 hq) hq
    · exact hs.settled_of_backoff hb (.inl hd)
  refine moves_guard hs fun _ => ?_
  refine moves_ite (fun _ => moves_enterEpochFault hs hset _) fun _ => ?_
  refine moves_ite (fun _ => moves_enterEpochFault hs hset _) fun _ => ?_
  refine moves_ite (fun hbackoff => ?_) fun hbackoff => ?_
  · have hbackoff : (o1.tenure t).phase.state = .backoff := hbackoff
    have hundispatched := view_phase o1 t
      (fun r => { r with claimBaseDispatch := false, attempt := r.attempt + 1 })
      (fun p => { p with claimBaseDispatch := false, attempt := p.attempt + 1 }) rfl
    have hslots2 := slots_le_of_update hundispatched id
    have hcount := fun hm => (hs.undispatch.rationed hm).count (c := (o1.tenure t).phase.maxCost)
      (.inl ⟨hbackoff, rfl⟩) hset.timers
    have hleave : (o1.tenure t).phase.leaving = false := by
      simp only [Bool.or_eq_true, not_or, Bool.not_eq_true] at hexiting
      exact (not_exiting hexiting.1).1
    have hmoves2 : Moves m t o1.view _ := .of_set hundispatched
      (hs.undispatch.count (fun hm => (hcount hm).1) fun hm hp => hs.priced hm hp) rfl id
    have htenure2 := tenure_of_update hundispatched
    generalize o1.modify t _ = o2 at hslots2 hmoves2 htenure2 ⊢
    refine hmoves2.trans (moves_dispatch hmoves2.sound ?_ (hmoves2.keyed (hmoves.keyed hkeyed))
      (fun hc => .inr ?_) _)
    · rw [htenure2]
      exact ⟨{ hset with }, hs.fresh (.inr (.inr hbackoff)), by rw [htenure]; exact hatt, hleave,
        rfl, hpin1, fun hm => (hcount hm).2,
        fun hm ho => nomatch hleave.symm.trans ((hs.barred hm ho).2.2.1 hbackoff)⟩
    · have := hslot hc (hstate1.symm.trans hbackoff)
      omega
  · have hqueued : (o1.tenure t).phase.state = .queued :=
      hcases.resolve_right fun hb => hbackoff hb.1
    have hallowed : allowed (o1.heap t).state .claimed := by
      rw [show (o1.heap t).state = .queued from hqueued]
      rfl
    have hmoved := view_transitionCaused_of_ne_done hallowed (by decide)
      (transitionReason .queued .claimed) .none
    unfold transition
    simp only [transitionCaused_snd, hallowed]
    refine .of_set ((view_comment _ _ (by simp)).trans hmoved)
      (hs.claim hqueued (hver1 hqueued) hset.claims hset.unclassified hpin1) rfl fun _ => ?_
    have hqueued' : (o1.view.tenure t).phase.state = .queued := hqueued
    have hver' : (o1.view.tenure t).phase.claimVerified := hver1 hqueued
    simp only [Phase.bound, hqueued', hver', Bool.or_true]

/-! ## Launching -/

/-- A start leaves, and from now on something may be running. -/
lemma view_spawn_start (o : Orchestrator) (t issue vars spec waits) :
    (o.spawn (.start (o.tag t) issue vars spec waits)).view = o.view.update t fun v =>
      { v with
        out := { v.out.add .start v.gen with
          strayRuns := fun id g =>
            v.out.strayRuns id g + if v.gen == g && v.phase.id != id then 1 else 0
          strayVerifies := v.out.strayVerifies }
        past := { v.past with
          live := v.gen :: v.past.live
          startedPinned := Pinned t vars o.trace ∧ v.past.startedPinned
          starts := v.past.starts + 1
          startedWithin := fun n => (v.past.starts : Int) < n ∧ v.past.startedWithin n
          startedFrugally := fun cap =>
            ¬ v.past.overrun cap ∧ v.past.startedFrugally cap } } := by
  have hpast : past t (.spawned (.start (o.tag t) issue vars spec waits) :: o.trace) =
      { past t o.trace with
        live := (o.heap t).generation :: (past t o.trace).live
        startedPinned := Pinned t vars o.trace ∧ (past t o.trace).startedPinned
        starts := (past t o.trace).starts + 1
        startedWithin := fun n =>
          ((past t o.trace).starts : Int) < n ∧ (past t o.trace).startedWithin n
        startedFrugally := fun cap =>
          ¬ (past t o.trace).overrun cap ∧ (past t o.trace).startedFrugally cap } := by
    rw [past_cons]
    simp [past, tag]
  rw [view_spawn o rfl, show (o.tag t).token = t from rfl, hpast,
    outstanding_cons_of_duty _ _ rfl (show (o.tag t).token = t from rfl)]
  simp only [Worker.strayVerify, Worker.strayRun, Bool.false_eq_true, if_false, Nat.add_zero]
  simp only [show (o.tag t).token = t from rfl, beq_self_eq_true, Bool.true_and]
  rfl

/-- The prompt of a pinned record is rendered from what was pinned. -/
lemma pinned_promptVars (hs : Sound m (o.tenure t)) (hpin : (o.tenure t).Pinned)
    (r : Record) (hissue : r.issue = (o.heap t).issue) : Pinned t (promptVars r) o.trace := by
  obtain ⟨pin, hpin⟩ := hpin
  obtain ⟨approval, happroval, hle⟩ := hs.inForce pin hpin
  obtain ⟨htitle, hbody, -⟩ := hs.pin pin hpin
  refine ⟨pin, approval, hpin, happroval, ?_, ?_, hle⟩
  · change r.issue.title = _
    rw [hissue]
    exact htitle
  · change r.issue.body = _
    rw [hissue]
    exact hbody

lemma moves_beginStart (hs : Sound m (o.tenure t)) (hst : (o.tenure t).Startable m)
    (hepoch : (o.tenure t).Epochal m) : Moves m t o.view (o.beginStart t).view := by
  unfold beginStart
  refine moves_guard hs fun _ => ?_
  dsimp only
  have hprice : m.frugal → o.definition.limits.maxCost = m.limits.maxCost := fun hm =>
    congrArg Limits.maxCost (hs.limits (.inr hm))
  obtain ⟨hmoves, htenure⟩ := moves_modify
    (f := fun r => { r with definition := o.definition, attemptAgent := o.bundle.agent })
    (fun p => { p with maxCost := o.definition.limits.maxCost })
    (hs.count (fun hm => hs.rationed hm) fun hm _ => hprice hm) id rfl
  generalize o.modify t _ = o1 at hmoves htenure ⊢
  have hs1 : Sound m (o1.tenure t) := hmoves.sound
  obtain ⟨hL, hzero, hexits, hspare, hclear⟩ : (o1.tenure t).Startable m := by
    rw [htenure]
    exact { hst with }
  have hset := hs1.settled_of_launching hL hzero
  refine hmoves.trans ?_
  cases renderTemplate (o1.heap t).definition.prompt (promptVars (o1.heap t)) with
  | error e =>
    exact moves_failAttempt hs1 hset (hs1.not_dispatching hL.state rfl)
      (fun hm ho => absurd ho (hclear hm)) _ _ _
  | ok prompt =>
    dsimp only
    have hpending : _ = o1.view.update t _ := view_phase (o1.abandonPendingClears
      (o1.heap t).issue.identifier o1.bundle.identity.root).1 t
      (fun r => { r with pending := r.pending + 1 })
      (fun p => { p with pending := p.pending + 1 }) rfl
    refine .of_set (View.update_comp hpending (view_spawn_start _ _ _ _ _ _))
      ((hs1.start hL hzero (by rw [htenure]; exact hepoch) hexits hspare hclear
        (by rw [htenure]; exact hprice) (fun hm => ?_) (fun hm => ?_)
        fun hm => ⟨hclear hm, hs1.startedFrugally hm⟩).astray
        hs1.stray.1 (fun g hg ws => (hs1.ahead g hg).1.strayVerifies ws) ?_ fun g hg id => ?_) rfl
      fun _ => Phase.bound_of_state (.inr (.inl hL.state))
    · exact ⟨pinned_promptVars hs1 (hs1.pinned hm (.inr (.inr (.inr (.inl hL.state))))) _ rfl,
        hs1.startedPinned hm⟩
    · have hlt := (hspare hm).2
      have hmax := (hs1.rationed hm).2.2.1
      have hstarts : ((o1.tenure t).past.starts : Int) <
          m.limits.maxAttempts + m.limits.maxTurns := by omega
      exact ⟨hstarts, hs1.startedWithin hm⟩
    · change _ + (if _ && (o1.heap t).issue.identifier != (o1.heap t).issue.identifier
        then 1 else 0) = 0
      simpa using hs1.stray.2
    · have hzero := (hs1.ahead g hg).1.strayRuns id
      have hne : (o1.heap t).generation ≠ g := Nat.ne_of_lt hg
      change (o1.tenure t).out.strayRuns id g +
        (if (o1.heap t).generation == g && _ then 1 else 0) = 0
      simp [hzero, hne]

lemma moves_onPrepared (h : Sound m ((o.tenure t).sent .prepare))
    (ws : Workspace) (facts err base baseErr) (hpath : m.paths → err = none → ws.path ≠ "") :
    Moves m t o.view (o.onPrepared t ws facts err base baseErr).view := by
  obtain ⟨hL, hzero⟩ := h.came_prepare
  have hcame := h.came_awaited (by decide) rfl
  obtain ⟨hspare, hclear⟩ := h.spare_of_prepare
  have hexits : ¬ (o.tenure t).exits := fun hex => by
    have hnone : ((o.tenure t).out.add .prepare (o.tenure t).gen).prepares (o.tenure t).gen = 0 :=
      (h.exit hex).1.1
    simp [Out.add] at hnone
  have hset := (h.came (by decide)).settled_of_launching hL hzero
  have hcert : ∀ ws, (o.tenure t).past.publishedCertified (o.tenure t).phase.id ws := fun ws =>
    publishedCertified_of_unpublished _
      ((h.came (by decide)).unpublished (by simp [hL.state]) hset.unclassified) _ _
  have hstray : ∀ ws, (o.tenure t).out.strayVerifies ws (o.tenure t).gen = 0 := fun ws =>
    Nat.le_zero.1 (hL.verifies ▸ strayVerifies_le ws _)
  obtain ⟨hmoves, htenure⟩ := moves_modify
    (f := fun r =>
      { r with
        pending := r.pending - 1
        workspace := if ws.path ≠ "" then ws else r.workspace })
    (fun p => { p with
      pending := p.pending - 1, workspace := if ws.path ≠ "" then ws else p.workspace })
    (hcame.setWorkspace _ hL.state hzero (hstray _) (hcert _)) id rfl
  unfold onPrepared
  dsimp only
  generalize o.modify t _ = o1 at hmoves htenure ⊢
  have hs : Sound m (o1.tenure t) := hmoves.sound
  have hst : (o1.tenure t).Startable m := by
    rw [htenure]
    exact ⟨hL, hzero, hexits, hspare, hclear⟩
  have hset1 := hs.settled_of_launching hst.launching hst.launches
  refine hmoves.trans (moves_ite (fun _ => moves_finishIfRequested hs) fun _ => ?_)
  refine moves_ite (fun _ => (moves_modify (fun p => { p with suspended := true })
    hs.suspend id (by rfl)).1) fun _ => ?_
  cases err with
  | some e =>
    refine moves_ite (fun _ => moves_enterEpochFault hs hset1 _) fun _ => ?_
    exact moves_failLaunch hs hset1 (hs.not_dispatching hst.launching.state rfl)
      (fun hm ho => absurd ho (hst.clear hm)) _ _ _
  | none =>
    refine moves_ite (fun _ => moves_enterEpochFault hs hset1 _) fun hguard => ?_
    simp only [Bool.or_eq_true, not_or, decide_eq_true_eq, Bool.not_eq_true,
      bne_eq_false_iff_eq] at hguard
    have hepoch : (o1.tenure t).Epochal m := by
      refine ⟨fun hm => ?_, not_le.1 hguard.1.1.2⟩
      have hworkspace : (o1.tenure t).phase.workspace = ws := by
        rw [htenure]
        exact if_pos (hpath hm rfl)
      rw [hworkspace]
      exact hguard.1.2
    split
    · rename_i hfirst
      have hattempt : (o1.tenure t).phase.attempt = 1 := hfirst.1
      have hfloor := fun hm => (hs.rationed hm).floor (hst.spare hm) hattempt
      obtain ⟨hmoves2, htenure2⟩ := moves_modify (o := o1)
        (f := fun r => { r with attempt := 2, attemptBase := 1 })
        (fun p => { p with attempt := 2, attemptBase := 1 })
        (hs.count (fun hm => (hfloor hm).1) fun hm hp => hs.priced hm hp) id rfl
      generalize o1.modify t _ = o2 at hmoves2 htenure2 ⊢
      refine hmoves2.trans (moves_beginStart hmoves2.sound ?_ ?_) <;> rw [htenure2]
      · exact { hst with spare := fun hm => (hfloor hm).2 }
      · exact hepoch
    · exact moves_beginStart hs hst hepoch

lemma moves_pumpRun (hs : Sound m (o.tenure t)) (hu : (o.tenure t).Unread) (handle) :
    Moves m t o.view (o.pumpRun t handle).view :=
  .of_set (view_spawn_plain rfl rfl (fun _ _ => rfl) fun _ _ => rfl)
    (hs.pump hu.prepared hu.eventsClosed hu.pumps hu.launches) rfl id

/-- The launch came back without a run. -/
lemma moves_onStarted_none (h : Sound m ((o.tenure t).sent .start)) (hfree : o.Free t) (e) :
    Moves m t o.view (o.onStarted t none (some e)).view := by
  obtain ⟨hL, hzero, -, -⟩ := h.came_start
  have hview := view_phase o t (fun r => { r with
      pending := r.pending - 1
      handle := if (none : Option Handle).isSome then none else r.handle })
    (fun p => { p with pending := p.pending - 1 }) rfl
  have hfreed := view_freed hview (by rw [View.update_tenure_self]; exact hfree)
  unfold onStarted
  simp only [Option.isSome_some, Option.isNone_none, Bool.and_self, if_true]
  generalize (o.modify t _).freeWorkspaceMarker t = o1 at hfreed ⊢
  have hmoves : Moves m t o.view o1.view := .of_set hfreed (h.start_gone hfree) rfl id
  have htenure := tenure_of_update hfreed
  have hs : Sound m (o1.tenure t) := hmoves.sound
  have hL1 : (o1.tenure t).Launching := by
    rw [htenure]
    exact hL
  have hset := hs.settled_of_launching hL1 (by rw [htenure]; exact hzero)
  refine hmoves.trans (moves_ite (fun _ => moves_finishIfRequested hs) fun _ => ?_)
  refine moves_ite (fun _ => (moves_modify (fun p => { p with suspended := true })
    hs.suspend id (by rfl)).1) fun _ => ?_
  refine moves_failLaunch hs hset (hs.not_dispatching hL1.state rfl) ?_ _ _ _
  rw [htenure]
  exact fun hm ho => absurd ho (h.price_of_start hm).2

/-- The launch came back with a run. -/
lemma moves_onStarted_some (h : Sound m ((o.tenure t).sent .start)) :
    Moves m t o.view (o.onStarted t (some (o.heap t).generation) none).view := by
  obtain ⟨hL, hzero, hepoch, -⟩ := h.came_start
  have hview := view_phase o t (fun r => { r with
      pending := r.pending - 1
      handle := if (some (o.heap t).generation).isSome then some (o.heap t).generation
        else r.handle })
    (fun p => { p with pending := p.pending - 1, handle := some (o.heap t).generation }) rfl
  have hmoves : Moves m t o.view _ := .of_set hview h.start_returned rfl id
  have htenure := tenure_of_update hview
  unfold onStarted
  simp only [Option.isSome_none, Bool.false_and, Bool.false_eq_true, if_false]
  generalize (o.heap t).generation = g at hmoves htenure ⊢
  generalize o.modify t _ = o1 at hmoves htenure ⊢
  have hs : Sound m (o1.tenure t) := hmoves.sound
  have hunread : (o1.tenure t).Unread := by
    rw [htenure]
    exact ⟨hL.prepared, hL.eventsClosed, hL.pumps, hzero⟩
  refine hmoves.trans (moves_ite (fun _ => moves_finishIfRequested hs) fun _ => ?_)
  refine moves_ite (fun _ => ?_) fun _ => ?_
  · have hsuspended : ((o1.modify t fun r => { r with suspended := true }).modify t fun r =>
        { r with ranThisAttempt := true }).view =
        o1.view.update t fun v => { v with phase := { v.phase with suspended := true } } :=
      (view_modify_of_phase rfl).trans
        (view_modify_phase rfl (fun p => { p with suspended := true }) rfl)
    have hmoves2 : Moves m t o1.view _ := .of_set hsuspended hs.suspend rfl id
    have htenure2 := tenure_of_update hsuspended
    refine hmoves2.trans (moves_pumpRun hmoves2.sound ?_ _)
    rw [htenure2]
    exact { hunread with }
  · have hstate : (o1.heap t).state = .preparing :=
      (congrArg (fun v : Tenure => v.phase.state) htenure).trans hL.state
    have hallowed : allowed (o1.heap t).state .running := by rw [hstate]; rfl
    have hmoved := view_transitionCaused_of_ne_done hallowed (by decide)
      (transitionReason .preparing .running) .none
    unfold transition
    simp only [transitionCaused_snd, hallowed]
    generalize (o1.transitionCaused t .running _ .none).1 = o2 at hmoved ⊢
    have hran : (o2.modify t fun r => { r with ranThisAttempt := true }).view =
        o1.view.update t fun v => { v with phase := { v.phase with state := .running } } :=
      (view_modify_of_phase rfl).trans hmoved
    have hmoves2 : Moves m t o1.view _ :=
      .of_set hran (hs.run hstate hunread.prepared hunread.launches (by rw [htenure]; exact hepoch)
        (by rw [htenure]; exact hL.budgetStop) (by rw [htenure]; exact hL.outcome)
        (by rw [htenure]; exact fun hm => (h.price_of_start hm).2)
        (by rw [htenure]; exact fun hm => (h.price_of_start hm).1)) rfl
        fun _ => Phase.bound_of_state (.inr (.inl hstate))
    have htenure2 := tenure_of_update hran
    refine hmoves2.trans (moves_pumpRun hmoves2.sound ?_ _)
    rw [htenure2]
    exact { hunread with }

end Orchestrator

end Ben
