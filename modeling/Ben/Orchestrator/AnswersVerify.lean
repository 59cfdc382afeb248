import Ben.Orchestrator.AnswersRun

/-!
# Timers and verdicts keep the invariant

A fired timer re-reads everything a dispatch depends on, and a verdict decides where a finished
attempt goes.  Both are sound work on their tenure, given that a slot is free where one is taken
and that the verifier was asked about the record's own workspace.
-/

namespace Ben

variable [Platform]

/-- The verifier's word is in the history, for the workspace of the claim's epoch. -/
structure Tenure.Publishable (m : Mode) (v : Tenure) : Prop where
  state : v.phase.state = .done ∨ v.phase.unclassified = true
  certified : v.past.certified v.phase.id v.phase.workspace
  epochal : v.Epochal m

namespace Orchestrator

variable {m : Mode} {o : Orchestrator} {t : Token}

/-! ## Timers -/

lemma moves_onTimer (h : Sound m ((o.tenure t).sent .timer)) (kind) :
    Moves m t o.view (o.onTimer t kind).view :=
  .of_set (view_spawn_plain rfl rfl (fun _ _ => rfl) fun _ _ => rfl) h rfl id

lemma moves_rearm (h : Sound m ((o.tenure t).sent .timer)) (kind) :
    Moves m t o.view (o.rearm t kind).view :=
  .of_set (view_armTimer o t kind) h rfl id

/-- A record a timer has fired for is settled. -/
lemma settled_of_waiting (hs : Sound m (o.tenure t)) (hw : (o.tenure t).Waiting)
    (htimers : (o.tenure t).out.timers (o.tenure t).gen = 0) : (o.tenure t).Settled :=
  hs.settled_of_unprepared hw.unprepared htimers
    (Nat.eq_zero_of_not_pos fun hc => by
      have hq := (hs.claiming hc).2.1
      rcases hw.state with ⟨hb, -⟩ | hb <;> simp [hq] at hb)
    (by
      by_contra hu
      have hq := (hs.unclassified (Bool.eq_true_of_not_eq_false hu)).1
      rcases hw.state with ⟨hb, -⟩ | hb <;> simp [hq] at hb)

/-- A record a timer has fired for dispatches nothing yet. -/
lemma not_dispatching_of_waiting (hs : Sound m (o.tenure t)) (hw : (o.tenure t).Waiting) :
    (o.tenure t).phase.claimBaseDispatch = false := by
  rcases hw.state with ⟨-, hd⟩ | hv
  · exact hd
  · exact hs.not_dispatching hv rfl

/-- A record that has, or is bound to have, an agent occupies a slot. -/
lemma occupiesSlot_of_bound (r : Record) (h : r.phase.bound) : occupiesSlot r := by
  revert h
  cases hs : r.state <;> simp [Phase.bound, occupiesSlot, Record.phase, hs]

lemma slots_le_runningCount (o : Orchestrator) : o.view.slots ≤ o.runningCount :=
  List.countP_mono_left fun e _ h => occupiesSlot_of_bound (o.heap e.2) h

/-- While a slot is free by the loop's own count, one is. -/
lemma slots_lt_of_freeSlots {definition : Definition} (h : ¬ o.freeSlots definition ≤ 0) :
    (o.view.slots : Int) < definition.limits.maxConcurrentAgents := by
  have hle := slots_le_runningCount o
  unfold freeSlots at h
  dsimp only at h
  split at h <;> omega

lemma moves_redispatch (hs : Sound m (o.tenure t)) (hw : (o.tenure t).Waiting)
    (htimers : (o.tenure t).out.timers (o.tenure t).gen = 0) (hkeyed : o.view.Keyed)
    (hslot : m.capped → (o.view.slots : Int) < m.cap) (hatt : (o.tenure t).attached)
    (hleave : (o.tenure t).phase.leaving = false) (hpin : m.pinned → (o.tenure t).Pinned)
    (hturn : m.rationed → (o.heap t).state = .verifying → (o.heap t).turns < m.limits.maxTurns) :
    Moves m t o.view (o.redispatch t).view := by
  have hset := settled_of_waiting hs hw htimers
  have hcount := fun hm => (hs.rationed hm).count (c := o.definition.limits.maxCost)
    (n := if (o.heap t).state = .verifying then (o.heap t).turns + 1 else (o.heap t).turns) (by
      rcases hw.state with ⟨hb, -⟩ | hv
      · exact .inl ⟨hb, if_neg fun hv => absurd (hb.symm.trans hv) (by decide)⟩
      · exact .inr ⟨hv, if_pos hv, hturn hm hv⟩) htimers
  unfold redispatch
  dsimp only
  have hview := view_phase o t (fun r => { r with
      turns := if (o.heap t).state = .verifying then r.turns + 1 else r.turns
      attempt := r.attempt + 1, definition := o.definition })
    (fun p => { p with
      turns := if (o.heap t).state = .verifying then p.turns + 1 else p.turns
      attempt := p.attempt + 1, maxCost := o.definition.limits.maxCost }) rfl
  have hslots := slots_le_of_update hview id
  have hmoves : Moves m t o.view _ := .of_set hview
    (hs.count (fun hm => (hcount hm).1) fun _ hp => ?_) rfl id
  · have htenure := tenure_of_update hview
    generalize o.modify t _ = o1 at hslots hmoves htenure ⊢
    refine hmoves.trans (moves_dispatch hmoves.sound ?_ (hmoves.keyed hkeyed)
      (fun hc => .inr ?_) _)
    · rw [htenure]
      exact ⟨{ hset with }, hw.unprepared, hatt, hleave, not_dispatching_of_waiting hs hw, hpin,
        fun hm => (hcount hm).2,
        fun hm ho => nomatch hleave.symm.trans (hs.leaving_of_waiting hw hm ho)⟩
    · have := hslot hc
      omega
  · rcases hp with hp | hp
    · exact absurd hp (hs.idle_of_settled hset).2.1.not_gt
    · rcases hw.state with ⟨hb, -⟩ | hb <;> cases hb.symm.trans hp

lemma moves_redispatchUnderEpoch (h : Sound m ((o.tenure t).sent .timer)) (hkeyed : o.view.Keyed)
    (hslot : m.capped → (o.view.slots : Int) < m.cap) (hatt : (o.tenure t).attached)
    (hleave : (o.tenure t).phase.leaving = false) (hpin : m.pinned → (o.tenure t).Pinned)
    (kind principal s) :
    Moves m t o.view (o.redispatchUnderEpoch t kind principal s).view := by
  obtain ⟨hw, htimers⟩ := h.came_timer
  have hs : Sound m (o.tenure t) := h.came (by decide)
  have hset := settled_of_waiting hs hw htimers
  unfold redispatchUnderEpoch
  dsimp only
  refine moves_ite (fun _ => moves_enterEpochFault hs hset _) fun _ => ?_
  refine moves_ite (fun hepoch => ?_) fun _ => ?_
  · have hbackoff : (o.tenure t).phase.state = .backoff := by
      rcases hw.state with ⟨hb, -⟩ | hv
      · exact hb
      · have hpos : 0 < (o.heap t).claimEpoch := (hs.epochal (.inr (.inr (.inl hv)))).2
        omega
    obtain ⟨hmoves, htenure⟩ := moves_modify (o := o) (t := t) (f := fun r =>
      { r with
        claimEpoch := claimCycleAnchor s.history principal, claimBaseDispatch := true
        definition := o.definition })
      (fun p => { p with
        claimEpoch := claimCycleAnchor s.history principal, claimBaseDispatch := true
        maxCost := o.definition.limits.maxCost })
      ((hs.count (c := o.definition.limits.maxCost) (fun hm => hs.rationed hm) fun hm _ =>
        congrArg Limits.maxCost (hs.limits (.inr hm))).setEpoch hset.claims hset.unclassified
          (.inr ⟨hbackoff, htimers⟩) hpin fun _ hq => nomatch hbackoff.symm.trans hq)
      (fun hb => by simp [Phase.bound, hbackoff] at hb) rfl
    refine hmoves.trans (moves_beginClaimBase hmoves.sound ?_ fun hq => ?_)
    · rw [htenure]
      exact hpin
    · rw [heap_modify_self] at hq
      cases hbackoff.symm.trans hq
  refine moves_ite (fun _ => moves_enterEpochFault hs hset _) fun _ => ?_
  refine moves_ite (fun _ => moves_enterEpochFault hs hset _) fun _ => ?_
  cases timerClaimBaseGate (o.heap t) (claimCycleAnchor s.history principal) s with
  | none =>
    exact moves_redispatch hs hw htimers hkeyed hslot hatt hleave hpin fun hm => h.turn_of_timer hm
  | some why =>
    cases why with
    | none => exact moves_rearm h kind
    | some why => exact moves_enterEpochFault hs hset why

/-- What a fired timer's reads leave of a record whose content passed the check: routing is
adopted. -/
lemma view_adoptApproved (o : Orchestrator) (t fresh a) :
    ((o.note (.approved t a)).modify t fun r => r.adoptRouting fresh).view =
      o.view.update t fun v => { v with past := { v.past with approval := some a } } :=
  (view_modify_of_phase rfl).trans (view_note_approved o t a)

/-- A record whose content passed the check goes on to be dispatched, or waits on. -/
lemma moves_timerApproved (h : Sound m ((o.tenure t).sent .timer)) (hkeyed : o.view.Keyed)
    (hcap : m.capped → o.definition.limits.maxConcurrentAgents = m.cap)
    (hatt : (o.tenure t).attached) (hleave : (o.tenure t).phase.leaving = false)
    (hpin : m.pinned → (o.tenure t).Pinned) (kind principal s) :
    Moves m t o.view (if o.cur.blocked.isSome then o.rearm t kind
      else if o.freeSlots o.definition ≤ 0 then
        if (o.heap t).state = .backoff then
          if !(o.transition t .backoff (transitionReason .backoff .backoff)).2 then
            (o.transition t .backoff (transitionReason .backoff .backoff)).1
          else (o.transition t .backoff (transitionReason .backoff .backoff)).1.rearm t kind
        else o.rearm t kind
      else o.redispatchUnderEpoch t kind principal s).view := by
  refine moves_ite (fun _ => moves_rearm h kind) fun _ => ?_
  refine moves_ite (fun _ => ?_) fun hslots => ?_
  · refine moves_ite (fun hbackoff => ?_) fun _ => moves_rearm h kind
    have hallowed : allowed (o.heap t).state .backoff := by rw [hbackoff]; rfl
    have hmoved := view_transitionCaused_of_ne_done hallowed (by decide)
      (transitionReason .backoff .backoff) .none
    have hsame : (o.view.update t fun v => { v with phase := { v.phase with state := .backoff } }) =
        o.view := View.update_eq_self _ _ _ (by
      have hstate : (o.view.tenure t).phase.state = .backoff := hbackoff
      rw [← hstate])
    rw [hsame] at hmoved
    unfold transition
    simp only [transitionCaused_snd, hallowed]
    generalize (o.transitionCaused t .backoff _ .none).1 = o1 at hmoved ⊢
    have htenure := tenure_of_view hmoved t
    rw [← hmoved]
    exact moves_rearm (by rw [htenure]; exact h) kind
  · refine moves_redispatchUnderEpoch h hkeyed (fun hc => ?_) hatt hleave hpin kind principal s
    rw [← hcap hc]
    exact slots_lt_of_freeSlots hslots

lemma moves_onTimerFetched (h : Sound m ((o.tenure t).sent .timer)) (hkeyed : o.view.Keyed)
    (hcap : m.capped → o.definition.limits.maxConcurrentAgents = m.cap)
    (hatt : (o.tenure t).attached) (kind) (revision : Nat) (required principal) (s : TimerReads)
    (hpos : m.pinned → ∀ a, checkApproval s.history required s.approval = .ok a → 0 < a.at_) :
    Moves m t o.view (o.onTimerFetched t kind revision required principal s).view := by
  obtain ⟨hw, htimers⟩ := h.came_timer
  have hs : Sound m (o.tenure t) := h.came (by decide)
  have hset := settled_of_waiting hs hw htimers
  have hidle := hs.idle_of_settled hset
  unfold onTimerFetched
  refine moves_guard hs fun hexiting => ?_
  have hexiting : (o.heap t).exiting = false := by simpa using hexiting
  refine moves_ite (fun _ => moves_rearm h kind) fun _ => ?_
  refine moves_ite (fun _ => ?_) fun _ => ?_
  · obtain ⟨hleave, hleft⟩ := moves_gone hs
    refine hleave.trans (moves_finishNow hleave.sound ?_ _ _)
    rw [hleft]
    exact hidle
  cases s.err with
  | some e => exact moves_rearm h kind
  | none =>
    cases s.refetched with
    | none => exact .of_eq rfl hs
    | some fresh =>
      dsimp only
      refine moves_ite (fun _ => moves_finishNow hs hidle _ _) fun _ => ?_
      refine moves_ite (fun _ => moves_finishNow hs hidle _ _) fun _ => ?_
      cases hcheck : checkApproval s.history required s.approval with
      | error e =>
        exact moves_enterNeedsReview hs hset
          (fun hd => nomatch (not_dispatching_of_waiting hs hw).symm.trans hd) _ _
      | ok approved =>
        dsimp only
        have hleave := (not_exiting hexiting).1
        by_cases hlater : approved.at_ > (((o.note (.approved t approved)).modify t fun r =>
            r.adoptRouting fresh).heap t).approvedAt
        · rw [if_pos hlater]
          have hview := view_pin (view_adoptApproved o t fresh approved)
          have hmoves : Moves m t o.view _ := .of_set hview (hs.pinContent approved) rfl id
          have htenure := tenure_of_update hview
          refine hmoves.trans (moves_timerApproved ?_ (hmoves.keyed hkeyed) hcap ?_ ?_ (fun _ => ?_)
            _ _ _) <;> rw [htenure]
          · exact h.pinContent approved
          · exact hatt
          · exact hleave
          · exact ⟨approved, rfl⟩
        · rw [if_neg hlater]
          have hearlier : approved.at_ ≤ (o.tenure t).phase.approvedAt := by
            rw [heap_modify_self] at hlater
            exact not_lt.1 hlater
          have hle : ∀ a, (o.tenure t).past.pin = some a → approved.at_ ≤ a.at_ := fun a ha =>
            (hs.pin a ha).2.2 ▸ hearlier
          have hview := view_adoptApproved o t fresh approved
          have hmoves : Moves m t o.view _ := .of_set hview (hs.approve hle) rfl id
          have htenure := tenure_of_update hview
          refine hmoves.trans (moves_timerApproved ?_ (hmoves.keyed hkeyed) hcap ?_ ?_
            (fun hm => ?_) _ _ _) <;> rw [htenure]
          · exact h.approve hle
          · exact hatt
          · exact hleave
          · cases hpin : (o.tenure t).past.pin with
            | some a => exact ⟨a, hpin⟩
            | none =>
              have hzero := hs.unpinned hpin
              have := hpos hm approved hcheck
              rw [hzero] at hearlier
              exact absurd hearlier (not_le.2 this)

/-! ## Published work -/

/-- An act that treats work as published, and otherwise at most relies on nothing running. -/
lemma past_cons_publishes {t trace} {a : Act} (hpub : a.publishes t)
    (hprep : ∀ g, a.prepares t g = false) (hlive : ∀ l, a.onLive t l = l) (hpin : a.pin t = none)
    (happroval : a.approval t = none) (hstart : a.startVars t = none)
    (hverifier : ∀ id ws, a ≠ .verifier id ws .published) (hterm : ∀ g, a.terminates t g = false)
    (hcost : a.cost t = none) (hrequeue : a.requeues t = false) :
    past t (a :: trace) =
      { past t trace with
        published := True
        reliedWhenFree := (a.relies t → live t trace = []) ∧ ReliedWhenFree t trace
        publishedCertified := fun id ws =>
          (Certified id ws trace ∧ ∀ ws' ∈ a.publishedWorkspace, ws' = ws) ∧
            PublishedCertified t id ws trace } := by
  rw [past_cons]
  simp only [hpub, hprep, hlive, hpin, happroval, hstart, hverifier, hterm, hcost, hrequeue]
  simp [past]

/-- Owing an effect that treats certified work as published. -/
lemma view_owe_published (o : Orchestrator) {eff : OwedEffect} (hexit : isExit eff.what = false)
    (hpub : (Act.owes t eff).publishes t)
    (hws : ∀ ws' ∈ (Act.owes t eff).publishedWorkspace, ws' = (o.heap t).workspace)
    (hrelies : (Act.owes t eff).relies t → o.Free t)
    (hfree : (o.tenure t).past.reliedWhenFree)
    (hcert : (o.tenure t).past.certified (o.tenure t).phase.id (o.tenure t).phase.workspace)
    (hpublished : (o.tenure t).past.publishedCertified (o.tenure t).phase.id
      (o.tenure t).phase.workspace) :
    ∃ R C, (o.oweEffect t eff).view = o.view.update t (fun v => { v with past := { v.past with
        published := True, reliedWhenFree := R, publishedCertified := C } }) ∧
      R ∧ C (o.tenure t).phase.id (o.tenure t).phase.workspace := by
  refine ⟨((Act.owes t eff).relies t → live t o.trace = []) ∧ ReliedWhenFree t o.trace,
    fun id ws => (Certified id ws o.trace ∧
      ∀ ws' ∈ (Act.owes t eff).publishedWorkspace, ws' = ws) ∧ PublishedCertified t id ws o.trace,
    ?_, ⟨hrelies, hfree⟩, ⟨⟨hcert, hws⟩, hpublished⟩⟩
  rw [view_oweEffect, past_cons_publishes hpub (fun _ => rfl) (fun _ => rfl) rfl rfl rfl
    (fun _ _ => nofun) (fun _ => rfl) rfl rfl]
  simp only [hexit, Bool.false_eq_true, or_false]
  rfl

lemma moves_owe_published (eff : OwedEffect) (hs : Sound m (o.tenure t))
    (hp : (o.tenure t).Publishable m) (hexit : isExit eff.what = false)
    (hpub : (Act.owes t eff).publishes t)
    (hws : ∀ ws' ∈ (Act.owes t eff).publishedWorkspace, ws' = (o.heap t).workspace)
    (hrelies : (Act.owes t eff).relies t → o.Free t) :
    Moves m t o.view (o.oweEffect t eff).view ∧
      ((o.oweEffect t eff).tenure t).phase = (o.tenure t).phase ∧
      ((o.oweEffect t eff).tenure t).Publishable m := by
  obtain ⟨hstate, hcert, hepoch⟩ := hp
  obtain ⟨R, C, hview, hR, hC⟩ := view_owe_published o hexit hpub hws hrelies hs.reliedWhenFree
    hcert hs.publishedCertified
  refine ⟨.of_set hview (hs.republish hstate hcert hepoch hR hC) rfl id, ?_, ?_⟩ <;>
    rw [tenure_of_update hview]
  exact ⟨hstate, hcert, hepoch⟩

/-- Owing the disposal of published work. -/
lemma moves_disposePublished (hs : Sound m (o.tenure t))
    (hstate : (o.tenure t).phase.state = .done) (hp : (o.tenure t).Publishable m) :
    Moves m t o.view (o.disposePublished t).view := by
  have hidle := hs.idle_of_state hstate rfl
  unfold disposePublished oweDisposal
  dsimp only
  refine moves_guard hs fun _ => ?_
  have hview : (o.modify t fun r => { r with disposalOwed := true }).view = o.view :=
    view_modify_of_phase rfl
  have hworkspace : ((o.modify t fun r => { r with disposalOwed := true }).heap t).workspace =
      (o.heap t).workspace := by simp
  generalize o.modify t _ = o1 at hview hworkspace ⊢
  have htenure := tenure_of_view hview t
  rw [← hview]
  refine (moves_owe_published _ (htenure ▸ hs) (htenure ▸ hp)
    (show isExit "dispose workspace" = false by decide) ?_ ?_ fun _ => ?_).1
  · simp
  · intro ws' hws'
    simp only [Act.publishedWorkspace, Option.mem_some_iff] at hws'
    rw [hworkspace, hws']
  · exact (congrArg (fun v : Tenure => v.past.live) htenure).trans hidle.2.2

/-! ## Verdicts -/

/-- Entering done is in the history. -/
lemma view_transition_done (hallowed : allowed (o.heap t).state .done) (reason) :
    (o.transition t .done reason).1.view = o.view.update t fun v =>
      { v with
        phase := { v.phase with state := .done }
        past := { v.past with
          published := True
          publishedCertified := fun id ws =>
            Certified id ws o.trace ∧ v.past.publishedCertified id ws } } := by
  obtain ⟨entry, htarget, hview⟩ := view_transitionCaused hallowed reason .none
  have hpub : (Act.entered t entry).publishes t := by simp [htarget]
  refine hview.trans ?_
  rw [past_cons_publishes hpub (fun _ => rfl) (fun _ => rfl) rfl rfl rfl (fun _ _ => nofun)
    (fun _ => rfl) rfl rfl]
  simp only [Act.relies, Bool.false_eq_true, false_implies, true_and, Act.publishedWorkspace,
    Option.not_mem_none, implies_true, and_true]
  rfl

/-- With another turn allowed, one is left. -/
lemma turns_lt_of_continuable (hs : Sound m (o.tenure t)) (h : o.continuable t) (hm : m.rationed) :
    (o.heap t).turns < m.limits.maxTurns := by
  have hlimits : o.definition.limits = m.limits := hs.limits (.inl hm)
  rw [← hlimits]
  exact of_decide_eq_true h

lemma moves_applyVerdict (hs : Sound m (o.tenure t)) (hV : (o.tenure t).Verifying)
    (hnone : (o.tenure t).out.verifies (o.tenure t).gen = 0)
    (hretry : (o.tenure t).phase.verifyRetry = false) (hwithin : (o.tenure t).Within m)
    (verify : VerifyResult)
    (hcert : verify.verdict = .published →
      (o.tenure t).past.certified (o.tenure t).phase.id (o.tenure t).phase.workspace) :
    Moves m t o.view (o.applyVerdict t verify).view := by
  have hzero := hs.no_launch (by simp [hV.state])
  have hset := hs.settled_of_summarized hV.prepared hzero hV.handle hV.summarized hnone hretry
    fun ho => by simp [hV.outcome] at ho
  have hd : (o.tenure t).phase.claimBaseDispatch → (o.tenure t).phase.epochFaulted := fun h =>
    nomatch (hs.not_dispatching hV.state rfl).symm.trans h
  unfold applyVerdict
  cases hverdict : verify.verdict with
  | contradicted => exact moves_enterNeedsReview hs hset hd _ _
  | unknown => exact moves_enterNeedsReview hs hset hd _ _
  | incomplete =>
    dsimp only
    refine moves_ite (fun _ => moves_enterNeedsReview hs hset hd _ _) fun hcont => ?_
    have hnext := view_phase o t (fun r =>
        { r.forgetAccount with
          sessionID := "", generation := r.generation + 1, failureReason := .none })
      (fun p => { p with generation := p.generation + 1 }) rfl
    refine .of_set (View.update_comp hnext (view_armTimer _ _ _)) ?_ rfl id
    have hsound := hs.nextAttempt hset (by simp [hV.state]) (o.tenure t).phase.stopping
      (.inr ⟨rfl, hV.state⟩)
      (fun hm => ⟨nofun, fun _ => turns_lt_of_continuable hs (by simpa using hcont) hm⟩)
      hwithin
    rw [← hV.state] at hsound
    exact hsound
  | published =>
    have hstate : (o.heap t).state = .verifying := hV.state
    have hallowed : allowed (o.heap t).state .done := by rw [hstate]; rfl
    have hview := view_transition_done hallowed (transitionReason .verifying .done)
    have hsnd : (o.transition t .done (transitionReason .verifying .done)).2 := by
      simp [transition, hallowed]
    have hmoves : Moves m t o.view _ := .of_set hview
      (hs.done hV hnone hretry (hcert hverdict) hset.timers hset.summaries
        ⟨hcert hverdict, hs.publishedCertified⟩) rfl fun h => by simp [Phase.bound] at h
    have htenure := tenure_of_update hview
    dsimp only
    simp only [hsnd, Bool.not_true, Bool.false_eq_true, if_false]
    generalize (o.transition t .done (transitionReason .verifying .done)).1 = o1
      at hmoves htenure ⊢
    have hurl : (o1.modify t fun r => { r with prURL := verify.prURL }).view = o1.view :=
      view_modify_of_phase rfl
    generalize o1.modify t _ = o2 at hurl ⊢
    have htenure2 : o2.tenure t = _ := (tenure_of_view hurl t).trans htenure
    have hs2 : Sound m (o2.tenure t) := (tenure_of_view hurl t) ▸ hmoves.sound
    have hp : (o2.tenure t).phase.state = .done ∧ (o2.tenure t).Publishable m := by
      rw [htenure2]
      exact ⟨rfl, .inl rfl, hcert hverdict, hs.epochal (.inr (.inr (.inl hV.state)))⟩
    refine hmoves.trans ?_
    rw [← hurl]
    obtain ⟨hcomment, hphase, hp2⟩ := moves_owe_published
      ⟨"comment " ++ Milestone.name .published, .tracker, false,
        .comment (o2.heap t).issue { milestone := .published, prURL := verify.prURL }⟩ hs2 hp.2
      (isExit_comment _) (by simp) (by simp [Act.publishedWorkspace]) (by simp)
    exact hcomment.trans
      (moves_disposePublished hcomment.sound ((congrArg Phase.state hphase).trans hp.1) hp2)

lemma moves_onVerified (h : Sound m ((o.tenure t).sent .verify)) (s : VerifySignal)
    (hcert : s.answered → s.verify.verdict = .published →
      (o.tenure t).past.certified (o.tenure t).phase.id (o.tenure t).phase.workspace) :
    Moves m t o.view (o.onVerified t s).view := by
  obtain ⟨hV, hnone, hretry⟩ := h.came_verify
  obtain ⟨hmoves, htenure⟩ := moves_modify (f := fun r => { r with pending := r.pending - 1 })
    (fun p => { p with pending := p.pending - 1 }) (h.came_awaited (by decide) rfl) id rfl
  unfold onVerified
  dsimp only
  generalize o.modify t _ = o1 at hmoves htenure ⊢
  have hs : Sound m (o1.tenure t) := hmoves.sound
  have hV1 : (o1.tenure t).Verifying := by
    rw [htenure]
    exact hV
  have hnone1 : (o1.tenure t).out.verifies (o1.tenure t).gen = 0 := by
    rw [htenure]
    exact hnone
  have hretry1 : (o1.tenure t).phase.verifyRetry = false := by
    rw [htenure]
    exact hretry
  have hcert1 : s.answered → s.verify.verdict = .published →
      (o1.tenure t).past.certified (o1.tenure t).phase.id (o1.tenure t).phase.workspace := by
    rw [htenure]
    exact hcert
  have hzero := hs.no_launch (by simp [hV1.state])
  have hset := hs.settled_of_summarized hV1.prepared hzero hV1.handle hV1.summarized hnone1
    hretry1 fun ho => by simp [hV1.outcome] at ho
  have hd : (o1.tenure t).phase.claimBaseDispatch → (o1.tenure t).phase.epochFaulted := fun hd =>
    nomatch (hs.not_dispatching hV1.state rfl).symm.trans hd
  have hwithin : (o1.tenure t).Within m := by
    rw [htenure]
    exact fun hm ho => h.leaving_of_verify hm ho
  have hagain : Moves m t o1.view (o1.retryVerify t).view :=
    (moves_modify (fun p => { p with verifyRetry := true }) (hs.retryVerify hV1 hnone1 hwithin) id
      (by rfl)).1
  refine hmoves.trans (moves_ite (fun _ => moves_finishIfRequested hs) fun _ => ?_)
  refine moves_guard hs fun _ => ?_
  cases hfault : s.epochFault with
  | some detail =>
    have hview : ((o1.attemptEnded t).recordAttempt t .none .unknown).view = o1.view := by simp
    dsimp only
    generalize (o1.attemptEnded t).recordAttempt t .none .unknown = o2 at hview ⊢
    have htenure2 := tenure_of_view hview t
    rw [← hview]
    exact moves_enterEpochFault (htenure2 ▸ hs) (htenure2 ▸ hset) _
  | none =>
    dsimp only
    refine moves_ite (fun _ => ?_) fun _ => ?_
    · obtain ⟨hleave, hleft⟩ := moves_gone hs
      refine hleave.trans (moves_finishNow hleave.sound ?_ _ _)
      rw [hleft]
      exact hs.idle_of_handle hV1.handle hzero
    refine moves_ite (fun _ => hagain) fun _ => ?_
    refine moves_ite (fun _ => hagain) fun _ => ?_
    refine moves_ite (fun _ => hagain) fun _ => ?_
    have hended : ∀ verdict, (((o1.attemptEnded t).modify t fun r =>
        r.recordAccount r.lastOutcome).recordAttempt t .none verdict).view = o1.view := fun _ => by
      rw [view_recordAttempt, view_modify_of_phase rfl, view_attemptEnded]
    cases herr : s.err with
    | some e =>
      have hview := hended .unknown
      dsimp only
      generalize ((o1.attemptEnded t).modify t _).recordAttempt t .none .unknown = o2 at hview ⊢
      have htenure2 := tenure_of_view hview t
      rw [← hview]
      exact moves_enterNeedsReview (htenure2 ▸ hs) (htenure2 ▸ hset) (htenure2 ▸ hd) _ _
    | none =>
      have hview := hended s.verify.verdict
      dsimp only
      generalize ((o1.attemptEnded t).modify t _).recordAttempt t .none s.verify.verdict = o2
        at hview ⊢
      have htenure2 := tenure_of_view hview t
      rw [← hview]
      refine moves_applyVerdict (htenure2 ▸ hs) (htenure2 ▸ hV1) (htenure2 ▸ hnone1)
        (htenure2 ▸ hretry1) (htenure2 ▸ hwithin) _ fun hp => ?_
      rw [htenure2]
      exact hcert1 (by simp [VerifySignal.answered, herr, hfault]) hp

end Orchestrator

end Ben
