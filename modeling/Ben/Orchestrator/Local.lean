import Ben.Orchestrator.MovesBudget

/-!
# Work on one tenure

Almost everything the loop does is done to one record.  A piece of such work leaves the other
tenures as they were, keeps the invariant of its own, and stays within the slots; this module
says so once, and shows it of the pieces that the handlers of the loop are made of.
-/

namespace Ben

variable [Platform]

/-! ## Moves -/

/-- A piece of work on one tenure. -/
structure Moves (m : Mode) (t : Token) (V V' : View) : Prop where
  only : V' = V.set t (V'.tenure t)
  sound : Sound m (V'.tenure t)
  id : (V'.tenure t).phase.id = (V.tenure t).phase.id
  slots : m.capped → (V'.slots : Int) ≤ max (V.slots : Int) m.cap

namespace Moves

variable {m : Mode} {t : Token} {V V' V'' : View} {v : Tenure}

lemma of_set (heq : V' = V.set t v) (hv : Sound m v) (hid : v.phase.id = (V.tenure t).phase.id)
    (hbound : v.phase.bound → (V.tenure t).phase.bound) : Moves m t V V' := by
  subst heq
  exact ⟨by simp, by simpa using hv, by simpa using hid,
    fun _ => (Int.ofNat_le.2 (View.slots_set_le hbound)).trans (le_max_left _ _)⟩

/-- A tenure may come to need a slot while one is free. -/
lemma of_slot (hkeyed : V.Keyed)
    (hslot : m.capped → (V.tenure t).phase.bound ∨ (V.slots : Int) < m.cap)
    (heq : V' = V.set t v) (hv : Sound m v) (hid : v.phase.id = (V.tenure t).phase.id) :
    Moves m t V V' := by
  subst heq
  refine ⟨by simp, by simpa using hv, by simpa using hid, fun hc => ?_⟩
  rcases hslot hc with hbound | hfree
  · exact (Int.ofNat_le.2 (View.slots_set_le fun _ => hbound)).trans (le_max_left _ _)
  · have hle : (V.set t v).slots ≤ V.slots + 1 := View.slots_set_le_succ hkeyed
    exact le_trans (by omega) (le_max_right (V.slots : Int) m.cap)

lemma of_eq (heq : V' = V) (hs : Sound m (V.tenure t)) : Moves m t V V' := by
  subst heq
  exact ⟨by simp, hs, rfl, fun _ => le_max_left _ _⟩

variable (h : Moves m t V V')

include h

lemma trans (h' : Moves m t V' V'') : Moves m t V V'' where
  only := by
    conv_lhs => rw [h'.only, h.only, View.set_set]
  sound := h'.sound
  id := h'.id.trans h.id
  slots hc := (h'.slots hc).trans (max_le (h.slots hc) (le_max_right _ _))

/-- Work on a tenure that has begun keeps the invariant of all. -/
lemma keeps (hV : Good m V) (hborn : t ≤ V.next) : Keeps m V V' := by
  refine ⟨?_, h.slots⟩
  rw [h.only]
  exact hV.set hborn h.sound h.id

lemma records : V'.records = V.records := by
  rw [h.only, View.set_records]

lemma tenure_of_ne {t'} (hne : t' ≠ t) : V'.tenure t' = V.tenure t' := by
  rw [h.only, View.set_tenure_of_ne _ _ _ hne]

lemma keyed (hkeyed : V.Keyed) : V'.Keyed := by
  intro e he
  rw [h.records] at he
  by_cases ht : e.2 = t
  · rw [← hkeyed e he, ht]
    exact h.id
  · rw [h.tenure_of_ne ht]
    exact hkeyed e he

end Moves

namespace Orchestrator

variable {m : Mode} {o : Orchestrator} {t : Token}

/-- Either way of a branch is sound work. -/
lemma moves_ite {V} {o1 o2 : Orchestrator} {c : Prop} [Decidable c] (hpos : c → Moves m t V o1.view)
    (hneg : ¬ c → Moves m t V o2.view) :
    Moves m t V (if c then o1 else o2).view := by
  split
  · exact hpos ‹_›
  · exact hneg ‹_›

lemma moves_guard {o' : Orchestrator} {c : Prop} [Decidable c] (hs : Sound m (o.tenure t))
    (h : ¬ c → Moves m t o.view o'.view) : Moves m t o.view (if c then o else o').view :=
  moves_ite (fun _ => .of_eq rfl hs) h

/-- What is known of the tenure after a change of it. -/
lemma tenure_of_update {o' : Orchestrator} {f : Tenure → Tenure} (h : o'.view = o.view.update t f) :
    o'.tenure t = f (o.tenure t) := by
  have htenure := congrArg (fun V : View => V.tenure t) h
  simpa using htenure

/-- What is known of a tenure in a state with the same view. -/
lemma tenure_of_view {o' : Orchestrator} (h : o'.view = o.view) (t) : o'.tenure t = o.tenure t :=
  congrArg (fun V : View => V.tenure t) h

/-- A record that is not newly bound takes no slot. -/
lemma slots_le_of_update {o' : Orchestrator} {f : Tenure → Tenure} (h : o'.view = o.view.update t f)
    (hbound : (f (o.tenure t)).phase.bound → (o.tenure t).phase.bound) :
    o'.view.slots ≤ o.view.slots := by
  rw [h]
  exact View.slots_set_le hbound

/-- With nothing left running, freeing the workspace is not seen. -/
lemma view_freed {V : View} (hview : o.view = V) (hfree : (V.tenure t).past.live = []) :
    (o.freeWorkspaceMarker t).view = V := by
  subst hview
  exact view_freeWorkspaceMarker o hfree

lemma view_quieted (hfree : o.Free t) :
    ((o.modify t fun r => { r with domainQuiet := true }).freeWorkspaceMarker t).view =
      o.view.update t fun v => { v with phase := { v.phase with domainQuiet := true } } :=
  view_freed (view_phase o t _ (fun p => { p with domainQuiet := true }) rfl)
    (by rw [View.update_tenure_self]; exact hfree)

/-- Changing a record is sound work if the changed tenure is sound. -/
lemma moves_modify {f : Record → Record} (p : Phase → Phase)
    (hs : Sound m { o.tenure t with phase := p (o.tenure t).phase })
    (hbound : (p (o.tenure t).phase).bound → (o.tenure t).phase.bound) (hf : Sees f p) :
    Moves m t o.view (o.modify t f).view ∧
      (o.modify t f).tenure t = { o.tenure t with phase := p (o.tenure t).phase } := by
  have hview := view_modify_phase (o := o) (t := t) rfl p hf
  have hsame := congrFun hf (o.heap t)
  have hpid : (p (o.heap t).phase).id = (o.heap t).phase.id :=
    (congrArg (fun x => x.1.id) hsame).symm.trans (congrArg (fun x => x.2.1) hsame)
  exact ⟨.of_set hview hs hpid hbound, tenure_of_update hview⟩

/-- The issue of a record is found to be gone. -/
lemma moves_gone (hs : Sound m (o.tenure t)) :
    Moves m t o.view (o.modify t fun r => { r with gone := true }).view ∧
      (o.modify t fun r => { r with gone := true }).tenure t =
        { o.tenure t with phase := { (o.tenure t).phase with leaving := true } } :=
  moves_modify (fun p => { p with leaving := true }) hs.leave id
    (funext fun r => by simp [Record.phase])

/-- A worker of a record's current attempt leaves. -/
lemma view_spawn_update (o : Orchestrator) {w : Worker} {d} {f : Past → Past}
    (hduty : w.duty = some (d, o.tag t))
    (hpast : past t (.spawned w :: o.trace) = f (past t o.trace))
    (hverify : ∀ ws g, w.strayVerify ws t g = false) (hrun : ∀ id g, w.strayRun id t g = false) :
    (o.spawn w).view =
      o.view.update t fun v => { v with out := v.out.add d v.gen, past := f v.past } := by
  rw [view_spawn o hduty, show (o.tag t).token = t from rfl, hpast,
    outstanding_cons_of_plain _ _ hduty (show (o.tag t).token = t from rfl) hverify hrun]
  rfl

/-- A worker of a record's current attempt leaves, without relying on anything. -/
lemma view_spawn_plain {o : Orchestrator} {w : Worker} {d} (hduty : w.duty = some (d, o.tag t))
    (hconcerns : (Act.spawned w).concerns t = false)
    (hverify : ∀ ws g, w.strayVerify ws t g = false) (hrun : ∀ id g, w.strayRun id t g = false) :
    (o.spawn w).view = o.view.update t fun v => (v.sent d) :=
  view_spawn_update (f := id) o hduty (past_cons_of_not_concerns _ hconcerns) hverify hrun

/-- An act that concerns one tenure is seen in its history. -/
lemma view_note_update (o : Orchestrator) {a : Act} {f : Past → Past}
    (hother : ∀ t', a.concerns t' = (t == t'))
    (hpast : past t (a :: o.trace) = f (past t o.trace)) :
    (o.note a).view = o.view.update t fun v => { v with past := f v.past } := by
  rw [view_note o t fun t' ht' => (hother t').trans (beq_false_of_ne ht'.symm), hpast]
  rfl

/-- Arming a timer for the current attempt. -/
lemma view_armTimer (o : Orchestrator) (t kind) :
    (o.armTimer t kind).view = o.view.update t fun v => (v.sent .timer) :=
  view_spawn_plain rfl rfl (fun _ _ => rfl) fun _ _ => rfl

/-- Workers that are astray verify. -/
lemma strayVerifies_le (ws) (g : Nat) :
    (o.tenure t).out.strayVerifies ws g ≤ (o.tenure t).out.verifies g := by
  refine List.countP_mono_left fun e _ he => ?_
  cases hw : e.2 <;> simp_all [Worker.strayVerify, Worker.is, Worker.duty]

/-- The workers that launch an attempt are waited for. -/
lemma launch_le_awaited (g : Nat) :
    (o.tenure t).out.prepares g + (o.tenure t).out.starts g ≤ (o.tenure t).out.awaited := by
  change o.workers.countP _ + o.workers.countP _ ≤ o.workers.countP _
  induction o.workers with
  | nil => simp
  | cons e rest ih =>
    simp only [List.countP_cons]
    have hone : ((if e.2.is .prepare t g = true then 1 else 0) +
        if e.2.is .start t g = true then 1 else 0) ≤ if e.2.awaits t = true then 1 else 0 := by
      unfold Worker.is Worker.awaits
      cases e.2.duty with
      | none => simp
      | some x =>
        obtain ⟨d, tag⟩ := x
        by_cases htok : tag.token = t
        · cases d <;> simp [htok]
          all_goals split <;> omega
        · simp [htok]
    omega

/-- A record without a handle and with no worker left to wait for is idle. -/
lemma idle_of_pending (hs : Sound m (o.tenure t)) (hhandle : (o.heap t).handle = none)
    (hpending : (o.heap t).pending ≤ 0) : (o.tenure t).Idle := by
  refine hs.idle_of_handle hhandle ?_
  have hle := launch_le_awaited (o := o) (t := t) (o.tenure t).gen
  have haw : ((o.tenure t).out.awaited : Int) ≤ (o.heap t).pending := hs.awaited
  omega

/-! ## Exits -/

lemma view_owe_exit (o : Orchestrator) {what target does} (hwhat : isExit what)
    (hconcerns : (Act.owes t ⟨what, target, false, does⟩).concerns t = false) :
    (o.owe t what target does).view = o.view.update t fun v => { v with exits := True } := by
  unfold owe
  rw [view_oweEffect, past_cons_of_not_concerns _ hconcerns]
  simp only [hwhat, or_true]
  rfl

/-- Releasing a claim is seen as leaving and owing the exit. -/
lemma view_release (o : Orchestrator) (t why) :
    ∃ E, (o.release t why).view = o.view.update t fun v =>
      { v with phase := { v.phase with leaving := true }, exits := E } := by
  unfold release
  split
  · rename_i hrel
    refine ⟨o.ExitOwed t, (View.update_eq_self _ _ _ ?_).symm⟩
    have hleave : (o.heap t).phase.leaving := by simp [Record.phase, hrel]
    apply Tenure.ext <;> try rfl
    change { (o.heap t).phase with leaving := true } = (o.heap t).phase
    rw [← hleave]
  · refine ⟨True, (view_owe_exit _ rfl (by simp)).trans ?_⟩
    have hleft := view_phase o t (fun r => { r with releasing := true, stopReason := why })
      (fun p => { p with leaving := true }) (funext fun _ => by simp [Record.phase])
    rw [view_abandonPendingClaimBase, hleft, View.update_update]
    rfl

/-- Leaving is seen as giving up what waited for an account and owing the exit. -/
lemma view_finishNow (o : Orchestrator) (t) (keep : Bool) (why) (hfree : o.Free t) :
    ∃ E, (o.finishNow t keep why).view = o.view.update t fun v =>
      { v with
        phase := { v.phase with parkOnBudgetPending := false, leaving := true }
        exits := E } := by
  have hended := view_attemptEnded o t
  unfold finishNow
  dsimp only
  generalize o.attemptEnded t = o0 at hended ⊢
  have hunparked : (o0.modify t fun r => { r with parkOnBudgetPending := false }).view =
      o.view.update t fun v => { v with phase := { v.phase with parkOnBudgetPending := false } } :=
    view_modify_phase hended (fun p => { p with parkOnBudgetPending := false }) rfl
  generalize o0.modify t (fun r => { r with parkOnBudgetPending := false }) = o1 at hunparked ⊢
  generalize (if (o0.heap t).parkOnBudgetPending = true then FailureReason.budgetExceeded
    else FailureReason.killed) = reason
  have habandoned : ((o1.recordAttempt t reason .unknown).abandonPendingClaimBase t).view =
      o1.view := by simp
  have hfree1 : ((o1.recordAttempt t reason .unknown).abandonPendingClaimBase t).Free t := by
    have hlive := congrArg (fun V : View => (V.tenure t).past.live) (habandoned.trans hunparked)
    simp only [View.update_tenure_self] at hlive
    exact hlive.trans hfree
  have hdisposed := (view_disposeRevoked _ keep hfree1).trans (habandoned.trans hunparked)
  generalize ((o1.recordAttempt t reason .unknown).abandonPendingClaimBase t).disposeRevoked t keep
    = o2 at hdisposed ⊢
  by_cases hgone : ((o2.heap t).gone || (o2.heap t).claimLost)
  · have hleave : (o2.view.tenure t).phase.leaving := by
      change (o2.heap t).phase.leaving
      simp only [Record.phase]
      rw [Bool.or_assoc, hgone, Bool.or_true]
    have hset : o2.view = o.view.update t fun v =>
        { v with phase := { v.phase with parkOnBudgetPending := false, leaving := true } } := by
      rw [hdisposed] at hleave ⊢
      simp only [View.update_tenure_self] at hleave
      unfold View.update
      rw [← hleave]
    simp only [hgone, if_true]
    split
    · exact ⟨(o.view.tenure t).exits, hset⟩
    · refine ⟨True, (view_owe_exit _ rfl (by simp)).trans ?_⟩
      rw [hset, View.update_update]
      rfl
  · obtain ⟨E, hrelease⟩ := view_release o2 t why
    simp only [hgone]
    exact ⟨E, hrelease.trans (by rw [hdisposed, View.update_update]; rfl)⟩

end Orchestrator

end Ben
