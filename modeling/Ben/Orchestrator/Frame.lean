import Ben.Orchestrator.Tenure

/-!
# What the primitive updates change

Every function of the loop is made of a few primitive updates: a record is changed, a worker
leaves or comes back, the history grows, the table or the queue changes.  This module says what
each of them does to the view of the tenures, and then which of the loop's helpers do nothing to
it at all.
-/

namespace Ben

/-! ## Views -/

section View

variable [Platform] (V : View) (t : Token) (v w : Tenure)

@[simp] lemma View.set_tenure_self : (V.set t v).tenure t = v := by simp [View.set]

lemma View.set_tenure_of_ne {t'} (h : t' ≠ t) : (V.set t v).tenure t' = V.tenure t' := by
  simp [View.set, h]

@[simp] lemma View.set_set : (V.set t v).set t w = V.set t w := by simp [View.set]

@[simp] lemma View.set_self : V.set t (V.tenure t) = V := by simp [View.set]

@[simp] lemma View.set_next : (V.set t v).next = V.next := rfl

@[simp] lemma View.set_records : (V.set t v).records = V.records := rfl

/-- Change what matters about one tenure. -/
def View.update (V : View) (t : Token) (f : Tenure → Tenure) : View := V.set t (f (V.tenure t))

variable (f g : Tenure → Tenure)

@[simp] lemma View.update_update : (V.update t f).update t g = V.update t (g ∘ f) := by
  simp [View.update]

@[simp] lemma View.update_tenure_self : (V.update t f).tenure t = f (V.tenure t) := by
  simp [View.update]

lemma View.update_comp {V V' V'' : View} {t} {f g : Tenure → Tenure} (h : V' = V.update t f)
    (h' : V'' = V'.update t g) : V'' = V.update t (g ∘ f) := by
  rw [h', h, View.update_update]

lemma View.update_eq_self (h : f (V.tenure t) = V.tenure t) : V.update t f = V := by
  rw [View.update, h, View.set_self]

end View

variable [Platform]

namespace Orchestrator

@[simp] lemma view_tenure (o : Orchestrator) (t) : o.view.tenure t = o.tenure t := rfl

@[simp] lemma view_next (o : Orchestrator) : o.view.next = o.nextToken := rfl

@[simp] lemma view_records (o : Orchestrator) : o.view.records = o.records := rfl

variable {o o' : Orchestrator} {t : Token} {v : Tenure}

/-- Two states with the same tenures, table and tokens have the same view. -/
lemma view_congr (hn : o'.nextToken = o.nextToken) (hr : o'.records = o.records)
    (h : ∀ t, o'.tenure t = o.tenure t) : o'.view = o.view := by
  simp [view, hn, hr, funext h]

/-- A state in which one tenure changed has the view with that tenure replaced. -/
lemma view_eq_set (hn : o'.nextToken = o.nextToken) (hr : o'.records = o.records)
    (hself : o'.tenure t = v) (hother : ∀ t', t' ≠ t → o'.tenure t' = o.tenure t') :
    o'.view = o.view.set t v := by
  apply View.ext
  · funext t'
    by_cases h : t' = t
    · subst h
      simp [hself]
    · rw [View.set_tenure_of_ne _ _ _ h]
      exact hother t' h
  · exact hn
  · exact hr

/-! ## Changing a record -/

/-- The record after a change. -/
@[simp] lemma heap_modify_self (o : Orchestrator) (t) (f : Record → Record) :
    (o.modify t f).heap t = f (o.heap t) := by
  simp [modify]

/-- Changing one record leaves the others. -/
lemma heap_modify_of_ne (f : Record → Record) {t'} (h : t' ≠ t) :
    (o.modify t f).heap t' = o.heap t' := by
  simp [modify, h]

/-- Changing a record of one tenure does nothing to another. -/
lemma tenure_modify_of_ne (f : Record → Record) {t'} (h : t' ≠ t) :
    (o.modify t f).tenure t' = o.tenure t' := by
  simp only [tenure, ExitOwed, heap_modify_of_ne f h]
  rfl

/-- Changing a record without renaming its issue or touching what it owes changes its phase. -/
lemma view_modify (o : Orchestrator) (t) (f : Record → Record)
    (hid : (f (o.heap t)).issue.identifier = (o.heap t).issue.identifier)
    (howed : (f (o.heap t)).owed = (o.heap t).owed) :
    (o.modify t f).view = o.view.set t { o.tenure t with phase := (f (o.heap t)).phase } := by
  refine view_eq_set rfl rfl ?_ fun t' h => tenure_modify_of_ne f h
  simp only [tenure, ExitOwed, heap_modify_self, hid, howed]
  rfl

/-- A change of a record is seen as a change of its phase. -/
abbrev Sees (f : Record → Record) (p : Phase → Phase) : Prop :=
  (fun r => ((f r).phase, (f r).issue.identifier, (f r).owed)) =
    fun r => (p r.phase, r.issue.identifier, r.owed)

/-- Changing a record changes its phase as the change does. -/
lemma view_modify_phase {V : View} (hview : o.view = V) {f : Record → Record} (p : Phase → Phase)
    (hf : Sees f p) :
    (o.modify t f).view = V.update t fun v => { v with phase := p v.phase } := by
  obtain ⟨hphase, hid, howed⟩ := (by simpa using congrFun hf (o.heap t) : _ ∧ _ ∧ _)
  rw [view_modify o t f hid howed, hphase, ← hview]
  rfl

lemma view_phase (o : Orchestrator) (t) (f : Record → Record) (p : Phase → Phase) (hf : Sees f p) :
    (o.modify t f).view = o.view.update t fun v => { v with phase := p v.phase } :=
  view_modify_phase rfl p hf

/-- Changing a record outside its phase is not seen. -/
lemma view_modify_of_phase {o : Orchestrator} {t} {f : Record → Record}
    (h : ((f (o.heap t)).phase, (f (o.heap t)).owed) = ((o.heap t).phase, (o.heap t).owed)) :
    (o.modify t f).view = o.view := by
  obtain ⟨hphase, howed⟩ := Prod.mk.inj h
  rw [view_modify o t f (congrArg Phase.id hphase) howed, hphase]
  exact View.set_self o.view t

end Orchestrator

/-! ## Growing the history -/

/-- The act is part of what the history says about a tenure. -/
@[simp] def Act.concerns (t : Token) : Act → Bool
  | .spawned (.prepare tag _ _ _) => tag.token == t
  | .spawned (.start tag _ _ _ _) => tag.token == t
  | .spawned (.verify tag _ _ _) => tag.token == t
  | .startAnswered tag _ => tag.token == t
  | .confirmed t' _ => t' == t
  | .verifier _ _ _ => true
  | .pinned t' _ => t' == t
  | .approved t' _ => t' == t
  | .emitted tag _ => tag.token == t
  | .spent t' _ => t' == t
  | .requeued t' => t' == t
  | a => a.relies t || a.publishes t

section Past

variable {t : Token} (trace : List Act)

/-- What a growing history is made of. -/
lemma past_cons (a : Act) : past t (a :: trace) =
      { prepared := fun g => a.prepares t g ∨ (past t trace).prepared g
        live := a.onLive t (live t trace)
        pin := (a.pin t).or (lastPinned t trace)
        approval := (a.approval t).or (lastApproved t trace)
        certified := fun id ws => a = .verifier id ws .published ∨ Certified id ws trace
        published := a.publishes t ∨ (past t trace).published
        startedPinned := (∀ vars ∈ a.startVars t, Pinned t vars trace) ∧ StartedPinned t trace
        reliedWhenFree := (a.relies t → live t trace = []) ∧ ReliedWhenFree t trace
        publishedCertified := fun id ws =>
          (a.publishes t → Certified id ws trace ∧
            ∀ ws' ∈ a.publishedWorkspace, ws' = ws) ∧ PublishedCertified t id ws trace
        terminal := fun g => a.terminates t g ∨ (past t trace).terminal g
        starts := if a.requeues t then 0
          else starts t trace + if (a.startVars t).isSome then 1 else 0
        startedWithin := fun n =>
          ((a.startVars t).isSome → (starts t trace : Int) < n) ∧ StartedWithin t n trace
        spent := if a.requeues t then 0
          else (a.cost t).elim (spent t trace) fun c => spent t trace + c
        overrun := fun cap => a.requeues t = false ∧
          ((∃ c ∈ a.cost t, cap < spent t trace + c) ∨ Overrun t cap trace)
        startedFrugally := fun cap =>
          ((a.startVars t).isSome → ¬ Overrun t cap trace) ∧
            StartedFrugally t cap trace } := by
  apply Past.ext <;> try rfl
  all_goals
    simp [past, live, lastPinned, lastApproved, List.findSome?_cons, Certified, eq_comm (a := a)]
  all_goals cases a.pin t <;> cases a.approval t <;> rfl

/-- Where nothing was published, nothing was published wrongly. -/
lemma publishedCertified_of_unpublished (h : ¬ (past t trace).published) (id ws) :
    (past t trace).publishedCertified id ws := by
  induction trace with
  | nil => trivial
  | cons a rest ih =>
    rw [past_cons] at h ⊢
    simp only [not_or] at h
    exact ⟨fun ha => absurd ha h.1, ih h.2⟩

/-- An act that does not concern a tenure is none of those its history is told by. -/
lemma Act.of_not_concerns {a : Act} (h : a.concerns t = false) :
    a.relies t = false ∧ a.publishes t = false ∧ (∀ g, a.prepares t g = false) ∧
      (∀ running, a.onLive t running = running) ∧ a.pin t = none ∧ a.approval t = none ∧
      a.startVars t = none ∧ (∀ id ws, a ≠ .verifier id ws .published) ∧
      (∀ g, a.terminates t g = false) ∧ a.cost t = none ∧ a.requeues t = false := by
  cases a with
  | spawned w =>
    cases w <;> first
      | exact ⟨rfl, rfl, fun _ => rfl, fun _ => rfl, rfl, rfl, rfl, fun _ _ => nofun,
          fun _ => rfl, rfl, rfl⟩
      | simp_all [Act.concerns, relies, publishes, prepares, onLive, pin, approval, startVars,
          terminates, cost, requeues]
  | _ =>
    simp_all [Act.concerns, relies, publishes, prepares, onLive, pin, approval, startVars,
      terminates, cost, requeues]

/-- An act that does not concern a tenure adds nothing to its history. -/
lemma past_cons_of_not_concerns {a : Act} (h : a.concerns t = false) :
    past t (a :: trace) = past t trace := by
  obtain ⟨hrelies, hpublishes, hprepares, hlive, hpin, happroval, hstart, hverifier, hterminates,
    hcost, hrequeues⟩ := Act.of_not_concerns h
  rw [past_cons]
  simp only [hrelies, hpublishes, hprepares, hlive, hpin, happroval, hstart, hverifier,
    hterminates, hcost, hrequeues]
  simp [past]

attribute [simp] Act.prepares Act.publishes Act.relies Act.onLive Act.pin Act.approval Act.startVars
  Act.terminates Act.cost Act.requeues

end Past

/-! ## Workers leaving -/

section Out

variable {t : Token} (workers : List (Nat × Worker)) (n : Nat) {w : Worker}

/-- A worker without a duty, or of another tenure, is not counted. -/
lemma outstanding_cons_of_other (h : ∀ d tag, w.duty = some (d, tag) → tag.token ≠ t) :
    outstanding t ((n, w) :: workers) = outstanding t workers := by
  have his : ∀ d g, w.is d t g = false := by
    intro d g
    unfold Worker.is
    cases hw : w.duty with
    | none => rfl
    | some x => simp [h x.1 x.2 hw]
  have hawaits : w.awaits t = false := by
    unfold Worker.awaits
    cases hw : w.duty with
    | none => rfl
    | some x => simp [h x.1 x.2 hw]
  have hverify : ∀ ws g, w.strayVerify ws t g = false := by
    intro ws g
    cases w <;> first | rfl | simp_all [Worker.strayVerify, Worker.duty]
  have hrun : ∀ id g, w.strayRun id t g = false := by
    intro id g
    cases w <;> first | rfl | simp_all [Worker.strayRun, Worker.duty]
  simp [outstanding, his, hawaits, hverify, hrun]

/-- A worker of the tenure is counted under its duty. -/
lemma outstanding_cons_of_duty {d} {tag : Tag} (hduty : w.duty = some (d, tag))
    (htok : tag.token = t) :
    outstanding t ((n, w) :: workers) =
      { (outstanding t workers).add d tag.generation with
        strayVerifies := fun ws g => (outstanding t workers).strayVerifies ws g +
          if w.strayVerify ws t g then 1 else 0
        strayRuns := fun id g => (outstanding t workers).strayRuns id g +
          if w.strayRun id t g then 1 else 0 } := by
  have his : ∀ d' g, w.is d' t g = (d == d' && tag.generation == g) := by
    intro d' g
    simp [Worker.is, hduty, htok]
  have hawaits : w.awaits t = d.awaited := by simp [Worker.awaits, hduty, htok]
  have hbump : ∀ (p : Nat × Worker → Nat → Bool), (fun g => workers.countP (p · g) +
      if tag.generation = g then 1 else 0) =
        bump (fun g => workers.countP (p · g)) tag.generation := by
    intro p
    funext g
    by_cases hg : g = tag.generation
    · simp [hg]
    · simp [bump_of_ne _ hg, Ne.symm hg]
  cases d <;>
    simp [outstanding, List.countP_cons, his, hawaits, Out.add, hbump]

/-- A worker that is neither astray in its workspace nor in its handle. -/
lemma outstanding_cons_of_plain {d} {tag : Tag} (hduty : w.duty = some (d, tag))
    (htok : tag.token = t) (hverify : ∀ ws g, w.strayVerify ws t g = false)
    (hrun : ∀ id g, w.strayRun id t g = false) :
    outstanding t ((n, w) :: workers) = (outstanding t workers).add d tag.generation := by
  rw [outstanding_cons_of_duty workers n hduty htok]
  simp only [hverify, hrun]
  cases d <;> rfl

end Out

namespace Orchestrator

variable {o o' : Orchestrator} {t : Token}

/-- What a departing worker concerns is its own tenure. -/
lemma concerns_spawned {w : Worker} (h : (Act.spawned w).concerns t) :
    ∃ d tag, w.duty = some (d, tag) ∧ tag.token = t := by
  cases w <;>
    simp_all [Act.concerns, Act.relies, Act.publishes, Worker.duty]

lemma tenure_spawn (o : Orchestrator) (w : Worker) (t) (hexits : w.exits t = false) :
    (o.spawn w).tenure t =
      { o.tenure t with
        out := outstanding t ((o.nextWorker, w) :: o.workers)
        past := past t (.spawned w :: o.trace) } := by
  have h : (o.spawn w).ExitOwed t = o.ExitOwed t := by
    simp [ExitOwed, spawn, hexits]
  simp only [tenure, h]
  rfl

/-- A worker that matters to no tenure leaves unseen. -/
lemma view_spawn_side (o : Orchestrator) {w : Worker} (hduty : w.duty = none)
    (hexits : ∀ t, w.exits t = false) : (o.spawn w).view = o.view := by
  refine view_congr rfl rfl fun t => ?_
  have hconcerns : (Act.spawned w).concerns t = false := by
    rw [← Bool.not_eq_true]
    intro h
    obtain ⟨d, tag, hd, -⟩ := concerns_spawned h
    simp [hduty] at hd
  rw [tenure_spawn o w t (hexits t), past_cons_of_not_concerns _ hconcerns,
    outstanding_cons_of_other _ _ (by simp [hduty])]
  rfl

/-- Nor is it seen that a record notes that one is out. -/
lemma view_ask {o : Orchestrator} {t} {f : Record → Record} {w : Worker}
    (hphase : (f (o.heap t)).phase = (o.heap t).phase)
    (howed : (f (o.heap t)).owed = (o.heap t).owed) (hduty : w.duty = none)
    (hexits : ∀ t, w.exits t = false) : ((o.modify t f).spawn w).view = o.view :=
  (view_spawn_side _ hduty hexits).trans (view_modify_of_phase (Prod.ext hphase howed))

/-- Either way of a branch is seen alike. -/
lemma view_ite {V} {o1 o2 : Orchestrator} {c : Prop} [Decidable c] (hpos : c → o1.view = V)
    (hneg : ¬ c → o2.view = V) : (if c then o1 else o2).view = V := by
  split
  · exact hpos ‹_›
  · exact hneg ‹_›

lemma view_guard {o o' : Orchestrator} {c : Prop} [Decidable c] (h : ¬ c → o'.view = o.view) :
    (if c then o else o').view = o.view :=
  view_ite (fun _ => rfl) h

/-- Work that is not seen piece by piece is not seen. -/
lemma view_foldl {α : Type} {f : Orchestrator → α → Orchestrator}
    (h : ∀ o a, (f o a).view = o.view) (o : Orchestrator) (l : List α) :
    (l.foldl f o).view = o.view := by
  induction l generalizing o with
  | nil => rfl
  | cons a l ih => rw [List.foldl_cons, ih, h]

/-- Work on whatever record an issue has is not seen if it is not seen on any. -/
lemma view_ofIssue {o : Orchestrator} (id) {f : Orchestrator → Token → Orchestrator}
    (h : ∀ o t, (f o t).view = o.view) :
    (match o.records.lookup id with
      | some t => f o t
      | none => o).view = o.view := by
  split
  · exact h _ _
  · rfl

/-- A worker of a tenure changes that tenure. -/
lemma view_spawn (o : Orchestrator) {w : Worker} {d} {tag : Tag} (hduty : w.duty = some (d, tag)) :
    (o.spawn w).view = o.view.set tag.token
      { o.tenure tag.token with
        out := outstanding tag.token ((o.nextWorker, w) :: o.workers)
        past := past tag.token (.spawned w :: o.trace) } := by
  have hexits : ∀ t, w.exits t = false := by
    intro t
    cases w <;> first | rfl | simp [Worker.duty] at hduty
  refine view_eq_set rfl rfl (tenure_spawn o w _ (hexits _)) fun t' ht' => ?_
  have hne : ∀ d' tag', w.duty = some (d', tag') → tag'.token ≠ t' := by
    intro d' tag' h
    rw [hduty] at h
    cases h
    exact Ne.symm ht'
  have hconcerns : (Act.spawned w).concerns t' = false := by
    rw [← Bool.not_eq_true]
    intro h
    obtain ⟨d', tag', hd, heq⟩ := concerns_spawned h
    exact hne d' tag' hd heq
  rw [tenure_spawn o w t' (hexits t'), past_cons_of_not_concerns _ hconcerns,
    outstanding_cons_of_other _ _ hne]
  rfl

/-- An act that concerns one tenure changes that tenure. -/
lemma view_note (o : Orchestrator) {a : Act} (t) (h : ∀ t', t' ≠ t → a.concerns t' = false) :
    (o.note a).view = o.view.set t { o.tenure t with past := past t (a :: o.trace) } := by
  refine view_eq_set rfl rfl rfl fun t' ht' => ?_
  simp only [tenure, note, past_cons_of_not_concerns _ (h t' ht')]
  rfl

/-- An act that concerns no tenure is not seen. -/
lemma view_note_side (o : Orchestrator) {a : Act} (h : ∀ t, a.concerns t = false) :
    (o.note a).view = o.view := by
  refine view_congr rfl rfl fun t => ?_
  simp only [tenure, note, past_cons_of_not_concerns _ (h t)]
  rfl

end Orchestrator

end Ben
