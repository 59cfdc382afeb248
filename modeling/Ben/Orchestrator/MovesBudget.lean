import Ben.Orchestrator.MovesClaim

/-!
# How the budgets are counted

Attempts and turns are counted when a record is dispatched, cost when its run reports usage, and
all of them start again when a human re-queues the record.  Between two re-queues the agents that
are started are held against the attempts and turns that were counted, and once the cost has gone
over its cap every way to another agent is barred.
-/

namespace Ben

variable [Platform]

/-- The cost is within its cap, unless the record is on its way out anyway. -/
def Tenure.Within (m : Mode) (v : Tenure) : Prop :=
  m.frugal → v.past.overrun m.limits.maxCost → v.phase.leaving = true

/-! ## Attempts and turns -/

section

variable {v : Tenure} {limits : Limits}

/-- A record that waits is covered for another agent once its attempt, and its turn if it goes on,
is counted. -/
lemma Tenure.Rationed.count {n : Int} {c} (h : v.Rationed limits)
    (hn : (v.phase.state = .backoff ∧ n = v.phase.turns) ∨
      (v.phase.state = .verifying ∧ n = v.phase.turns + 1 ∧ v.phase.turns < limits.maxTurns))
    (htimers : v.out.timers v.gen = 0) :
    Tenure.Rationed { v with phase := { v.phase with
        attempt := v.phase.attempt + 1, turns := n, maxCost := c } } limits ∧
      Tenure.Spare { v with phase := { v.phase with
        attempt := v.phase.attempt + 1, turns := n, maxCost := c } } limits := by
  obtain ⟨hbase, hturns, hmax, hattempts, hstarts, -, hbackoff, -⟩ := h
  have hspare : (v.past.starts : Int) + 1 ≤ limits.maxAttempts + n := by
    rcases hn with ⟨hb, rfl⟩ | ⟨-, rfl, -⟩
    · exact hbackoff hb
    · omega
  have hn' : 0 ≤ n ∧ n ≤ limits.maxTurns := by
    rcases hn with ⟨-, rfl⟩ | ⟨-, rfl, hlt⟩ <;> omega
  have hfirst : (v.past.starts : Int) + 1 ≤ v.phase.attempt + 1 - v.phase.attemptBase := by omega
  refine ⟨⟨hbase, hn'.1, hn'.2, ?_, ?_, fun _ => ⟨hfirst, hspare⟩, fun _ => hspare,
    fun _ ht => absurd ht htimers.not_gt⟩, hfirst, hspare⟩
  · exact (Int.le_add_one le_rfl).trans hfirst
  · exact (Int.le_add_one le_rfl).trans hspare

/-- An attempt at work that was found on the branch counts as the second, but as one. -/
lemma Tenure.Rationed.floor (h : v.Rationed limits) (hspare : v.Spare limits)
    (hattempt : v.phase.attempt = 1) :
    Tenure.Rationed { v with phase := { v.phase with attempt := 2, attemptBase := 1 } } limits ∧
      Tenure.Spare { v with phase := { v.phase with attempt := 2, attemptBase := 1 } } limits := by
  obtain ⟨hbase, hturns, hmax, -, hstarts, -, hbackoff, hverifying⟩ := h
  have hfirst : (v.past.starts : Int) + 1 ≤ 2 - 1 := by
    have := hspare.1
    omega
  exact ⟨⟨zero_le_one, hturns, hmax, (Int.le_add_one le_rfl).trans hfirst, hstarts,
    fun _ => ⟨hfirst, hspare.2⟩, hbackoff, hverifying⟩, hfirst, hspare.2⟩

end

namespace Sound

variable {m : Mode} {v : Tenure} (h : Sound m v)

include h

/-- The record's attempts and turns are counted, and the definition in force is adopted. -/
lemma count {a b n : Int} {c} (hration : m.rationed →
      Tenure.Rationed { v with phase := { v.phase with
        attempt := a, attemptBase := b, turns := n, maxCost := c } } m.limits)
    (hprice : m.frugal → 0 < v.out.starts v.gen ∨ v.phase.state = .running → c = m.limits.maxCost) :
    Sound m { v with phase := { v.phase with
      attempt := a, attemptBase := b, turns := n, maxCost := c } } :=
  { h with rationed := hration, priced := hprice }

/-- A human re-queues a parked record, and its budgets start again. -/
lemma requeue (hstate : v.phase.state = .needsReview) (hzero : v.launches = 0) : Sound m { v with
      phase := { v.phase with turns := 0, costUSD := 0, attemptBase := v.phase.attempt }
      past := { v.past with starts := 0, spent := 0, overrun := fun _ => False } } :=
  { h with
    rationed := fun hm => by
      obtain ⟨hbase, -, -, hattempts, -⟩ := h.rationed hm
      have hlimit := m.rations hm
      have hattempt : 0 ≤ v.phase.attempt := by omega
      refine ⟨hattempt, le_rfl, hlimit.2, ?_, ?_, fun hdue => ?_, fun hb => ?_, fun hv => ?_⟩
      · change (0 : Int) ≤ v.phase.attempt - v.phase.attempt
        omega
      · change (0 : Int) ≤ m.limits.maxAttempts + 0
        omega
      · rcases hdue with hq | hc | hp | hp
        · cases hstate.symm.trans hq.1
        · cases hstate.symm.trans hc
        · cases hstate.symm.trans hp.1
        · exact absurd hp (Nat.add_eq_zero_iff.1 hzero).1.not_gt
      · cases hstate.symm.trans hb
      · cases hstate.symm.trans hv
    tallied := fun _ => rfl
    barred := fun _ ho => ho.elim }

/-! ## Cost -/

/-- The run says how it ended, or something else. -/
lemma hear {T : Nat → Prop} (hT : ∀ g, v.past.terminal g → T g) :
    Sound m { v with past := { v.past with terminal := T } } :=
  { h with unheard := fun hm hc ht => h.unheard hm hc fun hterm => ht (hT _ hterm) }

/-- The run reports usage, and a record whose cost it takes over the cap is barred. -/
lemma spend {c} {O : Cost → Prop} (hbar : m.frugal → O m.limits.maxCost → v.Barred) :
    Sound m { v with
      phase := { v.phase with costUSD := v.phase.costUSD + c }
      past := { v.past with spent := v.past.spent + c, overrun := O } } :=
  { h with
    tallied := fun hm => congrArg (· + c) (h.tallied hm)
    barred := hbar }

/-- A record whose run has not said how it ended is barred once its run is being stopped. -/
lemma barred_of_pump (hm : m.frugal) (hpump : 0 < v.out.pumps v.gen)
    (hheard : ¬ v.past.terminal v.gen)
    (hrunning : v.phase.state = .running → v.phase.stopping ∨ v.phase.suspended) :
    v.Barred := by
  have hprep : v.past.prepared v.gen := h.attempt (.inl hpump)
  have hopen : v.phase.eventsClosed = false := by
    by_contra hc
    exact absurd hpump (h.stream.2 (by simpa using hc)).not_gt
  obtain ⟨hver, hsummary⟩ := h.unheard hm hopen hheard hprep
  refine ⟨fun hs => h.fresh (.inl hs) hprep, fun hs => h.fresh (.inr (.inl hs)) hprep,
    fun hs => absurd hprep (h.fresh (.inr (.inr hs))), fun _ => ⟨hprep, ?_⟩, fun hs => ?_,
    hsummary, fun hv => absurd (h.verifying hv).state hver⟩
  · by_contra hne
    exact absurd hpump (h.launching (Nat.pos_of_ne_zero hne)).pumps.not_gt
  · refine .inr ⟨hprep, ?_⟩
    rcases hrunning (hs.resolve_right hver) with hstop | hsusp
    · exact .inl hstop
    · exact .inr (.inr (.inr hsusp))

/-- With no stop, exit or shutdown under way, the cost of a run is within the cap. -/
lemma clear_of_running (hm : m.frugal)
    (hstate : v.phase.state = .running ∨ v.phase.state = .verifying)
    (hleave : v.phase.leaving = false) (hstop : v.phase.stopping = false)
    (hpark : v.phase.parkOnBudgetPending = false) (hfinish : v.phase.finish = false)
    (hsusp : v.phase.suspended = false) : ¬ v.past.overrun m.limits.maxCost := by
  intro ho
  rcases (h.barred hm ho).2.2.2.2.1 hstate with hl | ⟨-, hs | hs | hs | hs⟩
  · cases hleave.symm.trans hl
  · cases hstop.symm.trans hs
  · cases hpark.symm.trans hs
  · cases hfinish.symm.trans hs
  · cases hsusp.symm.trans hs

/-- A record that waits, over a cost that has gone over the cap, is on its way out. -/
lemma leaving_of_waiting (hw : v.Waiting) (hm : m.frugal) (ho : v.past.overrun m.limits.maxCost) :
    v.phase.leaving := by
  obtain ⟨-, -, hbackoff, -, hrunning, -⟩ := h.barred hm ho
  rcases hw.state with ⟨hb, -⟩ | hv
  · exact hbackoff hb
  · exact (hrunning (.inr hv)).resolve_right fun hp => hw.unprepared hp.1

section

omit h

/-- What a preparation that came back leaves room for. -/
lemma spare_of_prepare (h : Sound m (v.sent .prepare)) :
    (m.rationed → v.Spare m.limits) ∧ (m.frugal → ¬ v.past.overrun m.limits.maxCost) := by
  have hpos : 0 < (v.out.add .prepare v.gen).prepares v.gen := by simp [Out.add]
  refine ⟨fun hm => (h.rationed hm).2.2.2.2.2.1 (.inr (.inr (.inr hpos))), fun hm ho => ?_⟩
  have hstate : v.phase.state = .preparing := (h.launching (Nat.add_pos_left hpos _)).state
  have hzero := ((h.barred hm ho).2.2.2.1 hstate).2
  exact absurd hpos (Nat.eq_zero_of_add_eq_zero_right hzero).not_gt

/-- What a start that came back was priced at. -/
lemma price_of_start (h : Sound m (v.sent .start)) (hm : m.frugal) :
    v.phase.maxCost = m.limits.maxCost ∧ ¬ v.past.overrun m.limits.maxCost := by
  have hpos : 0 < (v.out.add .start v.gen).starts v.gen := by simp [Out.add]
  refine ⟨h.priced hm (.inl hpos), fun ho => ?_⟩
  have hstate : v.phase.state = .preparing := (h.launching (Nat.add_pos_right _ hpos)).state
  have hzero := ((h.barred hm ho).2.2.2.1 hstate).2
  exact absurd hpos (Nat.eq_zero_of_add_eq_zero_left hzero).not_gt

/-- What a claim that came back leaves room for. -/
lemma spare_of_claim (h : Sound m (v.sent .claim)) (hm : m.rationed) : v.Spare m.limits := by
  have hpos : 0 < (v.out.add .claim v.gen).claims v.gen := by simp [Out.add]
  exact (h.rationed hm).2.2.2.2.2.1 (.inl ⟨(h.claiming hpos).2.1, .inr hpos⟩)

/-- What a fired timer of a record that goes on leaves room for. -/
lemma turn_of_timer (h : Sound m (v.sent .timer)) (hm : m.rationed)
    (hstate : v.phase.state = .verifying) : v.phase.turns < m.limits.maxTurns :=
  (h.rationed hm).2.2.2.2.2.2.2 hstate
    (show 0 < (v.out.add .timer v.gen).timers v.gen by simp [Out.add])

/-- Only a record on its way out has its account read, or its work verified, over a cost that has
gone over the cap without a breach being acted on. -/
lemma leaving_of_summary (h : Sound m (v.sent .summary)) (hm : m.frugal)
    (ho : v.past.overrun m.limits.maxCost) :
    v.phase.parkOnBudgetPending ∨ v.phase.leaving :=
  (h.barred hm ho).2.2.2.2.2.1
    (show 0 < (v.out.add .summary v.gen).summaries v.gen by simp [Out.add])

lemma leaving_of_verify (h : Sound m (v.sent .verify)) (hm : m.frugal)
    (ho : v.past.overrun m.limits.maxCost) : v.phase.leaving :=
  (h.barred hm ho).2.2.2.2.2.2
    (.inl (show 0 < (v.out.add .verify v.gen).verifies v.gen by simp [Out.add]))

end

end Sound

end Ben
