import Ben.Orchestrator.Safety

/-!
# Budgets of every run

A tenure's attempts and its continuation turns are counted in different places and both are given
back when a human puts the issue in the queue again.  Between two such restorations no more agents
are started than there are attempts and turns, and none once the cost has gone over the cap.
-/

namespace Ben

namespace Orchestrator

section

variable [Platform] {t : Token} {n : Int}

/-! ## Stretches of a history -/

/-- A stretch without a restoration adds the agents it starts. -/
lemma starts_append {stretch older : List Act} (hno : ∀ a ∈ stretch, a.requeues t = false) :
    starts t (stretch ++ older) =
      starts t older + stretch.countP fun a => (a.startVars t).isSome := by
  induction stretch with
  | nil => rfl
  | cons a rest ih =>
    obtain ⟨ha, hrest⟩ := List.forall_mem_cons.1 hno
    rw [List.cons_append, starts, ha, if_neg Bool.false_ne_true, ih hrest, List.countP_cons]
    omega

/-- Since the budgets were last restored, no more agents were started than the bound. -/
lemma starts_le (hn : 0 ≤ n) :
    ∀ {trace : List Act}, StartedWithin t n trace → (starts t trace : Int) ≤ n
  | [], _ => hn
  | a :: rest, h => by
    have hrest := starts_le hn h.2
    rw [starts]
    split
    · exact hn
    · split
      · have hstart := h.1 (by assumption)
        push_cast
        omega
      · simpa using hrest

lemma startedWithin_of_suffix {older} :
    ∀ {newer : List Act}, StartedWithin t n (newer ++ older) → StartedWithin t n older
  | [], h => h
  | _ :: _, h => startedWithin_of_suffix h.2

/-- No stretch without a restoration starts more agents than the bound. -/
lemma countP_start_le {trace stretch : List Act} (h : StartedWithin t n trace) (hn : 0 ≤ n)
    (hwithin : stretch <:+: trace) (hno : ∀ a ∈ stretch, a.requeues t = false) :
    ((stretch.countP fun a => (a.startVars t).isSome : Nat) : Int) ≤ n := by
  obtain ⟨newer, older, rfl⟩ := hwithin
  rw [List.append_assoc] at h
  have hle := starts_le hn (startedWithin_of_suffix h)
  rw [starts_append hno] at hle
  push_cast at hle
  omega

variable {cur : Snapshot} {daemonInstance : String} {now : Time} {reads : StartupReads}
  {inputs : List Input} {o' : Orchestrator}

/-! ## Attempts -/

/-- In every run under fixed limits, between two restorations of a tenure's budgets no more agents
are started for it than there are attempts and turns. -/
theorem starts_between_requeues_le (hnamed : reads.Named)
    (hattempts : 0 < cur.definition.limits.maxAttempts)
    (hturns : 0 < cur.definition.limits.maxTurns)
    (halong : Runs.Along step (fun o i => Meets (fun _ => Honest) o i ∧
      i.Steady cur.definition.limits) (boot cur daemonInstance now reads) inputs)
    (hrun : Runs.run step (boot cur daemonInstance now reads) inputs = some o') (t : Token)
    {stretch : List Act} (hwithin : stretch <:+: o'.trace)
    (hno : ∀ a ∈ stretch, a.requeues t = false) :
    ((stretch.countP fun a => (a.startVars t).isSome : Nat) : Int) ≤
      cur.definition.limits.maxAttempts + cur.definition.limits.maxTurns := by
  let m : Mode :=
    { rationed := True, limits := cur.definition.limits
      rations := fun _ => ⟨hattempts, hturns.le⟩, price := False.elim }
  have hgood := good_of_run (m := m) (fun hq => hq)
    ⟨hnamed, False.elim, False.elim, fun _ => rfl⟩
    (halong.mono fun o i h => ⟨h.1.mono fun o w a h =>
      ⟨h, False.elim, False.elim, False.elim, False.elim, False.elim⟩, fun _ => h.2⟩) hrun
  exact countP_start_le ((hgood.1.sound t).startedWithin trivial) (by omega) hwithin hno

end

section

open Sample

/-- The one agent of the sample run is within the default attempts and turns. -/
theorem starts_between_requeues_le_publishedRun :
    ∃ o', Runs.run step (booted 1 ["7"]) publishedRun = some o' ∧
      (o'.trace.any fun a => (a.startVars 1).isSome) = true ∧
      ((o'.trace.countP fun a => (a.startVars 1).isSome : Nat) : Int) ≤
        (snapshot 1).definition.limits.maxAttempts +
          (snapshot 1).definition.limits.maxTurns := by
  have hany : ((Runs.run step (booted 1 ["7"]) publishedRun).any fun o =>
      (o.trace.any fun a => (a.startVars 1).isSome) && o.trace.all fun a => !a.requeues 1) =
        true := by decide
  obtain ⟨o', hrun, h⟩ := (Option.any_eq_true _ _).1 hany
  rw [Bool.and_eq_true] at h
  refine ⟨o', hrun, h.1, starts_between_requeues_le (named_startup ["7"] (by decide)) (by decide)
    (by decide) (.and_all (Runs.along_of_check (by decide)) ?_) hrun 1
    (List.infix_refl _) fun a ha => ?_⟩
  · simp [publishedRun, Input.Steady]
  · simpa using List.all_eq_true.1 h.2 a ha

end

section

variable [Platform] {cur : Snapshot} {daemonInstance : String} {now : Time}
  {reads : StartupReads} {inputs : List Input} {o' : Orchestrator}

/-! ## Cost -/

/-- In every run under fixed limits, with agents that say nothing more once they have said how
they ended, no agent is started for a tenure after its cost went over the cap and before its
budgets are restored. -/
theorem startedFrugally_of_run {cap : Cost} (hnamed : reads.Named)
    (hcap : cur.definition.limits.maxCostUSD = some cap) (hpos : 0 < cap)
    (halong : Runs.Along step (fun o i => Meets (fun o w a => Honest w a ∧ o.Silent w a) o i ∧
      i.Steady cur.definition.limits) (boot cur daemonInstance now reads) inputs)
    (hrun : Runs.run step (boot cur daemonInstance now reads) inputs = some o') (t : Token) :
    StartedFrugally t cap o'.trace := by
  have hmax : cur.definition.limits.maxCost = cap := by rw [Limits.maxCost, hcap, Option.getD_some]
  let m : Mode :=
    { frugal := True, limits := cur.definition.limits
      rations := False.elim, price := fun _ => hmax ▸ hpos }
  have hgood := good_of_run (m := m) (fun hq => hq)
    ⟨hnamed, False.elim, False.elim, fun _ => rfl⟩
    (halong.mono fun o i h => ⟨h.1.mono fun o w a h =>
      ⟨h.1, False.elim, False.elim, False.elim, False.elim, fun _ => h.2⟩, fun _ => h.2⟩) hrun
  exact hmax ▸ (hgood.1.sound t).startedFrugally trivial

end

end Orchestrator

namespace Sample

/-- A configuration with a cap on the cost. -/
def cappedSnapshot (cap : Cost) : Snapshot :=
  let definition := { definition 1 with limits := { maxCostUSD := some cap } }
  { definition, runtime := { definition, claimPrincipal := "ben" } }

/-- A claim found at startup is launched, and its agent reports a cost. -/
def spendingRun (cost : Cost) : List Orchestrator.Input :=
  publishedRun.take 6 ++
    [.answer 5 (.event { type := .usage, usage := some { costUSD := cost } }) {}]

end Sample

namespace Orchestrator

open Sample

/-- An agent that goes over the cap is not followed by another one. -/
theorem startedFrugally_spendingRun :
    ∃ o', Runs.run step (boot (cappedSnapshot (5 : Nat)) "daemon" 9000000000
        (startup ["7"])) (spendingRun (7 : Nat)) = some o' ∧
      (o'.trace.any fun a => (a.cost 1).any fun c => decide ((5 : Nat) < c)) = true ∧
      StartedFrugally 1 (5 : Nat) o'.trace := by
  have hany : ((Runs.run step (boot (cappedSnapshot (5 : Nat)) "daemon" 9000000000
      (startup ["7"])) (spendingRun (7 : Nat))).any fun o =>
        o.trace.any fun a => (a.cost 1).any fun c => decide ((5 : Nat) < c)) = true := by
    decide
  obtain ⟨o', hrun, hcost⟩ := (Option.any_eq_true _ _).1 hany
  refine ⟨o', hrun, hcost, startedFrugally_of_run (named_startup ["7"] (by decide)) rfl
    (by decide) (.and_all (Runs.along_of_check (by decide)) ?_) hrun 1⟩
  simp [spendingRun, publishedRun, Input.Steady]

end Orchestrator

end Ben
