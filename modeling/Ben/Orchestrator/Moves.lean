import Ben.Orchestrator.Sound

/-!
# How a tenure may change

The changes a tenure goes through, each with what it takes for the invariant to survive it.
They are stated over the view alone; the handlers of the loop are later shown to be made of
them.
-/

namespace Ben

/-! ## Counting workers -/

/-- Sending a worker out for one attempt leaves the other attempts alone. -/
lemma Out.Untouched.add {out : Out} {g g' : Nat} (h : out.Untouched g) (hne : g ≠ g') (d) :
    (out.add d g').Untouched g := by
  cases d <;> constructor <;>
    simp [Out.add, bump_of_ne _ hne, h.claims, h.approvals, h.claimBases,
      h.prepares, h.starts, h.pumps, h.drains, h.probes, h.stops, h.selfStops, h.summaries,
      h.timers, h.verifies, h.strayVerifies, h.strayRuns]

variable [Platform]

/-- Nothing is being launched in an idle tenure. -/
lemma Tenure.Idle.not_launching {v : Tenure} (h : v.Idle) : ¬ 0 < v.launches := by
  simp [h.1, h.2.1]

/-- What is barred stays so on the way out. -/
lemma Tenure.Barred.leave {v : Tenure} (h : v.Barred) {w : Tenure}
    (hstate : w.phase.state = v.phase.state) (hgen : w.gen = v.gen)
    (hprepared : w.past.prepared = v.past.prepared) (hout : w.out = v.out)
    (hleave : w.phase.leaving) : w.Barred := by
  obtain ⟨h1, h2, -, h4, -⟩ := h
  unfold Barred
  rw [hstate, hgen, hprepared, hout]
  exact ⟨h1, h2, fun _ => hleave, h4, fun _ => .inl hleave, fun _ => .inr hleave, fun _ => hleave⟩

namespace Sound

variable {m : Mode} {v : Tenure} (h : Sound m v)

include h

/-- What has not begun is untouched by a worker for the current attempt. -/
lemma ahead_add (d) : ∀ g, v.gen < g → (v.out.add d v.gen).Untouched g ∧ ¬ v.past.prepared g :=
  fun g hg => ⟨(h.ahead g hg).1.add (Nat.ne_of_gt hg) d, (h.ahead g hg).2⟩

lemma awaited_add : ((v.out.awaited + 1 : Nat) : Int) ≤ v.phase.pending + 1 := by
  have := h.awaited
  omega

/-! ## Small changes of the record -/

/-- Shutdown suspends a record. -/
lemma suspend : Sound m { v with phase := { v.phase with suspended := true } } :=
  { h with
    probing := fun hp =>
      let ⟨hone, hflight, hclosed, _⟩ := h.probing hp
      ⟨hone, hflight, hclosed, .inr (.inr (.inr rfl))⟩
    stopping := fun hs =>
      let ⟨hone, hflight, _, _⟩ := h.stopping hs
      ⟨hone, hflight, .inr rfl, .inr (.inr (.inr (.inr rfl)))⟩
    handle := fun g hg =>
      let ⟨hgen, hstate, hprep, _, hbudget⟩ := h.handle g hg
      ⟨hgen, hstate, hprep, fun _ => rfl, hbudget⟩
    barred := fun hm ho =>
      let ⟨h1, h2, h3, h4, h5, h6⟩ := h.barred hm ho
      ⟨h1, h2, h3, h4, fun hs => (h5 hs).imp id fun hp => ⟨hp.1, .inr (.inr (.inr rfl))⟩, h6⟩ }

/-- A stop is under way. -/
lemma stop : Sound m { v with phase := { v.phase with stopping := true } } :=
  { h with
    stopping := fun hs =>
      let ⟨hone, hflight, hhandle, _⟩ := h.stopping hs
      ⟨hone, hflight, hhandle, .inr (.inl rfl)⟩
    budget := fun hb => ⟨fun _ => rfl, (h.budget hb).2⟩
    selfStop := fun hs =>
      let ⟨hone, hhandle, _, hstate⟩ := h.selfStop hs
      ⟨hone, hhandle, rfl, hstate⟩
    barred := fun hm ho =>
      let ⟨h1, h2, h3, h4, h5, h6⟩ := h.barred hm ho
      ⟨h1, h2, h3, h4, fun hs => (h5 hs).imp id fun hp => ⟨hp.1, .inl rfl⟩, h6⟩ }

/-- An exit waits for the workers that are out. -/
lemma request : Sound m { v with phase := { v.phase with finish := true } } :=
  { h with
    probing := fun hp =>
      let ⟨hone, hflight, hclosed, _⟩ := h.probing hp
      ⟨hone, hflight, hclosed, .inr (.inr (.inl rfl))⟩
    stopping := fun hs =>
      let ⟨hone, hflight, hhandle, _⟩ := h.stopping hs
      ⟨hone, hflight, hhandle, .inr (.inr (.inr (.inl rfl)))⟩
    barred := fun hm ho =>
      let ⟨h1, h2, h3, h4, h5, h6⟩ := h.barred hm ho
      ⟨h1, h2, h3, h4, fun hs => (h5 hs).imp id fun hp => ⟨hp.1, .inr (.inr (.inl rfl))⟩, h6⟩ }

/-- The claim is given up, or found to be gone. -/
lemma leave : Sound m { v with phase := { v.phase with leaving := true } } :=
  { h with
    probing := fun hp =>
      let ⟨hone, hflight, hclosed, _⟩ := h.probing hp
      ⟨hone, hflight, hclosed, .inr (.inl rfl)⟩
    stopping := fun hs =>
      let ⟨hone, hflight, hhandle, _⟩ := h.stopping hs
      ⟨hone, hflight, hhandle, .inr (.inr (.inl rfl))⟩
    exit := fun he => ⟨(h.exit he).1, rfl⟩
    unheard := fun hm hc ht hp => ⟨(h.unheard hm hc ht hp).1, fun _ => .inr rfl⟩
    barred := fun hm ho => (h.barred hm ho).leave rfl rfl rfl rfl rfl }

/-- A budget breach is no longer waiting to be acted on, and what it broke is barred otherwise. -/
lemma unpark (hsummary : m.frugal → 0 < v.out.summaries v.gen → v.phase.leaving)
    (hbar : m.frugal → v.past.overrun m.limits.maxCost →
      v.phase.state = .running ∨ v.phase.state = .verifying → v.phase.leaving ∨
        (v.phase.stopping ∨ v.phase.finish ∨ v.phase.suspended)) :
    Sound m { v with phase := { v.phase with parkOnBudgetPending := false } } :=
  { h with
    launching := fun hl =>
      let ⟨h1, h2, h3, h4, h5, _, h6⟩ := h.launching hl
      ⟨h1, h2, h3, h4, h5, rfl, h6⟩
    verifying := fun hv =>
      let ⟨h1, h2, h3, h4, _, h5⟩ := h.verifying hv
      ⟨h1, h2, h3, h4, rfl, h5⟩
    parking := fun hp => by cases hp
    unheard := fun hm hc ht hp => ⟨(h.unheard hm hc ht hp).1, fun hs => .inr (hsummary hm hs)⟩
    barred := fun hm ho =>
      let ⟨h1, h2, h3, h4, h5, _, h7⟩ := h.barred hm ho
      ⟨h1, h2, h3, h4, fun hs => by
        rcases h5 hs with hl | ⟨hp, -⟩
        · exact .inl hl
        · rcases hbar hm ho hs with hl | hstop | hrest
          · exact .inl hl
          · exact .inr ⟨hp, .inl hstop⟩
          · exact .inr ⟨hp, .inr (.inr hrest)⟩, fun hs => .inr (hsummary hm hs), h7⟩ }

/-- An idle tenure may come to owe its exit. -/
lemma finish (hidle : v.Idle) (E : Prop) : Sound m { v with
      phase := { v.phase with finish := false, leaving := true }, exits := E } :=
  { h with
    probing := fun hp =>
      let ⟨hone, hflight, hclosed, _⟩ := h.probing hp
      ⟨hone, hflight, hclosed, .inr (.inl rfl)⟩
    stopping := fun hs =>
      let ⟨hone, hflight, hhandle, _⟩ := h.stopping hs
      ⟨hone, hflight, hhandle, .inr (.inr (.inl rfl))⟩
    exit := fun _ => ⟨hidle, rfl⟩
    unheard := fun hm hc ht hp => ⟨(h.unheard hm hc ht hp).1, fun _ => .inr rfl⟩
    barred := fun hm ho => (h.barred hm ho).leave rfl rfl rfl rfl rfl }

/-- An idle tenure that is leaving may come to owe its exit, or no longer owe it. -/
lemma oweExit (hidle : v.Idle) (hleave : v.phase.leaving) (E : Prop) :
    Sound m { v with exits := E } :=
  { h with exit := fun _ => ⟨hidle, hleave⟩ }

/-- The exit that was waiting begins by stopping the run. -/
lemma beginExit {g} (hhandle : v.phase.handle = some g) :
    Sound m { v with phase := { v.phase with finish := false, stopping := true } } :=
  have hgen : v.phase.handle = some v.gen := by rw [hhandle, (h.handle g hhandle).1]
  { h.stop with
    probing := fun hp =>
      let ⟨hone, hflight, hclosed, _⟩ := h.probing hp
      ⟨hone, hflight, hclosed, .inl hgen⟩
    stopping := fun hs =>
      let ⟨hone, hflight, _, _⟩ := h.stopping hs
      ⟨hone, hflight, .inl hgen, .inr (.inl rfl)⟩
    barred := fun hm ho =>
      let ⟨h1, h2, h3, h4, h5, h6⟩ := h.barred hm ho
      ⟨h1, h2, h3, h4, fun hs => (h5 hs).imp id fun hp => ⟨hp.1, .inl rfl⟩, h6⟩ }

/-- The claim epoch was found wanting. -/
lemma fault : Sound m { v with phase := { v.phase with epochFaulted := true } } :=
  { h with
    dispatching := fun hd => (h.dispatching hd).imp id fun hs => ⟨hs.1, rfl⟩ }

end Sound

/-! ## Leaving an attempt -/

/-- An attempt that is over: nothing of it is running, out, or yet to be acted on. -/
structure Tenure.Settled (v : Tenure) : Prop where
  launch : v.out.prepares v.gen + v.out.starts v.gen = 0
  handle : v.phase.handle = none
  timers : v.out.timers v.gen = 0
  verifies : v.out.verifies v.gen = 0
  verifyRetry : v.phase.verifyRetry = false
  outcome : v.phase.outcome = true → v.phase.domainQuiet = true
  summaries : v.out.summaries v.gen = 0
  selfStops : 0 < v.out.selfStops v.gen → v.phase.summarized = true
  claims : v.out.claims v.gen = 0
  unclassified : v.phase.unclassified = false

lemma Tenure.Settled.not_verifying {v : Tenure} (hs : v.Settled) :
    ¬ (0 < v.out.verifies v.gen ∨ v.phase.verifyRetry) := by
  simp [hs.verifies, hs.verifyRetry]

/-- A stop of the current attempt came back. -/
structure Tenure.Halted (v : Tenure) : Prop where
  prepared : v.past.prepared v.gen
  launches : v.launches = 0
  stops : v.out.stops v.gen = 0
  selfStops : v.out.selfStops v.gen = 0
  handle : v.phase.handle = some v.gen ∨ v.phase.suspended = true ∨
    (v.phase.stopping = true ∧ (v.phase.state = .running ∨ v.phase.summarized = true))
  probes : v.out.probes v.gen = 0 ∨ v.phase.stopping = true ∨ v.Doomed

namespace Sound

variable {m : Mode} {v : Tenure} (h : Sound m v)

include h

lemma idle_of_settled (hs : v.Settled) : v.Idle := h.idle_of_handle hs.handle hs.launch

/-- Nothing was published in a tenure that is neither done nor waiting for a verdict. -/
lemma unpublished (hdone : v.phase.state ≠ .done) (hun : v.phase.unclassified = false) :
    ¬ v.past.published := by
  intro hp
  rcases (h.published hp).2.2 with hs | hs
  · exact hdone hs
  · rw [hun] at hs
    cases hs

/-- A settled record comes to rest: it is parked, or has failed. -/
lemma rest (hs : v.Settled) (hdone : v.phase.state ≠ .done) {s}
    (hrest : s = .needsReview ∨ s = .failed)
    (hd : v.phase.claimBaseDispatch → s = .needsReview ∧ v.phase.epochFaulted) :
    Sound m { v with phase := { v.phase with state := s } } :=
  have hne : s ≠ .queued ∧ s ≠ .claimed ∧ s ≠ .backoff ∧ s ≠ .preparing ∧ s ≠ .running ∧
      s ≠ .verifying ∧ s ≠ .done := by
    rcases hrest with rfl | rfl <;> decide
  { h with
    fresh := fun hf => by rcases hf with hf | hf | hf <;> simp_all
    timer := fun ht => absurd ht hs.timers.not_gt
    dispatching := fun hd' => .inr (hd hd')
    launching := fun hl => absurd hl (h.idle_of_settled hs).not_launching
    verifying := fun hv => absurd hv hs.not_verifying
    summary := fun hsum => absurd hsum hs.summaries.not_gt
    handle := fun g hg => absurd hg (by simp [hs.handle])
    budget := fun hb => ⟨fun hr => absurd hr hne.2.2.2.2.1, hne.2.2.2.2.2.1, (h.budget hb).2.2⟩
    held := fun ho hq => absurd (hs.outcome ho) (by simp [show v.phase.domainQuiet = false from hq])
    sorted := fun _ => ⟨fun hv => absurd hv hne.2.2.2.2.2.1, fun hr => absurd hr hne.2.2.2.2.1⟩
    selfStop := fun hself =>
      let ⟨hone, hhandle, hstop, _⟩ := h.selfStop hself
      ⟨hone, hhandle, hstop, .inr (hs.selfStops hself)⟩
    ran := fun hr => absurd hr hne.2.2.2.2.1
    epochal := fun he => by
      have hstart : ¬ 0 < v.out.starts v.gen := by have := hs.launch; omega
      rcases he with he | he | he | he
      · exact absurd he hstart
      · exact absurd he hne.2.2.2.2.1
      · exact absurd he hne.2.2.2.2.2.1
      · exact absurd he hne.2.2.2.2.2.2
    claiming := fun hc => absurd hc hs.claims.not_gt
    basing := fun _ hq => absurd hq hne.1
    unclassified := fun hu => absurd hu (by simp [hs.unclassified])
    pinned := fun hm hp => h.pinned hm (by
      rcases hp with hp | hp | hp | hp | hp | hp
      · exact .inl hp
      · exact .inr (.inl hp)
      · exact absurd hp hne.2.1
      · exact absurd hp hne.2.2.2.1
      · exact absurd hp hne.2.2.2.2.1
      · exact absurd hp hne.2.2.2.2.2.1)
    queued := fun _ _ hq => absurd hq hne.1
    published := fun hp => absurd hp (h.unpublished hdone hs.unclassified)
    rationed := fun hm => (h.rationed hm).at_rest rfl ⟨hne.1, hne.2.1, hne.2.2.1⟩ hne.2.2.2.1
      (h.idle_of_settled hs).1 hs.timers
    priced := fun hm hp => h.priced hm (hp.imp id fun hr => absurd hr hne.2.2.2.2.1)
    unheard := fun _ _ _ _ => ⟨hne.2.2.2.2.2.1, fun hsum => absurd hsum hs.summaries.not_gt⟩
    barred := fun _ _ => ⟨hne.1, hne.2.1, fun hb => absurd hb hne.2.2.1,
      fun hp => absurd hp hne.2.2.2.1,
      fun hr => absurd hr (not_or.2 ⟨hne.2.2.2.2.1, hne.2.2.2.2.2.1⟩),
      fun hsum => absurd hsum hs.summaries.not_gt, fun hv => absurd hv hs.not_verifying⟩ }

/-- A settled record goes on to another attempt, whose timer is armed: from a failed or parked
one in backoff, and from an incomplete one where it is. -/
lemma nextAttempt (hs : v.Settled) (hdone : v.phase.state ≠ .done) (stop : Bool) {s}
    (hstate : (s = .backoff ∧ v.phase.claimBaseDispatch = false) ∨
      (s = .verifying ∧ v.phase.state = .verifying))
    (hspare : m.rationed →
      (s = .backoff → (v.past.starts : Int) + 1 ≤ m.limits.maxAttempts + v.phase.turns) ∧
      (s = .verifying → v.phase.turns < m.limits.maxTurns))
    (hleave : m.frugal → v.past.overrun m.limits.maxCost → v.phase.leaving) :
    Sound m { v with
      phase := { v.phase with state := s, stopping := stop, generation := v.gen + 1 }
      out := v.out.add .timer (v.gen + 1) } :=
  have hnew := h.ahead (v.gen + 1) (Nat.lt_succ_self _)
  have hidle := h.idle_of_settled hs
  have hne : s ≠ .preparing ∧ s ≠ .running ∧ s ≠ .queued ∧ s ≠ .claimed ∧ s ≠ .done := by
    rcases hstate with ⟨rfl, -⟩ | ⟨rfl, -⟩ <;> decide
  { h with
    ahead := fun g hg =>
      have hlt : v.gen + 1 < g := hg
      have hg' := h.ahead g (Nat.lt_of_succ_lt hlt)
      ⟨hg'.1.add (Nat.ne_of_gt hlt) .timer, hg'.2⟩
    behind := fun g hg => by
      by_cases hgen : g = v.gen
      · have := hs.launch
        exact ⟨by rw [hgen]; exact hidle.1, by rw [hgen]; exact hidle.2.1⟩
      · exact h.behind g hgen
    fresh := fun _ => hnew.2
    timer := fun _ =>
      ⟨by simp [Out.add, hnew.1.timers],
        hnew.2, hstate.imp (fun hb => ⟨hb.1, hb.2⟩) (fun hv => hv.1)⟩
    dispatching := fun hd => by
      rcases hstate with ⟨-, hb⟩ | ⟨-, hv⟩
      · exact absurd hd (by simp [hb])
      · rcases h.dispatching hd with hb | ⟨hb, -⟩ <;> simp [hv] at hb
    single := by
      change v.out.prepares (v.gen + 1) + v.out.starts (v.gen + 1) ≤ 1
      simp [hnew.1.prepares, hnew.1.starts]
    launching := fun hl => by
      change 0 < v.out.prepares (v.gen + 1) + v.out.starts (v.gen + 1) at hl
      simp [hnew.1.prepares, hnew.1.starts] at hl
    attempt := fun ha => by
      rcases ha with ha | ha | ha | ha | ha | ha | ha
      · exact absurd ha hnew.1.pumps.not_gt
      · exact absurd ha hnew.1.drains.not_gt
      · exact absurd ha hnew.1.probes.not_gt
      · exact absurd ha hnew.1.stops.not_gt
      · exact absurd ha hnew.1.selfStops.not_gt
      · exact absurd ha hnew.1.summaries.not_gt
      · exact absurd ha hnew.1.verifies.not_gt
    stream := ⟨hnew.1.pumps.trans_le (Nat.zero_le _), fun _ => hnew.1.pumps⟩
    probing := fun hp => absurd hp hnew.1.probes.not_gt
    stopping := fun hp => absurd hp hnew.1.stops.not_gt
    verifying := fun hv => by
      rcases hv with hv | hv
      · exact absurd hv hnew.1.verifies.not_gt
      · exact absurd hv (by simp [hs.verifyRetry])
    verifyOnce :=
      have hzero : v.out.verifies (v.gen + 1) = 0 := hnew.1.verifies
      ⟨hzero.trans_le (Nat.zero_le _), fun _ => hzero⟩
    stray := ⟨hnew.1.strayVerifies _, hnew.1.strayRuns _⟩
    summary := fun hsum => absurd hsum hnew.1.summaries.not_gt
    live := fun hl => absurd hidle.2.2 hl
    liveGen := fun g hg => by
      change g ∈ v.past.live at hg
      simp [hidle.2.2] at hg
    handle := fun g hg => absurd hg (by simp [hs.handle])
    budget := fun hb => ⟨fun hr => absurd hr hne.2.1, by
      rcases hstate with ⟨rfl, -⟩ | ⟨rfl, hv⟩
      · rintro ⟨⟩
      · exact absurd hv (h.budget hb).2.1, hnew.1.probes⟩
    held := fun ho hq => absurd (hs.outcome ho) (by simp [show v.phase.domainQuiet = false from hq])
    sorted := fun ho => ⟨fun hv => by
      rcases hstate with ⟨rfl, -⟩ | ⟨rfl, hv'⟩
      · cases hv
      · exact (h.sorted ho).1 hv', fun hr => absurd hr hne.2.1⟩
    ran := fun hr => absurd hr hne.2.1
    selfStop := fun hself => absurd hself hnew.1.selfStops.not_gt
    alone := fun hself => absurd hself hnew.1.selfStops.not_gt
    epochal := fun he => by
      rcases hstate with ⟨rfl, -⟩ | ⟨rfl, hv⟩
      · rcases he with he | he | he | he
        · exact absurd he hnew.1.starts.not_gt
        all_goals cases he
      · exact h.epochal (.inr (.inr (.inl hv)))
    claiming := fun hc => absurd hc hnew.1.claims.not_gt
    approving := fun ha => absurd ha hnew.1.approvals.not_gt
    basing := fun hb => absurd hb hnew.1.claimBases.not_gt
    exit := fun he => ⟨⟨hnew.1.prepares, hnew.1.starts, hidle.2.2⟩, (h.exit he).2⟩
    unclassified := fun hu => absurd hu (by simp [hs.unclassified])
    pinned := fun hm hp => by
      rcases hstate with ⟨rfl, hb⟩ | ⟨rfl, hv⟩
      · rcases hp with hp | hp | hp | hp | hp | hp
        · exact absurd hp hnew.1.claimBases.not_gt
        · exact absurd hp (by simp [hb])
        all_goals cases hp
      · exact h.pinned hm (.inr (.inr (.inr (.inr (.inr hv)))))
    queued := fun _ _ hq => absurd hq hne.2.2.1
    published := fun hp => absurd hp (h.unpublished hdone hs.unclassified)
    rationed := fun hm => (h.rationed hm).of_counts rfl (fun hdue => by
      rcases hdue with hq | hc | hp | hp
      · exact absurd hq.1 hne.2.2.1
      · exact absurd hc hne.2.2.2.1
      · exact absurd hp.1 hne.1
      · exact absurd hp hnew.1.prepares.not_gt) (hspare hm).1 fun hv _ => (hspare hm).2 hv
    priced := fun _ hp => hp.elim (fun hp => absurd hp hnew.1.starts.not_gt)
      fun hr => absurd hr hne.2.1
    unheard := fun _ _ _ hp => absurd hp hnew.2
    barred := fun hm ho =>
      have hl := hleave hm ho
      ⟨hne.2.2.1, hne.2.2.2.1, fun _ => hl, fun hp => absurd hp hne.1, fun _ => .inl hl,
        fun _ => .inr hl, fun _ => hl⟩ }

end Sound

/-! ## Workers coming back -/

/-- No more workers are out, whatever they are out for. -/
structure Out.Below (out out' : Out) : Prop where
  claims : ∀ g, out.claims g ≤ out'.claims g
  approvals : ∀ g, out.approvals g ≤ out'.approvals g
  claimBases : ∀ g, out.claimBases g ≤ out'.claimBases g
  prepares : ∀ g, out.prepares g ≤ out'.prepares g
  starts : ∀ g, out.starts g ≤ out'.starts g
  pumps : ∀ g, out.pumps g ≤ out'.pumps g
  drains : ∀ g, out.drains g ≤ out'.drains g
  probes : ∀ g, out.probes g ≤ out'.probes g
  stops : ∀ g, out.stops g ≤ out'.stops g
  selfStops : ∀ g, out.selfStops g ≤ out'.selfStops g
  summaries : ∀ g, out.summaries g ≤ out'.summaries g
  timers : ∀ g, out.timers g ≤ out'.timers g
  verifies : ∀ g, out.verifies g ≤ out'.verifies g
  strayVerifies : ∀ ws g, out.strayVerifies ws g ≤ out'.strayVerifies ws g
  strayRuns : ∀ id g, out.strayRuns id g ≤ out'.strayRuns id g
  awaited : out.awaited ≤ out'.awaited

omit [Platform] in
lemma Out.below_add (out : Out) (d) (g : Nat) : out.Below (out.add d g) := by
  cases d <;> constructor <;> intros <;> simp [Out.add, le_bump]

omit [Platform] in
lemma Out.Untouched.below {out out' : Out} {g : Nat} (h : out'.Untouched g) (hle : out.Below out') :
    out.Untouched g where
  claims := Nat.le_zero.1 (h.claims ▸ hle.claims g)
  approvals := Nat.le_zero.1 (h.approvals ▸ hle.approvals g)
  claimBases := Nat.le_zero.1 (h.claimBases ▸ hle.claimBases g)
  prepares := Nat.le_zero.1 (h.prepares ▸ hle.prepares g)
  starts := Nat.le_zero.1 (h.starts ▸ hle.starts g)
  pumps := Nat.le_zero.1 (h.pumps ▸ hle.pumps g)
  drains := Nat.le_zero.1 (h.drains ▸ hle.drains g)
  probes := Nat.le_zero.1 (h.probes ▸ hle.probes g)
  stops := Nat.le_zero.1 (h.stops ▸ hle.stops g)
  selfStops := Nat.le_zero.1 (h.selfStops ▸ hle.selfStops g)
  summaries := Nat.le_zero.1 (h.summaries ▸ hle.summaries g)
  timers := Nat.le_zero.1 (h.timers ▸ hle.timers g)
  verifies := Nat.le_zero.1 (h.verifies ▸ hle.verifies g)
  strayVerifies ws := Nat.le_zero.1 (h.strayVerifies ws ▸ hle.strayVerifies ws g)
  strayRuns id := Nat.le_zero.1 (h.strayRuns id ▸ hle.strayRuns id g)

namespace Sound

variable {m : Mode} {v : Tenure}

/-- Workers may come back without a trace, as long as no start that may have left something
running does. -/
lemma below (h : Sound m v) {out : Out} (hle : out.Below v.out)
    (hstarts : v.past.live ≠ [] → 0 < v.out.starts v.gen → 0 < out.starts v.gen) :
    Sound m { v with out := out } :=
  have hprep := hle.prepares v.gen
  have hst := hle.starts v.gen
  have htim := hle.timers v.gen
  have hver := hle.verifies v.gen
  have hsum := hle.summaries v.gen
  have hpump := hle.pumps v.gen
  have hdrain := hle.drains v.gen
  have hprobe := hle.probes v.gen
  have hstop := hle.stops v.gen
  have hself := hle.selfStops v.gen
  { h with
    ahead := fun g hg => ⟨(h.ahead g hg).1.below hle, (h.ahead g hg).2⟩
    behind := fun g hg =>
      ⟨Nat.le_zero.1 ((h.behind g hg).1 ▸ hle.prepares g),
        Nat.le_zero.1 ((h.behind g hg).2 ▸ hle.starts g)⟩
    timer := fun ht => by
      have hpos : 0 < out.timers v.gen := ht
      obtain ⟨hone, hw⟩ := h.timer (hpos.trans_le htim)
      exact ⟨le_antisymm (hone ▸ htim) hpos, hw⟩
    single := (Nat.add_le_add hprep hst).trans h.single
    launching := fun hl =>
      have hL := h.launching (lt_of_lt_of_le hl (Nat.add_le_add hprep hst))
      ⟨hL.state, hL.handle, hL.outcome, hL.domainQuiet, hL.verifyRetry, hL.parkOnBudgetPending,
        hL.budgetStop, hL.prepared, hL.attached, hL.eventsClosed,
        Nat.le_zero.1 (hL.pumps ▸ hpump), Nat.le_zero.1 (hL.drains ▸ hdrain),
        Nat.le_zero.1 (hL.probes ▸ hprobe), Nat.le_zero.1 (hL.stops ▸ hstop),
        Nat.le_zero.1 (hL.selfStops ▸ hself), Nat.le_zero.1 (hL.summaries ▸ hsum),
        Nat.le_zero.1 (hL.verifies ▸ hver)⟩
    attempt := fun ha =>
      h.attempt (ha.imp (lt_of_lt_of_le · hpump) (Or.imp (lt_of_lt_of_le · hdrain)
      (Or.imp (lt_of_lt_of_le · hprobe) (Or.imp (lt_of_lt_of_le · hstop)
        (Or.imp (lt_of_lt_of_le · hself)
          (Or.imp (lt_of_lt_of_le · hsum) (lt_of_lt_of_le · hver)))))))
    stream := ⟨hpump.trans h.stream.1, fun hc => Nat.le_zero.1 (h.stream.2 hc ▸ hpump)⟩
    probing := fun hp => by
      have hpos : 0 < out.probes v.gen := hp
      obtain ⟨hone, hrest⟩ := h.probing (hpos.trans_le hprobe)
      exact ⟨le_antisymm (hone ▸ hprobe) hpos, hrest⟩
    stopping := fun hp => by
      have hpos : 0 < out.stops v.gen := hp
      obtain ⟨hone, hflight, hhandle, hrest⟩ := h.stopping (hpos.trans_le hstop)
      exact ⟨le_antisymm (hone ▸ hstop) hpos, hflight, hhandle,
        hrest.imp (fun hz : v.out.probes v.gen = 0 => Nat.le_zero.1 (hz ▸ hprobe)) id⟩
    budget := fun hb =>
      ⟨(h.budget hb).1, (h.budget hb).2.1, Nat.le_zero.1 ((h.budget hb).2.2 ▸ hprobe)⟩
    verifying := fun hv => h.verifying (hv.imp (lt_of_lt_of_le · hver) id)
    verifyOnce := ⟨hver.trans h.verifyOnce.1, fun hr => Nat.le_zero.1 (h.verifyOnce.2 hr ▸ hver)⟩
    stray := ⟨Nat.le_zero.1 (h.stray.1 ▸ hle.strayVerifies _ _),
      Nat.le_zero.1 (h.stray.2 ▸ hle.strayRuns _ _)⟩
    summary := fun hs => by
      have hpos : 0 < out.summaries v.gen := hs
      obtain ⟨hone, hrest⟩ := h.summary (hpos.trans_le hsum)
      exact ⟨le_antisymm (hone ▸ hsum) hpos, hrest⟩
    live := fun hl => ⟨(h.live hl).1.imp (hstarts hl) id, (h.live hl).2⟩
    selfStop := fun hs => by
      have hpos : 0 < out.selfStops v.gen := hs
      obtain ⟨hone, hrest⟩ := h.selfStop (hpos.trans_le hself)
      exact ⟨le_antisymm (hone ▸ hself) hpos, hrest⟩
    alone := fun hs => Nat.le_zero.1 (h.alone (lt_of_lt_of_le hs hself) ▸ hstop)
    epochal := fun he => h.epochal (he.imp (lt_of_lt_of_le · hst) id)
    claiming := fun hc => by
      have hpos : 0 < out.claims v.gen := hc
      obtain ⟨hone, hrest⟩ := h.claiming (hpos.trans_le (hle.claims _))
      exact ⟨le_antisymm (hone ▸ hle.claims _) hpos, hrest⟩
    approving := fun ha => h.approving (lt_of_lt_of_le ha (hle.approvals _))
    basing := fun hb => h.basing (lt_of_lt_of_le hb (hle.claimBases _))
    awaited := le_trans (Int.ofNat_le.2 hle.awaited) h.awaited
    exit := fun he =>
      have hidle := (h.exit he).1
      ⟨⟨Nat.le_zero.1 (hidle.1 ▸ hprep), Nat.le_zero.1 (hidle.2.1 ▸ hst), hidle.2.2⟩, (h.exit he).2⟩
    pinned := fun hm hp => h.pinned hm (hp.imp (lt_of_lt_of_le · (hle.claimBases _)) id)
    rationed := fun hm =>
      have hr := h.rationed hm
      hr.of_counts rfl (fun hdue => hr.2.2.2.2.2.1 (hdue.imp
        (fun hq => ⟨hq.1, hq.2.imp id (lt_of_lt_of_le · (hle.claims _))⟩)
        (Or.imp id (Or.imp id (lt_of_lt_of_le · hprep))))) hr.2.2.2.2.2.2.1
        fun hv ht => hr.2.2.2.2.2.2.2 hv (lt_of_lt_of_le ht htim)
    priced := fun hm hp => h.priced hm (hp.imp (lt_of_lt_of_le · hst) id)
    unheard := fun hm hc ht hp =>
      (h.unheard hm hc ht hp).imp id fun hs hpos => hs (lt_of_lt_of_le hpos hsum)
    barred := fun hm ho =>
      let ⟨h1, h2, h3, h4, h5, h6, h7⟩ := h.barred hm ho
      ⟨h1, h2, h3, fun hp => ⟨(h4 hp).1, Nat.le_zero.1 ((h4 hp).2 ▸ Nat.add_le_add hprep hst)⟩, h5,
        fun hs => h6 (lt_of_lt_of_le hs hsum), fun hv => h7 (hv.imp (lt_of_lt_of_le · hver) id)⟩ }

/-- A worker other than a start came back. -/
lemma came {d} {g : Nat} (h : Sound m { v with out := v.out.add d g }) (hd : d ≠ .start) :
    Sound m v :=
  h.below (v.out.below_add d g) (by
    cases d <;> first | exact fun _ hs => hs | exact absurd rfl hd)

/-- A worker the record waits for, other than a start, came back. -/
lemma came_awaited {d : Duty} {g : Nat} (h : Sound m { v with out := v.out.add d g })
    (hd : d ≠ .start) (haw : d.awaited) :
    Sound m { v with phase := { v.phase with pending := v.phase.pending - 1 } } :=
  { h.came hd with
    awaited := by
      have hcount : (v.out.add d g).awaited = v.out.awaited + 1 := by
        cases d <;> first | rfl | cases haw
      have hle : ((v.out.add d g).awaited : Int) ≤ v.phase.pending := h.awaited
      rw [hcount] at hle
      change (v.out.awaited : Int) ≤ v.phase.pending - 1
      omega }

/-- What a fired timer, or its reads, find. -/
lemma came_timer (h : Sound m (v.sent .timer)) : v.Waiting ∧ v.out.timers v.gen = 0 := by
  obtain ⟨hone, hw⟩ := h.timer (bump_pos _ _)
  exact ⟨hw, eq_zero_of_bump hone.le⟩

/-- What a verification that came back finds. -/
lemma came_verify (h : Sound m (v.sent .verify)) :
    v.Verifying ∧ v.out.verifies v.gen = 0 ∧ v.phase.verifyRetry = false := by
  have hpos : 0 < (v.out.add .verify v.gen).verifies v.gen := bump_pos _ _
  obtain ⟨honce, hretry⟩ := h.verifyOnce
  exact ⟨h.verifying (.inl hpos), eq_zero_of_bump honce,
    Bool.eq_false_of_not_eq_true fun hr => hpos.ne' (hretry hr)⟩

/-- What the account of an attempt finds when it comes back. -/
lemma came_summary (h : Sound m (v.sent .summary)) :
    v.past.prepared v.gen ∧ v.phase.summarized = false ∧ v.out.summaries v.gen = 0 ∧
      (v.phase.state = .running ∨ v.phase.state = .verifying) := by
  have hpos : 0 < (v.out.add .summary v.gen).summaries v.gen := bump_pos _ _
  obtain ⟨hone, -, hsum, hstate⟩ := h.summary hpos
  exact ⟨h.attempt (.inr (.inr (.inr (.inr (.inr (.inl hpos)))))), hsum,
    eq_zero_of_bump hone.le, hstate⟩

/-- What a stream that has something to say finds. -/
lemma came_pump (h : Sound m (v.sent .pump)) :
    v.past.prepared v.gen ∧ v.phase.eventsClosed = false ∧ v.out.pumps v.gen = 0 ∧
      v.out.probes v.gen = 0 := by
  have hpos : 0 < (v.out.add .pump v.gen).pumps v.gen := bump_pos _ _
  have hopen : v.phase.eventsClosed = false :=
    Bool.eq_false_of_not_eq_true fun hclosed => hpos.ne' (h.stream.2 hclosed)
  refine ⟨h.attempt (.inl hpos), hopen, eq_zero_of_bump h.stream.1,
    Nat.eq_zero_of_not_pos fun hprobe => ?_⟩
  cases hopen.symm.trans (h.probing hprobe).2.2.1

/-- What a probe that came back finds. -/
lemma came_probe (h : Sound m (v.sent .probe)) :
    v.past.prepared v.gen ∧ v.out.probes v.gen = 0 ∧ (v.phase.handle = some v.gen ∨ v.Doomed) := by
  have hpos : 0 < (v.out.add .probe v.gen).probes v.gen := bump_pos _ _
  obtain ⟨hone, -, -, hhandle⟩ := h.probing hpos
  exact ⟨h.attempt (.inr (.inr (.inl hpos))), eq_zero_of_bump hone.le, hhandle⟩

/-- What a stop that came back finds. -/
lemma came_stop (h : Sound m (v.sent .stop)) : v.Halted := by
  have hpos : 0 < (v.out.add .stop v.gen).stops v.gen := bump_pos _ _
  obtain ⟨hone, -, hhandle, hprobes⟩ := h.stopping hpos
  refine ⟨h.attempt (.inr (.inr (.inr (.inl hpos)))), ?_, eq_zero_of_bump hone.le, ?_,
    hhandle.imp id .inl, hprobes⟩
  · exact Nat.eq_zero_of_not_pos fun hlaunch => hpos.ne' (h.launching hlaunch).stops
  · exact Nat.eq_zero_of_not_pos fun hself => hpos.ne' (h.alone hself)

/-- What the loop's own word that there was nothing to stop finds. -/
lemma came_selfStop (h : Sound m (v.sent .selfStop)) : v.phase.handle = none ∧ v.Halted := by
  have hpos : 0 < (v.out.add .selfStop v.gen).selfStops v.gen := bump_pos _ _
  obtain ⟨hone, hhandle, hstop, hstate⟩ := h.selfStop hpos
  refine ⟨hhandle, h.attempt (.inr (.inr (.inr (.inr (.inl hpos))))), ?_, h.alone hpos,
    eq_zero_of_bump hone.le, .inr (.inr ⟨hstop, hstate⟩), .inr (.inl hstop)⟩
  exact Nat.eq_zero_of_not_pos fun hlaunch => hpos.ne' (h.launching hlaunch).selfStops

/-- What a preparation that came back finds. -/
lemma came_prepare (h : Sound m (v.sent .prepare)) : v.Launching ∧ v.launches = 0 := by
  have hpos : 0 < (v.out.add .prepare v.gen).prepares v.gen := bump_pos _ _
  have hsingle : (v.out.add .prepare v.gen).prepares v.gen + v.out.starts v.gen ≤ 1 := h.single
  have hzero := eq_zero_of_bump (f := v.out.prepares) ((Nat.le_add_right _ _).trans hsingle)
  exact ⟨h.launching (Nat.add_pos_left hpos _), by rw [Tenure.launches]; omega⟩

/-- What a start that came back finds. -/
lemma came_start (h : Sound m (v.sent .start)) :
    v.Launching ∧ v.launches = 0 ∧ v.Epochal m ∧ ∀ g ∈ v.past.live, g = v.gen := by
  have hpos : 0 < (v.out.add .start v.gen).starts v.gen := bump_pos _ _
  have hsingle : v.out.prepares v.gen + (v.out.add .start v.gen).starts v.gen ≤ 1 := h.single
  have hzero := eq_zero_of_bump (f := v.out.starts) ((Nat.le_add_left _ _).trans hsingle)
  exact ⟨h.launching (Nat.add_pos_right _ hpos), by rw [Tenure.launches]; omega,
    h.epochal (.inl hpos), h.liveGen⟩

/-- What a claim that came back finds. -/
lemma came_claim (h : Sound m (v.sent .claim)) :
    v.out.claims v.gen = 0 ∧ v.phase.state = .queued ∧ v.phase.claimVerified = false ∧
      v.phase.claimEpoch = 0 ∧ v.phase.recovered = false ∧ v.phase.unclassified = false := by
  obtain ⟨hone, hrest⟩ := h.claiming (bump_pos _ _)
  exact ⟨eq_zero_of_bump hone.le, hrest⟩

/-- What the approval facts find when they come back. -/
lemma came_approval (h : Sound m (v.sent .approval)) : v.phase.claimVerified :=
  h.approving (bump_pos _ _)

/-- What a claim base finds when it comes back. -/
lemma came_claimBase (h : Sound m (v.sent .claimBase)) :
    (m.pinned → v.Pinned) ∧ (v.phase.state = .queued → v.phase.claimVerified) :=
  ⟨fun hm => h.pinned hm (.inl (bump_pos _ _)), h.basing (bump_pos _ _)⟩

/-! ## Runs known to be gone -/

/-- Less may be left running. -/
lemma thin (h : Sound m v) {l} (hsub : ∀ g ∈ l, g ∈ v.past.live) :
    Sound m { v with past := { v.past with live := l } } :=
  have hnil : v.past.live = [] → l = [] := fun hv =>
    List.eq_nil_iff_forall_not_mem.2 fun g hg => by simpa [hv] using hsub g hg
  { h with
    quiet := fun hq => hnil (h.quiet hq)
    live := fun hl => h.live fun hv => hl (hnil hv)
    liveGen := fun g hg => h.liveGen g (hsub g hg)
    exit := fun he =>
      have hidle := (h.exit he).1
      ⟨⟨hidle.1, hidle.2.1, hnil hidle.2.2⟩, (h.exit he).2⟩ }

/-- A start came back without a handle: it left nothing running. -/
lemma start_failed (h : Sound m (v.sent .start)) : Sound m { v with
      phase := { v.phase with pending := v.phase.pending - 1 }
      past := { v.past with live := [] } } :=
  have hcalm := h.thin (l := []) (by simp)
  have hb := hcalm.below (v.out.below_add .start v.gen) (fun hl => absurd rfl hl)
  { hb with
    awaited := by
      have hle : ((v.out.awaited + 1 : Nat) : Int) ≤ v.phase.pending := h.awaited
      change (v.out.awaited : Int) ≤ v.phase.pending - 1
      omega }

/-- A start that is known to have left nothing running came back. -/
lemma start_gone (h : Sound m (v.sent .start)) (hlive : v.past.live = []) :
    Sound m { v with phase := { v.phase with pending := v.phase.pending - 1 } } := by
  have hpast : { v.past with live := [] } = v.past := by rw [← hlive]
  have hfailed := h.start_failed
  rwa [hpast] at hfailed

/-- A start came back with a handle. -/
lemma start_returned (h : Sound m (v.sent .start)) : Sound m { v with
      phase := { v.phase with pending := v.phase.pending - 1, handle := some v.gen } } :=
  have hL := h.came_start.1
  have hzero := h.came_start.2.1
  have hgen := h.came_start.2.2.2
  { h.start_failed with
    launching := fun hl => absurd hl (by
      change ¬ 0 < v.launches
      omega)
    verifying := fun hv => by
      rcases hv with hv | hv
      · exact absurd hv hL.verifies.not_gt
      · exact absurd hv (by simp [hL.verifyRetry])
    quiet := fun hq => absurd hq (by simp [hL.domainQuiet])
    live := fun _ => ⟨.inr rfl, hL.attached⟩
    liveGen := hgen
    probing := fun hp => absurd hp hL.probes.not_gt
    stopping := fun hs => absurd hs hL.stops.not_gt
    handle := fun g hg => by
      injection hg with hg
      exact ⟨hg.symm, .inl hL.state, hL.prepared,
        fun hq => absurd hq (by simp [hL.domainQuiet]), fun _ => hL.budgetStop⟩
    parking := fun hp => absurd hp (by simp [hL.parkOnBudgetPending])
    selfStop := fun hs => absurd hs hL.selfStops.not_gt
    exit := fun he => absurd (h.exit he).1.2.1 (by
      change (v.out.add .start v.gen).starts v.gen ≠ 0
      simp [Out.add]) }

end Sound

end Ben
