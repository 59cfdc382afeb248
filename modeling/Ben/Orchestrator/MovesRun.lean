import Ben.Orchestrator.MovesLaunch

/-!
# How a run ends

A run reports its outcome, is stopped or probed, becomes quiet, is accounted for and verified.
These are the changes of a tenure from the moment its agent runs.
-/

namespace Ben

variable [Platform]

namespace Sound

variable {m : Mode} {v : Tenure} (h : Sound m v)

include h

/-! ## Running -/

/-- No timer is armed for an attempt that was prepared. -/
lemma no_timers (hprep : v.past.prepared v.gen) : v.out.timers v.gen = 0 :=
  Nat.eq_zero_of_not_pos fun ht => (h.timer ht).2.unprepared hprep

/-- The launched agent runs. -/
lemma run (hstate : v.phase.state = .preparing) (hprep : v.past.prepared v.gen)
    (hzero : v.launches = 0) (hepoch : v.Epochal m) (hbudget : v.phase.budgetStop = false)
    (hout : v.phase.outcome = false) (hclear : m.frugal → ¬ v.past.overrun m.limits.maxCost)
    (hprice : m.frugal → v.phase.maxCost = m.limits.maxCost) :
    Sound m { v with phase := { v.phase with state := .running } } :=
  { h with
    fresh := fun hf => by rcases hf with hf | hf | hf <;> cases hf
    timer := fun ht => absurd hprep (h.timer ht).2.unprepared
    dispatching := fun hd => by
      rcases h.dispatching hd with hs | ⟨hs, -⟩ <;> simp [hstate] at hs
    launching := fun hl => absurd hl hzero.not_gt
    verifying := fun hv => by simpa [hstate] using (h.verifying hv).state
    summary := fun hs => by
      rcases (h.summary hs).2.2.2 with hs | hs <;> simp [hstate] at hs
    handle := fun g hg =>
      let ⟨hgen, _, hp, hq, _⟩ := h.handle g hg
      ⟨hgen, .inr (.inl rfl), hp, hq, fun _ => hbudget⟩
    budget := fun hb => absurd hb (by simp [hbudget])
    held := fun ho => absurd ho (by simp [hout])
    sorted := fun ho => absurd ho (by simp [hout])
    ran := fun _ => hprep
    selfStop := fun hs =>
      let ⟨hone, hhandle, hstop, _⟩ := h.selfStop hs
      ⟨hone, hhandle, hstop, .inl rfl⟩
    epochal := fun _ => hepoch
    basing := fun _ hq => by cases hq
    claiming := fun hc => by simpa [hstate] using (h.claiming hc).2.1
    unclassified := fun hu => by simpa [hstate] using (h.unclassified hu).1
    pinned := fun hm _ => h.pinned hm (.inr (.inr (.inr (.inl hstate))))
    queued := fun _ _ hq => by cases hq
    published := fun hp => by
      rcases (h.published hp).2.2 with hs | hs
      · simp [hstate] at hs
      · simpa [hstate] using (h.unclassified hs).1
    rationed := fun hm => (h.rationed hm).at_rest rfl ⟨nofun, nofun, nofun⟩
      nofun (Nat.eq_zero_of_add_eq_zero_right hzero) (h.no_timers hprep)
    priced := fun hm _ => hprice hm
    unheard := fun _ _ _ _ => ⟨nofun, fun hs => by
      rcases (h.summary hs).2.2.2 with hs | hs <;> simp [hstate] at hs⟩
    barred := fun hm ho => absurd ho (hclear hm) }

/-- A failure of the run is held. -/
lemma hold (hstate : v.phase.state = .running) :
    Sound m { v with phase := { v.phase with outcome := true, succeeded := false } } :=
  { h with
    launching := fun hl => by simpa [hstate] using (h.launching hl).state
    verifying := fun hv => by simpa [hstate] using (h.verifying hv).state
    held := fun _ _ => ⟨h.ran hstate, .inl hstate⟩
    sorted := fun _ => ⟨fun hv => by simp [show v.phase.state = .running from hstate] at hv,
      fun _ => rfl⟩ }

/-- A success of the run is held and moves the record on. -/
lemma succeed (hstate : v.phase.state = .running) (hstop : v.phase.stopping = false)
    (hterminal : m.frugal → v.past.terminal v.gen) :
    Sound m { v with phase := { v.phase with
      state := .verifying, outcome := true, succeeded := true } } :=
  have hbudget : v.phase.budgetStop = false := by
    by_contra hb
    simpa [hstop] using (h.budget (by simpa using hb)).1 hstate
  { h with
    fresh := fun hf => by rcases hf with hf | hf | hf <;> cases hf
    timer := fun ht => absurd (h.ran hstate) (h.timer ht).2.unprepared
    dispatching := fun hd => by
      rcases h.dispatching hd with hs | ⟨hs, -⟩ <;> simp [hstate] at hs
    launching := fun hl => by simpa [hstate] using (h.launching hl).state
    verifying := fun hv => by simpa [hstate] using (h.verifying hv).state
    summary := fun hs =>
      let ⟨hone, hflag, hsum, _⟩ := h.summary hs
      ⟨hone, hflag, hsum, .inr rfl⟩
    handle := fun g hg =>
      let ⟨hgen, _, hp, hq, _⟩ := h.handle g hg
      ⟨hgen, .inr (.inr rfl), hp, hq, nofun⟩
    budget := fun hb => absurd hb (by simp [hbudget])
    held := fun _ _ => ⟨h.ran hstate, .inr rfl⟩
    sorted := fun _ => ⟨fun _ => rfl, nofun⟩
    ran := fun hr => by cases hr
    selfStop := fun hs => absurd (h.selfStop hs).2.2.1 (by simp [hstop])
    epochal := fun _ => h.epochal (.inr (.inl hstate))
    basing := fun _ hq => by cases hq
    claiming := fun hc => by simpa [hstate] using (h.claiming hc).2.1
    unclassified := fun hu => by simpa [hstate] using (h.unclassified hu).1
    pinned := fun hm _ => h.pinned hm (.inr (.inr (.inr (.inr (.inl hstate)))))
    queued := fun _ _ hq => by cases hq
    published := fun hp => by
      rcases (h.published hp).2.2 with hs | hs
      · simp [hstate] at hs
      · simpa [hstate] using (h.unclassified hs).1
    rationed := fun hm => (h.rationed hm).at_rest rfl ⟨nofun, nofun, nofun⟩
      nofun (Nat.eq_zero_of_add_eq_zero_right (h.no_launch (by simp [hstate])))
      (h.no_timers (h.ran hstate))
    priced := fun hm _ => h.priced hm (.inr hstate)
    unheard := fun hm _ ht => absurd (hterminal hm) ht
    barred := fun hm ho =>
      let ⟨_, _, _, _, h5, h6⟩ := h.barred hm ho
      ⟨nofun, nofun, nofun, nofun, fun _ => h5 (.inl hstate), h6⟩ }

/-- The cost of the run breaks its budget. -/
lemma breach (hstate : v.phase.state = .running) (hprobes : v.out.probes v.gen = 0) :
    Sound m { v with phase := { v.phase with stopping := true, budgetStop := true } } :=
  { h.stop with
    launching := fun hl => by simpa [hstate] using (h.launching hl).state
    handle := fun g hg =>
      let ⟨hgen, hs, hp, hq, _⟩ := h.handle g hg
      ⟨hgen, hs, hp, hq, fun hs => by simp [show v.phase.state = .running from hstate] at hs⟩
    budget := fun _ =>
      ⟨fun _ => rfl, by simp [show v.phase.state = .running from hstate], hprobes⟩ }

/-! ## Becoming quiet -/

/-- Nothing is left of the run, and its handle is let go. -/
lemma quieten (hlive : v.past.live = []) (hzero : v.launches = 0)
    (hprobes : v.out.probes v.gen = 0 ∨ v.Doomed)
    (hstops : v.out.stops v.gen = 0 ∨ v.phase.suspended) :
    Sound m { v with phase := { v.phase with domainQuiet := true, handle := none } } :=
  { h with
    launching := fun hl => absurd hl hzero.not_gt
    probing := fun hp =>
      let ⟨hone, hflight, hclosed, _⟩ := h.probing hp
      ⟨hone, hflight, hclosed, .inr (hprobes.resolve_left (Nat.pos_iff_ne_zero.1 hp))⟩
    stopping := fun hs =>
      let ⟨hone, hflight, _, hrest⟩ := h.stopping hs
      ⟨hone, hflight, .inr (hstops.resolve_left (Nat.pos_iff_ne_zero.1 hs)), hrest⟩
    verifying := fun hv =>
      let ⟨h1, _, h2⟩ := h.verifying hv
      ⟨h1, rfl, h2⟩
    quiet := fun _ => hlive
    live := fun hl => absurd hlive hl
    handle := fun g hg => by cases hg
    parking := fun _ => ⟨rfl, rfl⟩
    held := fun _ hq => by cases hq
    selfStop := fun hs =>
      let ⟨hone, _, hrest⟩ := h.selfStop hs
      ⟨hone, rfl, hrest⟩ }

/-- Nothing is left of a run without a handle, or of a suspended one, whose handle is kept until
its stream is done with. -/
lemma quieten_held (hlive : v.past.live = []) (hzero : v.launches = 0)
    (hheld : v.phase.handle = none ∨ v.phase.suspended) :
    Sound m { v with phase := { v.phase with domainQuiet := true } } :=
  { h with
    launching := fun hl => absurd hl hzero.not_gt
    quiet := fun _ => hlive
    handle := fun g hg =>
      let ⟨hgen, hs, hp, _, hb⟩ := h.handle g hg
      ⟨hgen, hs, hp, fun _ => hheld.resolve_left (by
        rw [show v.phase.handle = some g from hg]
        rintro ⟨⟩), hb⟩
    parking := fun hp => ⟨rfl, (h.parking hp).2⟩
    held := fun _ hq => by cases hq }

/-- The outcome that was held is acted on, or dropped. -/
lemma unhold : Sound m { v with phase := { v.phase with outcome := false, succeeded := false } } :=
  { h with
    launching := fun hl =>
      let ⟨h1, h2, _, h3⟩ := h.launching hl
      ⟨h1, h2, rfl, h3⟩
    verifying := fun hv =>
      let ⟨h1, h2, _, h3⟩ := h.verifying hv
      ⟨h1, h2, rfl, h3⟩
    held := fun ho => by cases ho
    sorted := fun ho => by cases ho }

/-- A finished attempt whose account is in has nothing left to wait for. -/
lemma settled_of_summarized (hprep : v.past.prepared v.gen) (hzero : v.launches = 0)
    (hhandle : v.phase.handle = none) (hsum : v.phase.summarized)
    (hverifies : v.out.verifies v.gen = 0) (hretry : v.phase.verifyRetry = false)
    (hout : v.phase.outcome → v.phase.domainQuiet) : v.Settled where
  launch := hzero
  handle := hhandle
  timers := Nat.eq_zero_of_not_pos fun ht => (h.timer ht).2.unprepared hprep
  verifies := hverifies
  verifyRetry := hretry
  outcome := hout
  summaries := Nat.eq_zero_of_not_pos fun hs => by simpa [hsum] using (h.summary hs).2.2.1
  selfStops := fun _ => hsum
  claims := Nat.eq_zero_of_not_pos fun hc => h.fresh (.inl (h.claiming hc).2.1) hprep
  unclassified := by
    by_contra hu
    exact h.fresh (.inl (h.unclassified (by simpa using hu)).1) hprep

/-- Outside verification no verification is under way or waited for. -/
lemma no_verify (hstate : v.phase.state ≠ .verifying ∨ v.phase.outcome ∨
      v.phase.parkOnBudgetPending) :
    v.out.verifies v.gen = 0 ∧ v.phase.verifyRetry = false := by
  have hnot : ¬ v.Verifying := by
    rintro hV
    rcases hstate with hs | hs | hs
    · exact hs hV.state
    · simp [hV.outcome] at hs
    · simp [hV.parkOnBudgetPending] at hs
  exact ⟨Nat.eq_zero_of_not_pos fun hv => hnot (h.verifying (.inl hv)), by
    by_contra hr
    exact hnot (h.verifying (.inr (by simpa using hr)))⟩

/-- The stop that was under way is over, and what broke its budget is barred otherwise. -/
lemma unstop (hstops : v.out.stops v.gen = 0) (hself : v.out.selfStops v.gen = 0)
    (hbar : m.frugal → v.past.overrun m.limits.maxCost →
      v.phase.state = .running ∨ v.phase.state = .verifying → v.phase.leaving ∨
        (v.phase.parkOnBudgetPending ∨ v.phase.finish ∨
          v.phase.suspended)) :
    Sound m { v with phase := { v.phase with stopping := false, budgetStop := false } } :=
  { h with
    launching := fun hl =>
      let ⟨h1, h2, h3, h4, h5, h6, _, h7⟩ := h.launching hl
      ⟨h1, h2, h3, h4, h5, h6, rfl, h7⟩
    stopping := fun hs => absurd hs hstops.not_gt
    handle := fun g hg =>
      let ⟨hgen, hs, hp, hq, _⟩ := h.handle g hg
      ⟨hgen, hs, hp, hq, fun _ => rfl⟩
    budget := fun hb => by cases hb
    selfStop := fun hs => absurd hs hself.not_gt
    barred := fun hm ho =>
      let ⟨h1, h2, h3, h4, h5, h6⟩ := h.barred hm ho
      ⟨h1, h2, h3, h4, fun hs => by
        rcases h5 hs with hl | ⟨hp, -⟩
        · exact .inl hl
        · exact (hbar hm ho hs).imp id fun hrest => ⟨hp, .inr hrest⟩, h6⟩ }

/-! ## The stream, probes and stops -/

/-- The run's stream is followed. -/
lemma pump (hprep : v.past.prepared v.gen) (hopen : v.phase.eventsClosed = false)
    (hpumps : v.out.pumps v.gen = 0) (hzero : v.launches = 0) :
    Sound m (v.sent .pump) :=
  have hcount : (v.out.add .pump v.gen).pumps v.gen = v.out.pumps v.gen + 1 := by
    simp [Out.add]
  { h with
    ahead := h.ahead_add .pump
    launching := fun hl => absurd hl hzero.not_gt
    attempt := fun _ => hprep
    stream := ⟨by
      change (v.out.add .pump v.gen).pumps v.gen ≤ 1
      omega, fun hc => absurd hc (by simp [hopen])⟩ }

/-- The run's stream is closed, and its end is waited for. -/
lemma closeStream (hprep : v.past.prepared v.gen) (hpumps : v.out.pumps v.gen = 0)
    (hzero : v.launches = 0) :
    Sound m { v with
      phase := { v.phase with eventsClosed := true }, out := v.out.add .drain v.gen } :=
  { h with
    ahead := h.ahead_add .drain
    launching := fun hl => absurd hl hzero.not_gt
    attempt := fun _ => hprep
    stream := ⟨hpumps.trans_le (Nat.zero_le _), fun _ => hpumps⟩
    probing := fun hp =>
      let ⟨hone, hflight, _, hhandle⟩ := h.probing hp
      ⟨hone, hflight, rfl, hhandle⟩
    unheard := fun _ hc => by cases hc }

/-- The stream of an earlier attempt goes on, or is closed. -/
lemma stale {d} {g : Nat} (hd : d = .pump ∨ d = .drain) (hg : g < v.gen) :
    Sound m { v with out := v.out.add d g } := by
  have hne : v.gen ≠ g := Nat.ne_of_gt hg
  have hahead (d) : ∀ g', v.gen < g' → (v.out.add d g).Untouched g' ∧ ¬ v.past.prepared g' :=
    fun g' hg' => ⟨(h.ahead g' hg').1.add (Nat.ne_of_gt (hg.trans hg')) d, (h.ahead g' hg').2⟩
  rcases hd with rfl | rfl
  · have hsame : (v.out.add .pump g).pumps v.gen = v.out.pumps v.gen := bump_of_ne _ hne
    exact { h with
      ahead := hahead .pump
      launching := fun hl =>
        have hL := h.launching hl
        ⟨hL.state, hL.handle, hL.outcome, hL.domainQuiet, hL.verifyRetry, hL.parkOnBudgetPending,
          hL.budgetStop, hL.prepared, hL.attached, hL.eventsClosed, hsame.trans hL.pumps, hL.drains,
          hL.probes, hL.stops, hL.selfStops, hL.summaries, hL.verifies⟩
      attempt := fun ha => h.attempt (ha.imp (hsame ▸ ·) id)
      stream := ⟨hsame.trans_le h.stream.1, fun hc => hsame.trans (h.stream.2 hc)⟩ }
  · have hsame : (v.out.add .drain g).drains v.gen = v.out.drains v.gen := bump_of_ne _ hne
    exact { h with
      ahead := hahead .drain
      launching := fun hl =>
        have hL := h.launching hl
        ⟨hL.state, hL.handle, hL.outcome, hL.domainQuiet, hL.verifyRetry, hL.parkOnBudgetPending,
          hL.budgetStop, hL.prepared, hL.attached, hL.eventsClosed, hL.pumps, hsame.trans hL.drains,
          hL.probes, hL.stops, hL.selfStops, hL.summaries, hL.verifies⟩
      attempt := fun ha => h.attempt (ha.imp id (Or.imp (hsame ▸ ·) id)) }

omit h in
/-- A stream is closed, whatever attempt it was of. -/
lemma close {g : Nat} (h : Sound m { v with out := v.out.add .pump g }) :
    Sound m { v with out := v.out.add .drain g } := by
  have hs := h.came (by decide)
  have hpos : 0 < (v.out.add .pump g).pumps g := by simp [Out.add]
  rcases lt_trichotomy g v.gen with hg | rfl | hg
  · exact hs.stale (.inr rfl) hg
  · have hprep := h.came_pump.1
    exact { hs with
      ahead := hs.ahead_add .drain
      launching := fun hl => absurd (h.launching hl).pumps hpos.ne'
      attempt := fun _ => hprep }
  · exact absurd (h.ahead g hg).1.pumps hpos.ne'

/-- A probe is sent out. -/
lemma probe (hhandle : v.phase.handle = some v.gen) (hclosed : v.phase.eventsClosed)
    (hprobes : v.phase.probeInFlight = false) (hstops : v.phase.stopInFlight = false)
    (hbudget : v.phase.budgetStop = false) :
    Sound m { v with
      phase := { v.phase with probeInFlight := true }, out := v.out.add .probe v.gen } :=
  have hcount : (v.out.add .probe v.gen).probes v.gen = v.out.probes v.gen + 1 := by
    simp [Out.add]
  have hnone : v.out.probes v.gen = 0 := Nat.eq_zero_of_not_pos fun hp => by
    simpa [hprobes] using (h.probing hp).2.1
  { h with
    ahead := h.ahead_add .probe
    launching := fun hl => by simpa [hhandle] using (h.launching hl).handle
    attempt := fun _ => (h.handle _ hhandle).2.2.1
    probing := fun _ => ⟨hcount.trans (by rw [hnone]), rfl, hclosed, .inl hhandle⟩
    stopping := fun hs => by simpa [hstops] using (h.stopping hs).2.1
    budget := fun hb => absurd hb (by simp [hbudget]) }

/-- A stop is sent out. -/
lemma sendStop (hhandle : v.phase.handle = some v.gen) (hstops : v.phase.stopInFlight = false)
    (hprobes : v.out.probes v.gen = 0 ∨ v.phase.stopping ∨ v.Doomed) :
    Sound m { v with
      phase := { v.phase with stopInFlight := true }, out := v.out.add .stop v.gen } :=
  have hcount : (v.out.add .stop v.gen).stops v.gen = v.out.stops v.gen + 1 := by
    simp [Out.add]
  have hnone : v.out.stops v.gen = 0 := Nat.eq_zero_of_not_pos fun hp => by
    simpa [hstops] using (h.stopping hp).2.1
  { h with
    ahead := h.ahead_add .stop
    launching := fun hl => by simpa [hhandle] using (h.launching hl).handle
    attempt := fun _ => (h.handle _ hhandle).2.2.1
    stopping := fun _ => ⟨hcount.trans (by rw [hnone]), rfl, .inl hhandle, hprobes⟩
    alone := fun hs => absurd (hhandle.symm.trans (h.selfStop hs).2.1) (Option.some_ne_none _) }

/-- Without a handle there is nothing to stop, and the loop says so itself. -/
lemma sendSelfStop (hstate : v.phase.state = .running) (hhandle : v.phase.handle = none)
    (hstop : v.phase.stopping) (hself : v.out.selfStops v.gen = 0)
    (hstops : v.out.stops v.gen = 0) :
    Sound m (v.sent .selfStop) :=
  have hcount : (v.out.add .selfStop v.gen).selfStops v.gen = v.out.selfStops v.gen + 1 := by
    simp [Out.add]
  { h with
    ahead := h.ahead_add .selfStop
    launching := fun hl => by simpa [hstate] using (h.launching hl).state
    attempt := fun _ => h.ran hstate
    selfStop := fun _ => ⟨hcount.trans (by rw [hself]), hhandle, hstop, .inl hstate⟩
    alone := fun _ => hstops }

/-- A probe came back. -/
lemma probed (hprobes : v.out.probes v.gen = 0) :
    Sound m { v with phase := { v.phase with probeInFlight := false } } :=
  { h with probing := fun hp => absurd hp hprobes.not_gt }

/-- A stop came back. -/
lemma stopped (hstops : v.out.stops v.gen = 0) :
    Sound m { v with phase := { v.phase with stopInFlight := false } } :=
  { h with stopping := fun hp => absurd hp hstops.not_gt }

/-! ## The account of an attempt -/

/-- A breach waits for the account of the attempt. -/
lemma awaitBudget (hquiet : v.phase.domainQuiet) (hhandle : v.phase.handle = none)
    (hsum : v.phase.summarized = false) :
    Sound m { v with phase := { v.phase with parkOnBudgetPending := true } } :=
  { h with
    launching := fun hl => by simpa [hquiet] using (h.launching hl).domainQuiet
    verifying := fun hv => by simpa [hsum] using (h.verifying hv).summarized
    parking := fun _ => ⟨hquiet, hhandle⟩
    unheard := fun hm hc ht hp => ⟨(h.unheard hm hc ht hp).1, fun _ => .inl rfl⟩
    barred := fun hm ho =>
      let ⟨h1, h2, h3, h4, h5, _, h7⟩ := h.barred hm ho
      ⟨h1, h2, h3, h4, fun hs => (h5 hs).imp id fun hp => ⟨hp.1, .inr (.inl rfl)⟩,
        fun _ => .inl rfl, h7⟩ }

/-- The account of an attempt is asked for. -/
lemma summarize (hstate : v.phase.state = .running ∨ v.phase.state = .verifying)
    (hprep : v.past.prepared v.gen) (hflag : v.phase.summarizing = false)
    (hsum : v.phase.summarized = false)
    (hheard : m.frugal → v.phase.eventsClosed = false →
      v.phase.parkOnBudgetPending ∨ v.phase.leaving)
    (hbar : m.frugal → v.past.overrun m.limits.maxCost →
      v.phase.parkOnBudgetPending ∨ v.phase.leaving) :
    Sound m { v with
      phase := { v.phase with summarizing := true, pending := v.phase.pending + 1 }
      out := v.out.add .summary v.gen } :=
  have hcount : (v.out.add .summary v.gen).summaries v.gen = v.out.summaries v.gen + 1 := by
    simp [Out.add]
  have hnone : v.out.summaries v.gen = 0 := Nat.eq_zero_of_not_pos fun hp => by
    simpa [hflag] using (h.summary hp).2.1
  { h with
    ahead := h.ahead_add .summary
    launching := fun hl => by
      have hp := (h.launching hl).state
      rcases hstate with hs | hs <;> simp [hs] at hp
    attempt := fun _ => hprep
    summary := fun _ => ⟨hcount.trans (by rw [hnone]), rfl, hsum, hstate⟩
    awaited := h.awaited_add
    unheard := fun hm hc ht hp => ⟨(h.unheard hm hc ht hp).1, fun _ => hheard hm hc⟩
    barred := fun hm ho =>
      let ⟨h1, h2, h3, h4, h5, _, h7⟩ := h.barred hm ho
      ⟨h1, h2, h3, h4, h5, fun _ => hbar hm ho, h7⟩ }

/-- The account of the attempt is in. -/
lemma summarised (hnone : v.out.summaries v.gen = 0) {b : Bool} :
    Sound m { v with phase := { v.phase with summarizing := b, summarized := true } } :=
  { h with
    verifying := fun hv =>
      let ⟨h1, h2, h3, _, h5⟩ := h.verifying hv
      ⟨h1, h2, h3, rfl, h5⟩
    summary := fun hs => absurd hs hnone.not_gt
    selfStop := fun hs =>
      let ⟨hone, hhandle, hstop, _⟩ := h.selfStop hs
      ⟨hone, hhandle, hstop, .inr rfl⟩ }

/-! ## Verification -/

/-- A verification is sent out. -/
lemma verify (hV : v.Verifying) (hnone : v.out.verifies v.gen = 0)
    (hretry : v.phase.verifyRetry = false)
    (hleave : m.frugal → v.past.overrun m.limits.maxCost → v.phase.leaving) :
    Sound m { v with
      phase := { v.phase with pending := v.phase.pending + 1 }
      out := v.out.add .verify v.gen } :=
  have hcount : (v.out.add .verify v.gen).verifies v.gen = v.out.verifies v.gen + 1 := by
    simp [Out.add]
  { h with
    ahead := h.ahead_add .verify
    launching := fun hl => by simpa [hV.state] using (h.launching hl).state
    attempt := fun _ => hV.prepared
    verifying := fun _ => hV
    verifyOnce := ⟨hcount.trans_le (by rw [hnone]), fun hr => absurd hr (by simp [hretry])⟩
    awaited := h.awaited_add
    barred := fun hm ho =>
      let ⟨h1, h2, h3, h4, h5, h6, _⟩ := h.barred hm ho
      ⟨h1, h2, h3, h4, h5, h6, fun _ => hleave hm ho⟩ }

/-- A verification is given up for now. -/
lemma retryVerify (hV : v.Verifying) (hnone : v.out.verifies v.gen = 0)
    (hleave : m.frugal → v.past.overrun m.limits.maxCost → v.phase.leaving) :
    Sound m { v with phase := { v.phase with verifyRetry := true } } :=
  { h with
    launching := fun hl => by simpa [hV.state] using (h.launching hl).state
    verifying := fun _ => hV
    verifyOnce := ⟨hnone.trans_le (Nat.zero_le _), fun _ => hnone⟩
    barred := fun hm ho =>
      let ⟨h1, h2, h3, h4, h5, h6, _⟩ := h.barred hm ho
      ⟨h1, h2, h3, h4, h5, h6, fun _ => hleave hm ho⟩ }

/-- A verification that was given up is asked for again. -/
lemma unretry : Sound m { v with phase := { v.phase with verifyRetry := false } } :=
  { h with
    launching := fun hl =>
      let ⟨h1, h2, h3, h4, _, h6⟩ := h.launching hl
      ⟨h1, h2, h3, h4, rfl, h6⟩
    verifying := fun hv => h.verifying (.inl (hv.resolve_right nofun))
    verifyOnce := ⟨h.verifyOnce.1, nofun⟩
    barred := fun hm ho =>
      let ⟨h1, h2, h3, h4, h5, h6, h7⟩ := h.barred hm ho
      ⟨h1, h2, h3, h4, h5, h6, fun hv => h7 (.inl (hv.resolve_right nofun))⟩ }

/-- Workers that are astray are not counted against the current attempt. -/
lemma astray {f : Workspace → Nat → Nat} {r : String → Nat → Nat}
    (hf : f v.phase.workspace v.gen = 0) (hf' : ∀ g, v.gen < g → ∀ ws, f ws g = 0)
    (hr : r v.phase.id v.gen = 0) (hr' : ∀ g, v.gen < g → ∀ id, r id g = 0) :
    Sound m { v with out := { v.out with strayVerifies := f, strayRuns := r } } :=
  { h with
    ahead := fun g hg =>
      ⟨{ (h.ahead g hg).1 with strayVerifies := hf' g hg, strayRuns := hr' g hg }, (h.ahead g hg).2⟩
    stray := ⟨hf, hr⟩ }

/-- The work was found published. -/
lemma done (hV : v.Verifying) (hnone : v.out.verifies v.gen = 0)
    (hretry : v.phase.verifyRetry = false) (hcert : v.past.certified v.phase.id v.phase.workspace)
    (htimers : v.out.timers v.gen = 0) (hsummaries : v.out.summaries v.gen = 0) {P : Prop}
    {C : String → Workspace → Prop} (hC : C v.phase.id v.phase.workspace) :
    Sound m { v with
      phase := { v.phase with state := .done }
      past := { v.past with published := P, publishedCertified := C } } :=
  { h with
    fresh := fun hf => by rcases hf with hf | hf | hf <;> cases hf
    timer := fun ht => absurd ht htimers.not_gt
    dispatching := fun hd => by
      rcases h.dispatching hd with hs | ⟨hs, -⟩ <;> simp [hV.state] at hs
    launching := fun hl => by simpa [hV.state] using (h.launching hl).state
    verifying := fun hv => by
      rcases hv with hv | hv
      · exact absurd hv hnone.not_gt
      · exact absurd hv (by simp [hretry])
    summary := fun hs => absurd hs hsummaries.not_gt
    handle := fun g hg => absurd hg (by simp [hV.handle])
    budget := fun hb => absurd hV.state (h.budget hb).2.1
    held := fun ho => absurd ho (by simp [hV.outcome])
    sorted := fun ho => absurd ho (by simp [hV.outcome])
    ran := fun hr => by cases hr
    selfStop := fun hs =>
      let ⟨hone, hhandle, hstop, _⟩ := h.selfStop hs
      ⟨hone, hhandle, hstop, .inr hV.summarized⟩
    epochal := fun _ => h.epochal (.inr (.inr (.inl hV.state)))
    basing := fun _ hq => by cases hq
    claiming := fun hc => by simpa [hV.state] using (h.claiming hc).2.1
    unclassified := fun hu => by simpa [hV.state] using (h.unclassified hu).1
    pinned := fun hm hp => h.pinned hm (by
      rcases hp with hp | hp | hp | hp | hp | hp
      · exact .inl hp
      · exact .inr (.inl hp)
      all_goals cases hp)
    queued := fun _ _ hq => by cases hq
    published := fun _ => ⟨hcert, h.epochal (.inr (.inr (.inl hV.state))), .inl rfl⟩
    publishedCertified := hC
    rationed := fun hm => (h.rationed hm).at_rest rfl ⟨nofun, nofun, nofun⟩
      nofun (Nat.eq_zero_of_add_eq_zero_right (h.no_launch (by simp [hV.state]))) htimers
    priced := fun hm hp => h.priced hm (hp.imp id nofun)
    unheard := fun _ _ _ _ => ⟨nofun, fun hs => absurd hs hsummaries.not_gt⟩
    barred := fun _ _ => ⟨nofun, nofun, nofun, nofun,
      by rintro (⟨⟨⟩⟩ | ⟨⟨⟩⟩), fun hs => absurd hs hsummaries.not_gt, fun hv => hv.elim
        (fun hv => absurd hv hnone.not_gt) fun hv => absurd hv (by simp [hretry])⟩ }

/-- Published work is treated as such again. -/
lemma republish (hstate : v.phase.state = .done ∨ v.phase.unclassified)
    (hcert : v.past.certified v.phase.id v.phase.workspace) (hepoch : v.Epochal m) {P R : Prop}
    (hR : R) {C : String → Workspace → Prop} (hC : C v.phase.id v.phase.workspace) :
    Sound m { v with
      past := { v.past with published := P, reliedWhenFree := R, publishedCertified := C } } :=
  { h with
    published := fun _ => ⟨hcert, hepoch, hstate⟩
    reliedWhenFree := hR
    publishedCertified := hC }

end Sound

end Ben
