import Ben.Orchestrator.Moves

/-!
# How an attempt goes

An attempt is prepared, launched, watched, known to be gone, accounted for and verified.  These
are the changes of a tenure along that way, each with what it takes for the invariant to survive
it.
-/

namespace Ben

variable [Platform]

namespace Sound

variable {m : Mode} {v : Tenure} (h : Sound m v)

include h

/-! ## Getting ready -/

/-- Nothing of an attempt that was not prepared is under way. -/
lemma none_of_unprepared (hp : ¬ v.past.prepared v.gen) :
    v.out.pumps v.gen = 0 ∧ v.out.drains v.gen = 0 ∧ v.out.probes v.gen = 0 ∧
      v.out.stops v.gen = 0 ∧ v.out.selfStops v.gen = 0 ∧ v.out.summaries v.gen = 0 ∧
      v.out.verifies v.gen = 0 ∧ v.launches = 0 := by
  have hnone : ∀ n : Nat, (0 < n → v.past.prepared v.gen) → n = 0 := fun n hn =>
    Nat.eq_zero_of_not_pos fun hpos => hp (hn hpos)
  exact ⟨hnone _ fun hn => h.attempt (.inl hn), hnone _ fun hn => h.attempt (.inr (.inl hn)),
    hnone _ fun hn => h.attempt (.inr (.inr (.inl hn))),
    hnone _ fun hn => h.attempt (.inr (.inr (.inr (.inl hn)))),
    hnone _ fun hn => h.attempt (.inr (.inr (.inr (.inr (.inl hn))))),
    hnone _ fun hn => h.attempt (.inr (.inr (.inr (.inr (.inr (.inl hn)))))),
    hnone _ fun hn => h.attempt (.inr (.inr (.inr (.inr (.inr (.inr hn)))))),
    hnone _ fun hn => (h.launching hn).prepared⟩

/-- A record between attempts is settled. -/
lemma settled_of_unprepared (hp : ¬ v.past.prepared v.gen) (htimers : v.out.timers v.gen = 0)
    (hclaims : v.out.claims v.gen = 0) (hun : v.phase.unclassified = false) : v.Settled :=
  have hu := h.none_of_unprepared hp
  { launch := hu.2.2.2.2.2.2.2
    handle := by
      cases hh : v.phase.handle with
      | none => rfl
      | some g => exact absurd (h.handle g hh).2.2.1 hp
    timers := htimers
    verifies := hu.2.2.2.2.2.2.1
    verifyRetry := by
      by_contra hv
      exact hp (h.verifying (.inr (by simpa using hv))).prepared
    outcome := fun ho => by
      by_contra hq
      exact hp (h.held ho (by simpa using hq)).1
    summaries := hu.2.2.2.2.2.1
    selfStops := fun hs => absurd hs hu.2.2.2.2.1.not_gt
    claims := hclaims
    unclassified := hun }

/-- An attempt whose launch came back without a run is settled. -/
lemma settled_of_launching (hL : v.Launching) (hzero : v.launches = 0) : v.Settled where
  launch := hzero
  handle := hL.handle
  timers := Nat.eq_zero_of_not_pos fun ht => (h.timer ht).2.unprepared hL.prepared
  verifies := hL.verifies
  verifyRetry := hL.verifyRetry
  outcome := fun ho => absurd ho (by simp [hL.outcome])
  summaries := hL.summaries
  selfStops := fun hs => absurd hs hL.selfStops.not_gt
  claims := Nat.eq_zero_of_not_pos fun hc => by simpa [hL.state] using (h.claiming hc).2.1
  unclassified := by
    by_contra hu
    simpa [hL.state] using (h.unclassified (by simpa using hu)).1

/-- The claim base was initialised for a dispatch that is now going ahead. -/
lemma undispatch : Sound m { v with phase := { v.phase with claimBaseDispatch := false } } :=
  { h with
    timer := fun ht =>
      have hw := (h.timer ht).2
      ⟨(h.timer ht).1, hw.unprepared, hw.state.imp (fun hb => ⟨hb.1, rfl⟩) id⟩
    dispatching := fun hd => by cases hd
    pinned := fun hm hp => h.pinned hm (by
      rcases hp with hp | hp | hp
      · exact .inl hp
      · cases hp
      · exact .inr (.inr hp)) }

/-- A settled record gets ready for its attempt. -/
lemma ready (hs : v.Settled) (hdone : v.phase.state ≠ .done)
    (hd : v.phase.claimBaseDispatch = false)
    (hpin : m.pinned → v.Pinned) (hspare : m.rationed → v.Spare m.limits)
    (hclear : m.frugal → ¬ v.past.overrun m.limits.maxCost) :
    Sound m { v with phase := { v.phase with state := .preparing } } :=
  { h with
    fresh := fun hf => by rcases hf with hf | hf | hf <;> cases hf
    timer := fun ht => absurd ht hs.timers.not_gt
    dispatching := fun hd' => absurd hd' (by simp [hd])
    launching := fun hl => absurd hl (h.idle_of_settled hs).not_launching
    verifying := fun hv => absurd hv hs.not_verifying
    summary := fun hsum => absurd hsum hs.summaries.not_gt
    handle := fun g hg => absurd hg (by simp [hs.handle])
    budget := fun hb => ⟨nofun, nofun, (h.budget hb).2.2⟩
    held := fun ho hq => absurd (hs.outcome ho) (by simp [show v.phase.domainQuiet = false from hq])
    sorted := fun _ => ⟨nofun, nofun⟩
    selfStop := fun hself =>
      let ⟨hone, hhandle, hstop, _⟩ := h.selfStop hself
      ⟨hone, hhandle, hstop, .inr (hs.selfStops hself)⟩
    ran := fun hr => by cases hr
    basing := fun _ hq => by cases hq
    epochal := fun he => by
      rcases he with he | he | he | he
      · have := hs.launch
        change 0 < v.out.starts v.gen at he
        omega
      all_goals cases he
    claiming := fun hc => absurd hc hs.claims.not_gt
    unclassified := fun hu => absurd hu (by simp [hs.unclassified])
    pinned := fun hm _ => hpin hm
    queued := fun _ _ hq => by cases hq
    published := fun hpub => absurd hpub (h.unpublished hdone hs.unclassified)
    rationed := fun hm => (h.rationed hm).of_counts rfl (fun _ => hspare hm) nofun nofun
    priced := fun hm hp => h.priced hm (hp.imp id nofun)
    unheard := fun _ _ _ _ => ⟨nofun, fun hsum => absurd hsum hs.summaries.not_gt⟩
    barred := fun hm ho => absurd ho (hclear hm) }

/-! ## Preparing and launching -/

/-- The preparation of an attempt is sent out. -/
lemma prepare (hs : v.Settled) (hstate : v.phase.state = .preparing)
    (hp : ¬ v.past.prepared v.gen) (hatt : v.attached) (hex : ¬ v.exits) :
    Sound m { v with
      phase := { v.phase with
        eventsClosed := false, domainQuiet := false, outcome := false, succeeded := false
        budgetStop := false, summarizing := false, summarized := false
        parkOnBudgetPending := false, pending := v.phase.pending + 1 }
      out := v.out.add .prepare v.gen
      past := { v.past with prepared := fun g => v.gen = g ∨ v.past.prepared g } } :=
  have hu := h.none_of_unprepared hp
  have hcount : (v.out.add .prepare v.gen).prepares v.gen = v.out.prepares v.gen + 1 := by
    simp [Out.add]
  { h with
    ahead := fun g hg =>
      have hlt : v.gen < g := hg
      ⟨(h.ahead g hlt).1.add (Nat.ne_of_gt hlt) .prepare, fun hpr => by
        rcases hpr with heq | hpr
        · exact absurd heq (Nat.ne_of_lt hlt)
        · exact (h.ahead g hlt).2 hpr⟩
    behind := fun g hg =>
      ⟨(bump_of_ne _ (show g ≠ v.gen from hg)).trans (h.behind g hg).1, (h.behind g hg).2⟩
    fresh := fun hf => by
      rw [show v.phase.state = .preparing from hstate] at hf
      rcases hf with hf | hf | hf <;> cases hf
    timer := fun ht => absurd ht hs.timers.not_gt
    single := by
      have hz := hs.launch
      change (v.out.add .prepare v.gen).prepares v.gen + v.out.starts v.gen ≤ 1
      omega
    launching := fun _ =>
      ⟨hstate, hs.handle, rfl, rfl, hs.verifyRetry, rfl, rfl, .inl rfl, hatt, rfl, hu.1, hu.2.1,
        hu.2.2.1, hu.2.2.2.1, hu.2.2.2.2.1, hs.summaries, hs.verifies⟩
    attempt := fun _ => .inl rfl
    stream := ⟨hu.1.trans_le (Nat.zero_le _), nofun⟩
    probing := fun hprobe => absurd hprobe hu.2.2.1.not_gt
    verifying := fun hv => absurd hv hs.not_verifying
    summary := fun hsum => absurd hsum hs.summaries.not_gt
    quiet := fun hq => by cases hq
    handle := fun g hg => absurd hg (by simp [hs.handle])
    parking := fun hpk => by cases hpk
    budget := fun hb => by cases hb
    held := fun ho => by cases ho
    sorted := fun ho => by cases ho
    ran := fun _ => .inl rfl
    selfStop := fun hself => absurd hself hu.2.2.2.2.1.not_gt
    awaited := h.awaited_add
    exit := fun he => absurd he hex
    rationed := fun hm => (h.rationed hm).of_counts rfl
      (fun _ => (h.rationed hm).2.2.2.2.2.1 (.inr (.inr (.inl ⟨hstate, hp⟩))))
      (fun hb => nomatch hstate.symm.trans hb) fun hv => nomatch hstate.symm.trans hv
    unheard := fun _ _ _ _ => ⟨fun hv => (nomatch hstate.symm.trans hv),
      fun hsum => absurd hsum hs.summaries.not_gt⟩
    barred := fun hm ho => absurd ((h.barred hm ho).2.2.2.1 hstate).1 hp }

/-- The start of a prepared attempt is sent out. -/
lemma start (hL : v.Launching) (hzero : v.launches = 0) (hepoch : v.Epochal m) (hex : ¬ v.exits)
    (hspare : m.rationed → v.Spare m.limits) (hclear : m.frugal → ¬ v.past.overrun m.limits.maxCost)
    (hprice : m.frugal → v.phase.maxCost = m.limits.maxCost) {S : Prop} {W : Int → Prop}
    {F : Cost → Prop} (hS : m.pinned → S)
    (hW : m.rationed → W (m.limits.maxAttempts + m.limits.maxTurns))
    (hF : m.frugal → F m.limits.maxCost) :
    Sound m { v with
      phase := { v.phase with pending := v.phase.pending + 1 }
      out := v.out.add .start v.gen
      past := { v.past with
        live := v.gen :: v.past.live, startedPinned := S, starts := v.past.starts + 1
        startedWithin := W, startedFrugally := F } } :=
  have hidle := h.idle_of_handle hL.handle hzero
  have hcount : (v.out.add .start v.gen).starts v.gen = v.out.starts v.gen + 1 := by
    simp [Out.add]
  { h with
    ahead := h.ahead_add .start
    behind := fun g hg =>
      ⟨(h.behind g hg).1, (bump_of_ne _ (show g ≠ v.gen from hg)).trans (h.behind g hg).2⟩
    single := by
      change v.out.prepares v.gen + (v.out.add .start v.gen).starts v.gen ≤ 1
      rw [hcount, hidle.1, hidle.2.1]
    launching := fun _ => hL
    quiet := fun hq => absurd hq (by simp [hL.domainQuiet])
    live := fun _ => ⟨.inl (by
      change 0 < (v.out.add .start v.gen).starts v.gen
      omega), hL.attached⟩
    liveGen := fun g hg => by
      rcases List.mem_cons.1 hg with rfl | hg
      · rfl
      · exact h.liveGen g hg
    epochal := fun _ => hepoch
    awaited := h.awaited_add
    exit := fun he => absurd he hex
    startedPinned := hS
    rationed := fun hm =>
      let ⟨hbase, hturns, hmax, _⟩ := h.rationed hm
      ⟨hbase, hturns, hmax, (hspare hm).1, (hspare hm).2, fun hdue => by
        rcases hdue with hq | hc | hp | hp
        · cases hL.state.symm.trans hq.1
        · cases hL.state.symm.trans hc
        · exact absurd hL.prepared hp.2
        · exact absurd hp hidle.1.not_gt,
        fun hb => (nomatch hL.state.symm.trans hb), fun hv => nomatch hL.state.symm.trans hv⟩
    startedWithin := hW
    priced := fun hm _ => hprice hm
    barred := fun hm ho => absurd ho (hclear hm)
    startedFrugally := hF }

end Sound

end Ben
