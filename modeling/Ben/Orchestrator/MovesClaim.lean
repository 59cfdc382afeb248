import Ben.Orchestrator.MovesRun

/-!
# How a tenure begins

A tenure begins with a claim or with a recovered one, has its content checked and pinned, and
has its claim base initialised before its first attempt.
-/

namespace Ben

variable [Platform]

namespace Sound

variable {m : Mode} {v : Tenure} (h : Sound m v)

include h

/-! ## The claim -/

/-- The claim is verified. -/
lemma verifyClaim (hclaims : v.out.claims v.gen = 0) (hun : v.phase.unclassified = false)
    (hepoch : v.phase.claimEpoch = 0) (hspare : m.rationed → v.Spare m.limits) :
    Sound m { v with phase := { v.phase with claimVerified := true } } :=
  { h with
    claiming := fun hc => absurd hc hclaims.not_gt
    approving := fun _ => rfl
    basing := fun _ _ => rfl
    unclassified := fun hu => absurd hu (by simp [hun])
    queued := fun _ _ _ _ hpos => absurd hpos (by simp [hepoch])
    rationed := fun hm =>
      have hr := h.rationed hm
      hr.of_counts rfl (fun _ => hspare hm) hr.2.2.2.2.2.2.1 hr.2.2.2.2.2.2.2 }

/-- A record under a verified claim has no claim out and needs no verdict. -/
lemma verified (hver : v.phase.claimVerified) :
    v.out.claims v.gen = 0 ∧ v.phase.unclassified = false := by
  constructor
  · exact Nat.eq_zero_of_not_pos fun hc => by simpa [hver] using (h.claiming hc).2.2.1
  · by_contra hu
    simpa [hver] using (h.unclassified (by simpa using hu)).2

/-- A record that waits for its claim base, or for its approval, is settled. -/
lemma settled_of_verified (hver : v.phase.claimVerified) (hstate : v.phase.state = .queued) :
    v.Settled :=
  h.settled_of_unprepared (h.fresh (.inl hstate))
    (Nat.eq_zero_of_not_pos fun ht => by
      rcases (h.timer ht).2.state with ⟨hw, -⟩ | hw <;> simp [hstate] at hw)
    (h.verified hver).1 (h.verified hver).2

/-- A record in backoff whose timer has fired is settled. -/
lemma settled_of_backoff (hstate : v.phase.state = .backoff)
    (htimers : v.phase.claimBaseDispatch ∨ v.out.timers v.gen = 0) : v.Settled :=
  h.settled_of_unprepared (h.fresh (.inr (.inr hstate)))
    (Nat.eq_zero_of_not_pos fun ht => by
      rcases htimers with hd | ht'
      · rcases (h.timer ht).2.state with ⟨-, hw⟩ | hw
        · simp [hd] at hw
        · simp [hstate] at hw
      · exact absurd ht ht'.not_gt)
    (Nat.eq_zero_of_not_pos fun hc => by simpa [hstate] using (h.claiming hc).2.1)
    (by
      by_contra hu
      simpa [hstate] using (h.unclassified (by simpa using hu)).1)

/-- Only a record in backoff, or one parked over its epoch, dispatches. -/
lemma not_dispatching {s} (hstate : v.phase.state = s)
    (hs : decide (s ≠ .backoff ∧ s ≠ .needsReview)) : v.phase.claimBaseDispatch = false := by
  subst hstate
  replace hs := of_decide_eq_true hs
  refine Bool.eq_false_of_not_eq_true fun hd => ?_
  rcases h.dispatching hd with hb | ⟨hn, -⟩
  · exact hs.1 hb
  · exact hs.2 hn

/-- The approval facts are asked for. -/
lemma askApproval (hver : v.phase.claimVerified) : Sound m { v with
      phase := { v.phase with pending := v.phase.pending + 1 }
      out := v.out.add .approval v.gen } :=
  { h with
    ahead := h.ahead_add .approval
    approving := fun _ => hver
    awaited := h.awaited_add }

/-- The claim base is asked for. -/
lemma askClaimBase (hpin : m.pinned → v.Pinned)
    (hver : v.phase.state = .queued → v.phase.claimVerified) :
    Sound m { v with
      phase := { v.phase with pending := v.phase.pending + 1 }
      out := v.out.add .claimBase v.gen } :=
  { h with
    ahead := h.ahead_add .claimBase
    awaited := h.awaited_add
    basing := fun _ => hver
    pinned := fun hm _ => hpin hm }

/-! ## Content -/

/-- Content passed the check at a read, and what is pinned is no older. -/
lemma approve {b : ApprovedContent} (hle : ∀ a, v.past.pin = some a → b.at_ ≤ a.at_) :
    Sound m { v with past := { v.past with approval := some b } } :=
  { h with inForce := fun a ha => ⟨b, rfl, hle a ha⟩ }

/-- Content that passed the check is pinned. -/
lemma pinContent (a : ApprovedContent) : Sound m { v with
      phase := { v.phase with
        title := a.content.title, body := a.content.body, approvedAt := a.at_ }
      past := { v.past with pin := some a, approval := some a } } :=
  { h with
    pin := fun b hb => by
      injection hb with hb
      subst hb
      exact ⟨rfl, rfl, rfl⟩
    unpinned := fun hn => by cases hn
    inForce := fun b hb => by
      injection hb with hb
      subst hb
      exact ⟨a, rfl, le_refl _⟩
    pinned := fun _ _ => ⟨a, rfl⟩
    queued := fun _ _ _ _ _ => ⟨a, rfl⟩ }

/-! ## The claim epoch -/

/-- The epoch of the claim is established before the first attempt, for a dispatch or not. -/
lemma setEpoch {e : Int} {b : Bool} (hver : v.out.claims v.gen = 0)
    (hun : v.phase.unclassified = false)
    (hstate : (v.phase.state = .queued ∧ b = v.phase.claimBaseDispatch) ∨
      (v.phase.state = .backoff ∧ v.out.timers v.gen = 0))
    (hpin : m.pinned → v.Pinned) (hqueued : m.queued → v.phase.state = .queued → v.Pinned) :
    Sound m { v with phase := { v.phase with claimEpoch := e, claimBaseDispatch := b } } :=
  have hne : v.phase.state ≠ .preparing ∧ v.phase.state ≠ .running ∧
      v.phase.state ≠ .verifying ∧ v.phase.state ≠ .done := by
    rcases hstate with ⟨hs, -⟩ | ⟨hs, -⟩ <;> simp [hs]
  have hlaunch := h.no_launch hne.1
  { h with
    timer := fun ht => by
      rcases hstate with ⟨hs, -⟩ | ⟨-, ht'⟩
      · rcases (h.timer ht).2.state with ⟨hw, -⟩ | hw <;> simp [hs] at hw
      · exact absurd ht ht'.not_gt
    dispatching := fun hd => by
      rcases hstate with ⟨hs, hb⟩ | ⟨hs, -⟩
      · exact h.dispatching (hb ▸ hd)
      · exact .inl hs
    verifying := fun hv => absurd (h.verifying hv).state hne.2.2.1
    launching := fun hl => absurd hl hlaunch.not_gt
    epochal := fun he => by
      rcases he with he | he | he | he
      · exact absurd he (by
          change ¬ 0 < v.out.starts v.gen
          omega)
      · exact absurd he hne.2.1
      · exact absurd he hne.2.2.1
      · exact absurd he hne.2.2.2
    claiming := fun hc => absurd hc hver.not_gt
    pinned := fun hm _ => hpin hm
    queued := fun hm _ hq _ _ => hqueued hm hq
    published := fun hp => absurd hp (h.unpublished hne.2.2.2 hun) }

/-- The claim is the daemon's, with its claim base initialised. -/
lemma claim (hstate : v.phase.state = .queued) (hver : v.phase.claimVerified)
    (hclaims : v.out.claims v.gen = 0) (hun : v.phase.unclassified = false)
    (hpin : m.pinned → v.Pinned) :
    Sound m { v with phase := { v.phase with state := .claimed } } :=
  have hfresh := h.fresh (.inl hstate)
  have hnone := h.none_of_unprepared hfresh
  { h with
    fresh := fun _ => hfresh
    timer := fun ht => by
      rcases (h.timer ht).2.state with ⟨hw, -⟩ | hw <;> simp [hstate] at hw
    dispatching := fun hd => by
      rcases h.dispatching hd with hs | ⟨hs, -⟩ <;> simp [hstate] at hs
    launching := fun hl => absurd hl hnone.2.2.2.2.2.2.2.not_gt
    verifying := fun hv => by simpa [hstate] using (h.verifying hv).state
    summary := fun hs => absurd hs hnone.2.2.2.2.2.1.not_gt
    handle := fun g hg => absurd (h.handle g hg).2.2.1 hfresh
    budget := fun hb => ⟨nofun, nofun, (h.budget hb).2.2⟩
    held := fun ho hq => absurd (h.held ho hq).1 hfresh
    sorted := fun _ => ⟨nofun, nofun⟩
    ran := fun hr => by cases hr
    selfStop := fun hs => absurd hs hnone.2.2.2.2.1.not_gt
    basing := fun _ hq => by cases hq
    epochal := fun he => by
      rcases he with he | he | he | he
      · exact h.epochal (.inl he)
      all_goals cases he
    claiming := fun hc => absurd hc hclaims.not_gt
    unclassified := fun hu => absurd hu (by simp [hun])
    pinned := fun hm _ => hpin hm
    queued := fun _ _ hq => by cases hq
    published := fun hp => absurd hp (h.unpublished (by simp [hstate]) hun)
    rationed := fun hm => (h.rationed hm).of_counts rfl
      (fun _ => (h.rationed hm).2.2.2.2.2.1 (.inl ⟨hstate, .inl hver⟩)) nofun
      nofun
    priced := fun hm hp => h.priced hm (hp.imp id nofun)
    unheard := fun _ _ _ hp => absurd hp hfresh
    barred := fun hm ho => absurd hstate (h.barred hm ho).1 }

/-- The workspace of the attempt is made. -/
lemma setWorkspace (ws) (hstate : v.phase.state = .preparing) (hzero : v.launches = 0)
    (hstray : v.out.strayVerifies ws v.gen = 0) (hcert : v.past.publishedCertified v.phase.id ws) :
    Sound m { v with phase := { v.phase with workspace := ws } } :=
  { h with
    launching := fun hl => absurd hl hzero.not_gt
    stray := ⟨hstray, h.stray.2⟩
    epochal := fun he => by
      rcases he with he | he | he | he
      · exact absurd he (Nat.add_eq_zero_iff.1 hzero).2.not_gt
      all_goals exact absurd he (by simp [hstate])
    published := fun hp => by
      rcases (h.published hp).2.2 with hs | hs
      · simp [hstate] at hs
      · simpa [hstate] using (h.unclassified hs).1
    publishedCertified := hcert }

/-- A tenure that the table no longer has, or has again, keeps its invariant as long as nothing
of it is running. -/
lemma detach (hidle : v.Idle) {A : Prop} (hA : A → v.attached) : Sound m { v with attached := A } :=
  { h with
    launching := fun hl => absurd hl hidle.not_launching
    live := fun hl => absurd hidle.2.2 hl
    reserved := fun ha => h.reserved (hA ha)
    queued := fun hm ha => h.queued hm (hA ha) }

end Sound

/-! ## Beginnings -/

/-- Where a tenure may begin: before any attempt, parked, or finished. -/
structure Phase.Initial (p : Phase) : Prop where
  handle : p.handle = none
  outcome : p.outcome = false
  verifyRetry : p.verifyRetry = false
  parkOnBudgetPending : p.parkOnBudgetPending = false
  budgetStop : p.budgetStop = false
  claimBaseDispatch : p.claimBaseDispatch = false
  domainQuiet : p.domainQuiet = false
  pending : 0 ≤ p.pending
  approvedAt : p.approvedAt = 0
  state : p.state = .queued ∨ p.state = .needsReview ∨ p.state = .done
  unclassified : p.unclassified = true → p.state = .queued ∧ p.claimVerified = false
  claimVerified : p.claimVerified = false
  attemptBase : 0 ≤ p.attemptBase ∧ p.attemptBase ≤ p.attempt
  turns : p.turns = 0
  costUSD : p.costUSD = 0

/-- A tenure that has not begun may begin. -/
lemma Tenure.Blank.begin {m : Mode} {v : Tenure} (h : v.Blank) {p : Phase} (hp : p.Initial)
    {A R E : Prop} (hexit : E → p.leaving) (hreserved : A → R → p.unclassified)
    (hdone : p.state = .done → p.workspace.claimEpoch = p.claimEpoch ∧ 0 < p.claimEpoch)
    (hlimits : m.rationed ∨ m.frugal → v.limits = m.limits) :
    Sound m { v with phase := p, attached := A, reserved := R, exits := E } :=
  have hu := h.untouched p.generation
  have hne : p.state ≠ .claimed ∧ p.state ≠ .preparing ∧ p.state ≠ .running ∧
      p.state ≠ .verifying ∧ p.state ≠ .backoff := by
    rcases hp.state with hs | hs | hs <;> simp [hs]
  { ahead := fun g _ => ⟨h.untouched g, h.prepared g⟩
    behind := fun g _ => ⟨(h.untouched g).prepares, (h.untouched g).starts⟩
    fresh := fun _ => h.prepared _
    timer := fun ht => absurd ht hu.timers.not_gt
    dispatching := fun hd => absurd hd (by simp [hp.claimBaseDispatch])
    single := by
      change v.out.prepares p.generation + v.out.starts p.generation ≤ 1
      simp [hu.prepares, hu.starts]
    launching := fun hl => by
      change 0 < v.out.prepares p.generation + v.out.starts p.generation at hl
      simp [hu.prepares, hu.starts] at hl
    attempt := fun ha => by
      rcases ha with ha | ha | ha | ha | ha | ha | ha
      · exact absurd ha hu.pumps.not_gt
      · exact absurd ha hu.drains.not_gt
      · exact absurd ha hu.probes.not_gt
      · exact absurd ha hu.stops.not_gt
      · exact absurd ha hu.selfStops.not_gt
      · exact absurd ha hu.summaries.not_gt
      · exact absurd ha hu.verifies.not_gt
    stream := ⟨hu.pumps.trans_le (Nat.zero_le _), fun _ => hu.pumps⟩
    probing := fun hpr => absurd hpr hu.probes.not_gt
    stopping := fun hs => absurd hs hu.stops.not_gt
    verifying := fun hv => by
      rcases hv with hv | hv
      · exact absurd hv hu.verifies.not_gt
      · exact absurd hv (by simp [hp.verifyRetry])
    verifyOnce := ⟨hu.verifies.trans_le (Nat.zero_le _), fun _ => hu.verifies⟩
    stray := ⟨hu.strayVerifies _, hu.strayRuns _⟩
    summary := fun hs => absurd hs hu.summaries.not_gt
    quiet := fun _ => h.live
    live := fun hl => absurd h.live hl
    liveGen := fun g hg => by
      change g ∈ v.past.live at hg
      simp [h.live] at hg
    handle := fun g hg => absurd hg (by simp [hp.handle])
    parking := fun hk => absurd hk (by simp [hp.parkOnBudgetPending])
    budget := fun hb => absurd hb (by simp [hp.budgetStop])
    held := fun ho => absurd ho (by simp [hp.outcome])
    sorted := fun ho => absurd ho (by simp [hp.outcome])
    ran := fun hr => absurd hr hne.2.2.1
    selfStop := fun hs => absurd hs hu.selfStops.not_gt
    alone := fun hs => absurd hs hu.selfStops.not_gt
    basing := fun hb => absurd hb hu.claimBases.not_gt
    epochal := fun he => by
      rcases he with he | he | he | he
      · exact absurd he hu.starts.not_gt
      · exact absurd he hne.2.2.1
      · exact absurd he hne.2.2.2.1
      · exact ⟨fun _ => (hdone he).1, (hdone he).2⟩
    claiming := fun hc => absurd hc hu.claims.not_gt
    approving := fun ha => absurd ha hu.approvals.not_gt
    awaited := by
      change (v.out.awaited : Int) ≤ p.pending
      rw [h.awaited]
      exact hp.pending
    exit := fun he => ⟨⟨hu.prepares, hu.starts, h.live⟩, hexit he⟩
    unclassified := hp.unclassified
    reserved := hreserved
    pin := fun a ha => by
      change v.past.pin = some a at ha
      simp [h.pin] at ha
    unpinned := fun _ => hp.approvedAt
    inForce := fun a ha => by
      change v.past.pin = some a at ha
      simp [h.pin] at ha
    pinned := fun _ hpin => by
      rcases hpin with hpin | hpin | hpin | hpin | hpin | hpin
      · exact absurd hpin hu.claimBases.not_gt
      · exact absurd hpin (by simp [hp.claimBaseDispatch])
      · exact absurd hpin hne.1
      · exact absurd hpin hne.2.1
      · exact absurd hpin hne.2.2.1
      · exact absurd hpin hne.2.2.2.1
    queued := fun _ _ _ hver => absurd hver (by simp [hp.claimVerified])
    published := fun hpub => absurd hpub h.published
    startedPinned := fun _ => h.startedPinned
    reliedWhenFree := h.reliedWhenFree
    publishedCertified := h.publishedCertified _ _
    limits := hlimits
    rationed := fun hm => by
      have hlimit := m.rations hm
      have hbase := hp.attemptBase
      have hturns := hp.turns
      have hstarts := h.starts
      refine ⟨hbase.1, ?_, ?_, ?_, ?_, fun hdue => ?_, fun hb => absurd hb hne.2.2.2.2,
        fun hv => absurd hv hne.2.2.2.1⟩
      · exact hturns.ge
      · exact hturns.trans_le hlimit.2
      · change (v.past.starts : Int) ≤ p.attempt - p.attemptBase
        omega
      · change (v.past.starts : Int) ≤ m.limits.maxAttempts + p.turns
        omega
      · rcases hdue with ⟨-, hver | hc⟩ | hc | hpre | hpre
        · exact absurd hver (by simp [hp.claimVerified])
        · exact absurd hc hu.claims.not_gt
        · exact absurd hc hne.1
        · exact absurd hpre.1 hne.2.1
        · exact absurd hpre hu.prepares.not_gt
    startedWithin := fun _ => h.startedWithin _
    tallied := fun _ => hp.costUSD.trans h.spent.symm
    priced := fun _ hpr => hpr.elim (fun hs => absurd hs hu.starts.not_gt)
      fun hr => absurd hr hne.2.2.1
    unheard := fun _ _ _ hpre => absurd hpre (h.prepared _)
    barred := fun _ ho => absurd ho (h.overrun _)
    startedFrugally := fun _ => h.startedFrugally _ }

namespace Sound

variable {m : Mode} {v : Tenure} (h : Sound m v)

include h

/-- The claim of a new tenure is sent out. -/
lemma sendClaim (hstate : v.phase.state = .queued) (hver : v.phase.claimVerified = false)
    (hepoch : v.phase.claimEpoch = 0) (hrec : v.phase.recovered = false)
    (hun : v.phase.unclassified = false) (hclaims : v.out.claims v.gen = 0)
    (haw : (v.out.awaited : Int) + 1 ≤ v.phase.pending) (hspare : m.rationed → v.Spare m.limits) :
    Sound m (v.sent .claim) :=
  have hcount : (v.out.add .claim v.gen).claims v.gen = v.out.claims v.gen + 1 := by
    simp [Out.add]
  { h with
    ahead := h.ahead_add .claim
    claiming := fun _ => ⟨hcount.trans (by rw [hclaims]), hstate, hver, hepoch, hrec, hun⟩
    awaited := by
      change ((v.out.awaited + 1 : Nat) : Int) ≤ v.phase.pending
      omega
    rationed := fun hm =>
      have hr := h.rationed hm
      hr.of_counts rfl (fun _ => hspare hm) hr.2.2.2.2.2.2.1 hr.2.2.2.2.2.2.2 }

end Sound

end Ben
