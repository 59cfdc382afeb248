import Mathlib.Algebra.Order.BigOperators.Group.List
import Ben.Tracker.Budget

/-!
# The accounts of the request budget

The invariant of the budget, carried through every operation: what each allowance holds is what the
live reservations hold, the level of each stays within its capacity, and the slots of the window
cover what has not been attempted, what may still be given back and what is billed.
-/

namespace Ben.Tracker

open List

namespace Meter

/-- The least the credits can be: a conditional request may borrow one of the primary ones. -/
def least : Meter → Int
  | primary => -primary.creditUnit
  | _ => 0

lemma least_nonpos (m : Meter) : m.least ≤ 0 := by
  cases m with
  | primary => decide
  | secondary => decide
  | contentMinute => decide
  | contentHour => decide

lemma rate_pos (m : Meter) : 0 < m.rate := by
  cases m with
  | primary => decide
  | secondary => decide
  | contentMinute => decide
  | contentHour => decide

lemma creditUnit_pos (m : Meter) : 0 < m.creditUnit := by
  cases m with
  | primary => decide
  | secondary => decide
  | contentMinute => decide
  | contentHour => decide

lemma price_primary (cost) : primary.price cost = primary.creditUnit := one_mul _

lemma capacity_nonneg (m : Meter) : 0 ≤ m.capacity := by
  cases m with
  | primary => decide
  | secondary => decide
  | contentMinute => decide
  | contentHour => decide

lemma price_nonneg (m : Meter) (cost) : 0 ≤ m.price cost :=
  mul_nonneg (Int.natCast_nonneg _) m.creditUnit_pos.le

end Meter

namespace RequestBudget

variable {b : RequestBudget} {now : Int}

/-- The bucket of an allowance. -/
def bucket (b : RequestBudget) (m : Meter) : Bucket := (b.allowances.get m).toBucket

/-- When an allowance was last refilled. -/
def lastRefill (b : RequestBudget) (m : Meter) : Int := (b.allowances.get m).lastRefill

@[simp] lemma bucket_onBuckets (f : Meter → Bucket → Bucket) (m) :
    (b.onBuckets f).bucket m = f m (b.bucket m) := by
  simp only [bucket, onBuckets, Meters.get_ofFn]

@[simp] lemma lastRefill_onBuckets (f : Meter → Bucket → Bucket) (m) :
    (b.onBuckets f).lastRefill m = b.lastRefill m := by
  simp only [lastRefill, onBuckets, Meters.get_ofFn]

/-- What a refill does to an allowance. -/
structure Refilled (b b' : RequestBudget) (now : Int) (m : Meter) : Prop where
  last : b'.lastRefill m = now
  held : (b'.bucket m).held = (b.bucket m).held
  credits : (b.bucket m).credits ≤ (b'.bucket m).credits
  capacity : (b'.bucket m).level ≤ m.capacity
  level : (b'.bucket m).level ≤ (b.bucket m).level + m.rate * (now - b.lastRefill m)

lemma refilled {m : Meter} (hlast : b.lastRefill m ≤ now)
    (hlevel : (b.bucket m).level ≤ m.capacity) :
    Refilled b (b.refill now) now m := by
  have hrest : 0 ≤ m.rate * (now - b.lastRefill m) := mul_nonneg m.rate_pos.le (sub_nonneg.2 hlast)
  have hget : (b.refill now).allowances.get m = refillAllowance now m (b.allowances.get m) := by
    rw [refill, Meters.get_ofFn]
  have hbucket : (b.refill now).bucket m = (refillAllowance now m (b.allowances.get m)).toBucket :=
    congrArg Allowance.toBucket hget
  have htime : (b.refill now).lastRefill m =
      (refillAllowance now m (b.allowances.get m)).lastRefill := congrArg Allowance.lastRefill hget
  have hsame (hlast : (b.refill now).lastRefill m = now)
      (hbucket : (b.refill now).bucket m = b.bucket m) : Refilled b (b.refill now) now m := by
    refine ⟨hlast, ?_, ?_, ?_, ?_⟩ <;> rw [hbucket]
    · exact hlevel
    · omega
  by_cases hzero : (b.allowances.get m).lastRefill = 0
  · rw [refillAllowance, if_pos hzero] at hbucket htime
    exact hsame htime hbucket
  · rw [refillAllowance, if_neg hzero] at hbucket htime
    by_cases hnow : now - (b.allowances.get m).lastRefill ≤ 0
    · rw [if_pos hnow] at hbucket htime
      exact hsame (htime.trans (le_antisymm hlast (sub_nonpos.1 hnow))) hbucket
    · rw [if_neg hnow] at hbucket htime
      have hfill : (b.refill now).bucket m =
          (b.bucket m).refill m.capacity m.rate (now - b.lastRefill m) := hbucket
      have hheld : ((b.refill now).bucket m).held = (b.bucket m).held := by
        rw [hfill, Bucket.refill_held]
      have hnew := Bucket.level_refill m.rate_pos hlevel (sub_nonneg.2 hlast)
      rw [← hfill, mul_comm] at hnew
      rw [Bucket.level] at hlevel
      refine ⟨htime, hheld, ?_, ?_, ?_⟩ <;> simp only [Bucket.level, hheld] at hnew ⊢ <;> omega

end RequestBudget

/-! ## The invariant -/

/-- What a reservation holds of an allowance. -/
def Reservation.holds (m : Meter) (r : Reservation) : Int :=
  if r.attempted then 0 else m.price r.cost

lemma Reservation.holds_nonneg (m) (r : Reservation) : 0 ≤ r.holds m := by
  rw [Reservation.holds]
  split
  · exact le_rfl
  · exact m.price_nonneg r.cost

/-- A reservation that was attempted in a window and will give its slot back. -/
def Reservation.returns (generation : Nat) (r : Reservation) : Bool :=
  r.attempted && r.generation == generation && !r.billed

/-- A reservation that was attempted and will be billed, or not. -/
def Reservation.awaits (k : Bool) (r : Reservation) : Bool := r.attempted && r.billed == k

/-- A request that was attempted in a window and is billed. -/
def Attempt.billedIn (generation : Nat) (a : Attempt) : Bool :=
  a.generation == generation && a.billed

namespace Traffic

/-- The accounts agree. -/
structure Sound (s : Traffic) : Prop where
  last : ∀ m, s.budget.lastRefill m = s.clock
  held : ∀ m, (s.budget.bucket m).held = (s.live.map (Reservation.holds m)).sum
  level : ∀ m, (s.budget.bucket m).level ≤ m.capacity
  least : ∀ m, m.least ≤ (s.budget.bucket m).credits
  unattempted : s.budget.unattempted = s.live.countP (!·.attempted)
  slots : s.live.countP (!·.attempted) + s.live.countP (Reservation.returns s.budget.generation) +
    s.log.countP (Attempt.billedIn s.budget.generation) ≤ s.budget.used
  limit : s.budget.used ≤ billedPerTick
  windows : ∀ g, s.log.countP (Attempt.billedIn g) ≤ billedPerTick
  pastLive : ∀ r ∈ s.live, r.attempted = true → r.generation ≤ s.budget.generation
  pastLog : ∀ a ∈ s.log, a.generation ≤ s.budget.generation
  outcomes : ∀ k, (s.published.map (RequestReport.outcomes k)).sum + s.budget.report.outcomes k +
    s.live.countP (Reservation.awaits k) = s.log.countP (·.billed == k)
  calm : s.budget.panicked = false

lemma sound_start (started : Int) : (start started).Sound where
  last m := by
    rw [RequestBudget.lastRefill, start, newRequestBudget, Meters.get_ofFn]
  held m := by
    rw [RequestBudget.bucket, start, newRequestBudget, Meters.get_ofFn]
    rfl
  level m := by
    rw [RequestBudget.bucket, start, newRequestBudget, Meters.get_ofFn]
    exact (add_zero _).le
  least m := by
    rw [RequestBudget.bucket, start, newRequestBudget, Meters.get_ofFn]
    exact m.least_nonpos.trans m.capacity_nonneg
  unattempted := rfl
  slots := Nat.le_refl 0
  limit := Nat.zero_le _
  windows _ := Nat.zero_le _
  pastLive _ hr := by cases hr
  pastLog _ ha := by cases ha
  outcomes k := by
    cases k with
    | true => rfl
    | false => rfl
  calm := rfl

variable {s : Traffic} {now : Int} {b : RequestBudget} {r : Reservation}
  {conditional preserveClaim : Bool}

lemma Sound.refilled (h : s.Sound) (hnow : s.clock ≤ now) (m) :
    RequestBudget.Refilled s.budget (s.budget.refill now) now m :=
  RequestBudget.refilled ((h.last m).trans_le hnow) (h.level m)

/-- A refill keeps the accounts. -/
lemma Sound.refill (h : s.Sound) (hnow : s.clock ≤ now) :
    ({ s with budget := s.budget.refill now, clock := now } : Traffic).Sound :=
  { h with
    last := fun m => (h.refilled hnow m).last
    held := fun m => (h.refilled hnow m).held.trans (h.held m)
    level := fun m => (h.refilled hnow m).capacity
    least := fun m => (h.least m).trans (h.refilled hnow m).credits }

/-- No request was attempted in a window that is still to come. -/
lemma countP_billedIn_succ (h : ∀ a ∈ s.log, a.generation ≤ s.budget.generation) :
    s.log.countP (Attempt.billedIn (s.budget.generation + 1)) = 0 := by
  rw [countP_eq_zero]
  intro a ha hbilled
  rw [Attempt.billedIn, Bool.and_eq_true, beq_iff_eq] at hbilled
  have := h a ha
  omega

lemma countP_returns_succ (h : ∀ r ∈ s.live, r.attempted → r.generation ≤ s.budget.generation) :
    s.live.countP (Reservation.returns (s.budget.generation + 1)) = 0 := by
  rw [countP_eq_zero]
  intro r hr hreturns
  rw [Reservation.returns, Bool.and_eq_true, Bool.and_eq_true, beq_iff_eq] at hreturns
  have := h r hr hreturns.1.1
  omega

/-- A new window keeps the accounts: what has not been attempted is carried into it. -/
lemma Sound.openWindow (h : s.Sound) (now : Int) :
    ({ s with budget := s.budget.openWindow now } : Traffic).Sound :=
  { h with
    slots := by
      change _ + s.live.countP (Reservation.returns (s.budget.generation + 1)) +
        s.log.countP (Attempt.billedIn (s.budget.generation + 1)) ≤ s.budget.unattempted
      rw [countP_returns_succ h.pastLive, countP_billedIn_succ h.pastLog, h.unattempted]
      exact Nat.le_refl _
    limit := by
      have hslots := h.slots
      have hlimit := h.limit
      have hcount := h.unattempted
      change s.budget.unattempted ≤ billedPerTick
      omega
    pastLive := fun r hr ha => Nat.le_succ_of_le (h.pastLive r hr ha)
    pastLog := fun a ha => Nat.le_succ_of_le (h.pastLog a ha) }

lemma Sound.rollIfStale (h : s.Sound) (now : Int) :
    ({ s with budget := s.budget.rollIfStale now } : Traffic).Sound := by
  rw [RequestBudget.rollIfStale]
  split
  · exact h.openWindow now
  · exact h

/-- Counting a refusal or a delay keeps the accounts. -/
lemma Sound.denied (h : s.Sound) (refuses deferred : Bool) :
    ({ s with budget := s.budget.countDenied refuses deferred } : Traffic).Sound := by
  have hreport : ∀ k, (s.budget.countDenied refuses deferred).report.outcomes k =
      s.budget.report.outcomes k := by
    intro k
    rw [RequestBudget.countDenied]
    dsimp only
    split_ifs
    · rfl
    · rfl
    · rfl
  exact { h with
    outcomes := fun k => by
      change (s.published.map (RequestReport.outcomes k)).sum +
        (s.budget.countDenied refuses deferred).report.outcomes k + _ = _
      rw [hreport]
      exact h.outcomes k }

/-- Publishing the report keeps the accounts. -/
lemma Sound.publish (h : s.Sound) (ceiling : Int) : ({ s with
      budget := { s.budget with
        report := {}, pending := 0, reportEpoch := s.budget.reportEpoch + 1, ceiling }
      published := { s.budget.report with pending := s.budget.pending } :: s.published } :
        Traffic).Sound :=
  { h with
    outcomes := fun k => by
      have houtcomes := h.outcomes k
      have hzero : RequestReport.outcomes k {} = 0 := by
        cases k with
        | true => rfl
        | false => rfl
      change s.budget.report.outcomes k + (s.published.map (RequestReport.outcomes k)).sum +
        RequestReport.outcomes k {} + s.live.countP (Reservation.awaits k) = _
      rw [← houtcomes, hzero]
      omega }

/-! ## Reserving -/

lemma sum_map_holds {rs : List Reservation} (h : ∀ r ∈ rs, r.attempted = false) (m : Meter) :
    (rs.map (Reservation.holds m)).sum = ((rs.map Reservation.cost).map m.price).sum := by
  rw [map_map]
  refine congrArg List.sum (map_congr_left fun r hr => ?_)
  rw [Reservation.holds, h r hr]
  rfl

/-- What is held is what the unattempted ones take. -/
lemma sum_holds (rs : List Reservation) (m : Meter) : (rs.map (Reservation.holds m)).sum =
      ((rs.filter fun r => !r.attempted).map fun r => m.price r.cost).sum := by
  induction rs with
  | nil => rfl
  | cons r rs ih =>
    rw [map_cons, sum_cons, ih, filter_cons, Reservation.holds]
    cases r.attempted with
    | true => exact zero_add _
    | false => rfl

/-- Holding what fits keeps the accounts. -/
lemma Sound.hold (h : s.Sound) {rs : List Reservation} (hnew : ∀ r ∈ rs, r.attempted = false)
    (hused : s.budget.used + rs.length ≤ billedPerTick)
    (hleast : ∀ m, m.least ≤ s.budget.credits m - ((rs.map Reservation.cost).map m.price).sum)
    (borrowed : Bool) :
    ({ s with
      budget := { s.budget.hold (rs.map Reservation.cost) with borrowed }
      live := s.live ++ rs } : Traffic).Sound := by
  have hbucket : ∀ m, ({ s.budget.hold (rs.map Reservation.cost) with borrowed } :
      RequestBudget).bucket m = (s.budget.bucket m).hold
        ((rs.map Reservation.cost).map m.price).sum := fun m =>
    RequestBudget.bucket_onBuckets (b := s.budget)
      (fun m a => a.hold ((rs.map Reservation.cost).map m.price).sum) m
  have hwait : rs.countP (!·.attempted) = rs.length := by
    rw [countP_eq_length]
    intro r hr
    rw [hnew r hr]
    rfl
  have hnone : ∀ p : Reservation → Bool, (∀ r, r.attempted = false → p r = false) →
      rs.countP p = 0 := by
    intro p hp
    rw [countP_eq_zero]
    intro r hr htrue
    rw [hp r (hnew r hr)] at htrue
    cases htrue
  have hreturns : rs.countP (Reservation.returns s.budget.generation) = 0 := by
    refine hnone _ fun r hr => ?_
    rw [Reservation.returns, hr]
    rfl
  have hlength : (rs.map Reservation.cost).length = rs.length := length_map _
  exact { h with
    last := fun m => (RequestBudget.lastRefill_onBuckets (b := s.budget)
      (fun m a => a.hold ((rs.map Reservation.cost).map m.price).sum) m).trans (h.last m)
    held := fun m => by
      rw [hbucket, Bucket.hold_held, h.held, map_append, sum_append, sum_map_holds hnew]
    level := fun m => by
      rw [hbucket, Bucket.level_hold]
      exact h.level m
    least := fun m => by
      rw [hbucket]
      exact hleast m
    unattempted := by
      change s.budget.unattempted + (rs.map Reservation.cost).length = _
      rw [h.unattempted, countP_append, hwait, hlength]
    slots := by
      have hslots := h.slots
      change (s.live ++ rs).countP _ + (s.live ++ rs).countP (Reservation.returns
        s.budget.generation) + s.log.countP (Attempt.billedIn s.budget.generation) ≤
        s.budget.used + (rs.map Reservation.cost).length
      rw [countP_append, countP_append, hwait, hlength, hreturns]
      omega
    limit := by
      change s.budget.used + (rs.map Reservation.cost).length ≤ _
      rw [hlength]
      exact hused
    pastLive := by
      intro r hr hattempted
      obtain hr | hr := mem_append.1 hr
      · exact h.pastLive r hr hattempted
      · rw [hnew r hr] at hattempted
        cases hattempted
    outcomes := fun k => by
      have hawaits : rs.countP (Reservation.awaits k) = 0 := by
        refine hnone _ fun r hr => ?_
        rw [Reservation.awaits, hr]
        rfl
      rw [countP_append, hawaits, Nat.add_zero]
      exact h.outcomes k }

/-! ## Attempting, settling and giving back -/

/-- The reservation that is attempted. -/
def attemptedNow (s : Traffic) (r : Reservation) (billed : Bool) : Reservation :=
  { r with
    attempted := true
    billed := billed
    generation := s.budget.generation
    reportEpoch := s.budget.reportEpoch }

lemma markAttemptedLocked_eq (hr : r.attempted = false) (billed : Bool) :
    s.budget.markAttemptedLocked r billed =
      ({ s.budget.onBuckets fun m a => a.spend (m.price r.cost) with
          unattempted := if 0 < s.budget.unattempted then s.budget.unattempted - 1
            else s.budget.unattempted
          pending := s.budget.pending + 1
          panicked := s.budget.panicked ||
            (s.budget.onBuckets fun m a => a.spend (m.price r.cost)).negativeHeld },
        s.attemptedNow r billed) := by
  rw [RequestBudget.markAttemptedLocked, hr, if_neg Bool.false_ne_true]
  rfl

/-- The live reservations without one that was attempted. -/
lemma countP_erase {x y r} (p : Reservation → Bool) :
    (x ++ r :: y).countP p = (x ++ y).countP p + if p r then 1 else 0 := by
  rw [countP_append, countP_cons, countP_append]
  omega

lemma sum_erase {x y} (m) : ((x ++ r :: y).map (Reservation.holds m)).sum =
      ((x ++ y).map (Reservation.holds m)).sum + r.holds m := by
  rw [map_append, sum_append, map_cons, sum_cons, map_append, sum_append]
  omega

lemma mem_cons_of_mem_middle {x y} {r' : Reservation} (h : r' ∈ x ++ r :: y) :
    r' = r ∨ r' ∈ x ++ y := by
  rwa [mem_append, mem_cons, or_left_comm, ← mem_append] at h

lemma mem_of_mem_erase {x y r} (hlive : s.live = x ++ r :: y) : ∀ r' ∈ x ++ y, r' ∈ s.live := by
  intro r' hr'
  rw [hlive, mem_append, mem_cons, or_left_comm, ← mem_append]
  exact .inr hr'

/-- What a reservation that was not attempted holds may be spent, and the reservation dropped. -/
lemma Sound.drop (h : s.Sound) {x y} (hlive : s.live = x ++ r :: y) (hr : r.attempted = false) :
    ({ s with
      budget := { s.budget.onBuckets fun m a => a.spend (m.price r.cost) with
        unattempted := s.budget.unattempted - 1 }
      live := x ++ y } : Traffic).Sound ∧
    (x ++ y).countP (!·.attempted) + 1 + (x ++ y).countP (Reservation.returns s.budget.generation) +
      s.log.countP (Attempt.billedIn s.budget.generation) ≤ s.budget.used := by
  have hcount := h.unattempted
  have hslots := h.slots
  rw [hlive, countP_erase, countP_erase, Reservation.returns, hr] at hslots
  rw [hlive, countP_erase, hr] at hcount
  simp only [Bool.not_false, Bool.false_and, if_true, if_neg Bool.false_ne_true] at hslots hcount
  have hbucket := RequestBudget.bucket_onBuckets (b := s.budget) fun m a => a.spend (m.price r.cost)
  have hlast := RequestBudget.lastRefill_onBuckets (b := s.budget) fun m a =>
    a.spend (m.price r.cost)
  refine ⟨{ h with
    last := fun m => (hlast m).trans (h.last m)
    held := fun m => (congrArg Bucket.held (hbucket m)).trans (by
      have hsum := h.held m
      rw [hlive, sum_erase, Reservation.holds, hr, if_neg Bool.false_ne_true] at hsum
      rw [Bucket.spend_held]
      dsimp only
      omega)
    level := fun m => (congrArg Bucket.level (hbucket m)).trans_le (by
      have hlevel := h.level m
      have hprice := m.price_nonneg r.cost
      rw [Bucket.level_spend]
      omega)
    least := fun m => (h.least m).trans_eq (congrArg Bucket.credits (hbucket m)).symm
    unattempted := by
      dsimp only
      omega
    slots := by
      dsimp only [RequestBudget.onBuckets]
      omega
    pastLive := fun r' hr' => h.pastLive r' (mem_of_mem_erase hlive r' hr')
    outcomes := fun k => by
      have hold := h.outcomes k
      rw [hlive, countP_erase, Reservation.awaits, hr] at hold
      exact hold }, by omega⟩

/-- Attempting a reservation keeps the accounts. -/
lemma Sound.attempt (h : s.Sound) {x y} (hlive : s.live = x ++ r :: y)
    (hr : r.attempted = false) (billed : Bool) (now : Int) :
    ({ s with
      budget := (s.budget.markAttemptedLocked r billed).1
      live := x ++ (s.budget.markAttemptedLocked r billed).2 :: y
      log := ⟨now, s.budget.generation, r.cost, billed⟩ :: s.log } : Traffic).Sound := by
  rw [markAttemptedLocked_eq hr billed]
  obtain ⟨hdrop, hslots⟩ := h.drop hlive hr
  have hheld (m) : ((s.budget.onBuckets fun m a => a.spend (m.price r.cost)).bucket m).held =
      ((x ++ s.attemptedNow r billed :: y).map (Reservation.holds m)).sum :=
    (hdrop.held m).trans (by rw [sum_erase]; exact (add_zero _).symm)
  have hwait : (x ++ s.attemptedNow r billed :: y).countP (!·.attempted) =
      (x ++ y).countP (!·.attempted) := countP_erase _
  have hreturns : (x ++ s.attemptedNow r billed :: y).countP
        (Reservation.returns s.budget.generation) +
      (⟨now, s.budget.generation, r.cost, billed⟩ :: s.log).countP
        (Attempt.billedIn s.budget.generation) =
      (x ++ y).countP (Reservation.returns s.budget.generation) +
        s.log.countP (Attempt.billedIn s.budget.generation) + 1 := by
    rw [countP_erase, countP_cons]
    simp only [Reservation.returns, Attempt.billedIn, attemptedNow, beq_self_eq_true, Bool.true_and]
    cases billed with
    | true =>
      simp only [Bool.not_true, if_true, if_neg Bool.false_ne_true]
      omega
    | false =>
      simp only [Bool.not_false, if_true, if_neg Bool.false_ne_true]
      omega
  have hlimit := h.limit
  exact { hdrop with
    held := hheld
    unattempted := by
      have hcount := h.unattempted
      have hdropped := hdrop.unattempted
      rw [hlive, countP_erase, hr] at hcount
      simp only [Bool.not_false, if_true] at hcount hdropped ⊢
      rw [if_pos (by omega), hwait]
      exact hdropped
    slots := by
      dsimp only [RequestBudget.onBuckets]
      omega
    windows := by
      intro g
      dsimp only
      by_cases hg : g = s.budget.generation
      · subst hg
        omega
      · have hother : Attempt.billedIn g ⟨now, s.budget.generation, r.cost, billed⟩ = false := by
          rw [Attempt.billedIn, beq_eq_false_iff_ne.2 (Ne.symm hg), Bool.false_and]
        rw [countP_cons, hother]
        exact h.windows g
    pastLive := by
      intro r' hr' hattempted
      obtain rfl | hr' := mem_cons_of_mem_middle hr'
      · exact Nat.le_refl _
      · exact hdrop.pastLive r' hr' hattempted
    pastLog := forall_mem_cons.2 ⟨Nat.le_refl _, h.pastLog⟩
    outcomes := fun k => by
      have houtcomes := hdrop.outcomes k
      have hnew : Reservation.awaits k (s.attemptedNow r billed) = (billed == k) := rfl
      dsimp only at houtcomes ⊢
      rw [countP_erase, hnew, countP_cons, ← houtcomes]
      exact (Nat.add_assoc _ _ _).symm
    calm := by
      dsimp only
      rw [h.calm, Bool.false_or, RequestBudget.negativeHeld, any_eq_false]
      intro m _
      rw [decide_eq_true_iff, not_lt]
      refine (sum_nonneg fun z hz => ?_).trans_eq (hheld m).symm
      obtain ⟨r', -, rfl⟩ := mem_map.1 hz
      exact r'.holds_nonneg m }

/-- Giving back an unbilled request leaves each allowance within its bounds. -/
lemma bucket_refundPrimary (b : RequestBudget) (generation : Nat) (m : Meter) :
    (b.refundPrimary generation).bucket m =
      if m = .primary then (b.bucket m).refund m.capacity m.creditUnit else b.bucket m := by
  have hslot : ∀ b' : RequestBudget, (b'.returnSlot generation).bucket m = b'.bucket m := by
    intro b'
    rw [RequestBudget.returnSlot]
    split
    · rfl
    · rfl
  rw [RequestBudget.refundPrimary, hslot, RequestBudget.bucket_onBuckets]

/-- The buckets may gain credits, within their capacities. -/
lemma Sound.onBuckets (h : s.Sound) {f : Meter → Bucket → Bucket}
    (hheld : ∀ m, (f m (s.budget.bucket m)).held = (s.budget.bucket m).held)
    (hcredits : ∀ m, (s.budget.bucket m).credits ≤ (f m (s.budget.bucket m)).credits)
    (hlevel : ∀ m, (f m (s.budget.bucket m)).level ≤ m.capacity) :
    ({ s with budget := s.budget.onBuckets f } : Traffic).Sound := by
  have hbucket := RequestBudget.bucket_onBuckets (b := s.budget) f
  exact { h with
    last := fun m => (RequestBudget.lastRefill_onBuckets f m).trans (h.last m)
    held := fun m => (congrArg Bucket.held (hbucket m)).trans ((hheld m).trans (h.held m))
    level := fun m => (congrArg Bucket.level (hbucket m)).trans_le (hlevel m)
    least := fun m => ((h.least m).trans (hcredits m)).trans_eq
      (congrArg Bucket.credits (hbucket m)).symm }

/-- A slot that nothing needs may be given back. -/
lemma Sound.returnSlot (h : s.Sound) {g : Nat}
    (hspare : g = s.budget.generation → s.live.countP (!·.attempted) +
      s.live.countP (Reservation.returns s.budget.generation) +
      s.log.countP (Attempt.billedIn s.budget.generation) < s.budget.used) :
    ({ s with budget := s.budget.returnSlot g } : Traffic).Sound := by
  rw [RequestBudget.returnSlot]
  split
  · next hslot =>
    exact { h with
      slots := Nat.le_sub_one_of_lt (hspare hslot.1)
      limit := (Nat.sub_le _ 1).trans h.limit }
  · exact h

/-- A refund does not lower the credits of a bucket within its capacity. -/
lemma credits_le_refund {b : Bucket} {capacity c : Int} (hc : 0 ≤ c) (h : b.level ≤ capacity) :
    b.credits ≤ (b.refund capacity c).credits := by
  rw [Bucket.level] at h
  rw [Bucket.refund]
  split
  · change b.credits ≤ capacity - b.held
    omega
  · change b.credits ≤ b.credits + c
    omega

/-- Refunds to some of the buckets keep the accounts. -/
lemma Sound.refund (h : s.Sound) (p : Meter → Prop) [DecidablePred p] {c : Meter → Int}
    (hc : ∀ m, 0 ≤ c m) :
    ({ s with
      budget := s.budget.onBuckets fun m a =>
        if p m then a.refund m.capacity (c m) else a } : Traffic).Sound := by
  refine h.onBuckets (fun m => ?_) (fun m => ?_) fun m => ?_
  · split
    · rfl
    · rfl
  · split
    · exact credits_le_refund (hc m) (h.level m)
    · exact le_rfl
  · split
    · rw [Bucket.level_refund]
      exact min_le_left _ _
    · exact h.level m

lemma Sound.refundPrimary (h : s.Sound) {g : Nat}
    (hspare : g = s.budget.generation → s.live.countP (!·.attempted) +
      s.live.countP (Reservation.returns s.budget.generation) +
      s.log.countP (Attempt.billedIn s.budget.generation) < s.budget.used) :
    ({ s with budget := s.budget.refundPrimary g } : Traffic).Sound :=
  (h.refund (· = .primary) fun m => m.creditUnit_pos.le).returnSlot hspare

lemma Sound.refundOthers (h : s.Sound) (cost) :
    ({ s with budget := s.budget.refundOthers cost } : Traffic).Sound := by
  have hothers : s.budget.refundOthers cost = s.budget.onBuckets fun m a =>
      if m ≠ .primary then a.refund m.capacity (m.price cost) else a := by
    rw [RequestBudget.refundOthers]
    simp only [ite_not]
  rw [hothers]
  exact h.refund (· ≠ .primary) fun m => m.price_nonneg cost

/-- An outcome is counted once, and with those of its kind. -/
lemma outcomes_countOutcome (b : RequestBudget) (late billed k : Bool) :
    (b.countOutcome late billed).outcomes k =
      b.report.outcomes k + if billed == k then 1 else 0 := by
  cases late with
  | true =>
    cases billed with
    | true =>
      cases k with
      | true => exact (Nat.add_assoc _ _ 1).symm
      | false => rfl
    | false =>
      cases k with
      | true => rfl
      | false => exact (Nat.add_assoc _ _ 1).symm
  | false =>
    cases billed with
    | true =>
      cases k with
      | true => exact Nat.add_right_comm _ 1 _
      | false => rfl
    | false =>
      cases k with
      | true => rfl
      | false => exact Nat.add_right_comm _ 1 _

/-- Settling a reservation keeps the accounts. -/
lemma Sound.settle (h : s.Sound) {x y} (hlive : s.live = x ++ r :: y) (hr : r.attempted) :
    ({ s with budget := s.budget.settleLocked r r.billed, live := x ++ y } : Traffic).Sound := by
  have hslots := h.slots
  rw [hlive, countP_erase, countP_erase, hr] at hslots
  have hcounted : ∀ pending borrowed, ({ s with
      budget := { s.budget with
        pending := pending
        report := s.budget.countOutcome (decide (r.reportEpoch ≠ s.budget.reportEpoch)) r.billed
        borrowed := borrowed }
      live := x ++ y } : Traffic).Sound := by
    intro pending borrowed
    exact { h with
      held := fun m => (h.held m).trans (by
        rw [hlive, sum_erase, Reservation.holds, hr, if_pos rfl, add_zero])
      unattempted := h.unattempted.trans (by
        rw [hlive, countP_erase, hr]
        rfl)
      slots := Nat.le_trans (by simp only [Bool.not_true]; omega) hslots
      pastLive := fun r' hr' => h.pastLive r' (mem_of_mem_erase hlive r' hr')
      outcomes := fun k => by
        have hold := h.outcomes k
        rw [hlive, countP_erase, Reservation.awaits, hr, Bool.true_and] at hold
        dsimp only
        rw [outcomes_countOutcome]
        omega }
  rw [RequestBudget.settleLocked]
  split
  · exact hcounted _ _
  · next hbilled =>
    refine (hcounted _ _).refundPrimary fun hg => ?_
    have hreturns : Reservation.returns s.budget.generation r := by
      rw [Reservation.returns, hr, Bool.eq_false_of_not_eq_true hbilled,
        show (r.generation == s.budget.generation) = true from beq_iff_eq.2 hg]
      rfl
    rw [hreturns] at hslots
    simp only [Bool.not_true, Bool.false_eq_true, if_true, if_false] at hslots
    dsimp only
    omega

/-- Each allowance gets back what a reservation held of it. -/
lemma bucket_refundAll {dropped : RequestBudget} {cost}
    (h : ∀ m, dropped.bucket m = (b.bucket m).spend (m.price cost)) (generation : Nat) (m : Meter) :
    ((dropped.refundPrimary generation).refundOthers cost).bucket m =
      ((b.bucket m).spend (m.price cost)).refund m.capacity (m.price cost) := by
  rw [RequestBudget.refundOthers, RequestBudget.bucket_onBuckets, bucket_refundPrimary, h]
  by_cases hm : m = .primary
  · subst hm
    rw [if_pos rfl, if_pos rfl, Meter.price_primary]
  · rw [if_neg hm, if_neg hm]

lemma bucket_releaseLocked (b : RequestBudget) (hr : r.attempted = false) (m : Meter) :
    (b.releaseLocked r).bucket m =
      ((b.bucket m).spend (m.price r.cost)).refund m.capacity (m.price r.cost) := by
  rw [RequestBudget.releaseLocked, hr]
  refine bucket_refundAll (fun m => ?_) b.generation m
  exact RequestBudget.bucket_onBuckets (b := b) (fun m a => a.spend (m.price r.cost)) m

/-- Giving back a reservation that was not attempted keeps the accounts. -/
lemma Sound.release (h : s.Sound) {x y} (hlive : s.live = x ++ r :: y) (hr : r.attempted = false) :
    ({ s with budget := s.budget.releaseLocked r, live := x ++ y } : Traffic).Sound := by
  obtain ⟨hdrop, hslots⟩ := h.drop hlive hr
  have hback := hdrop.refundPrimary (g := s.budget.generation) fun _ => by
    dsimp only [RequestBudget.onBuckets]
    omega
  rw [RequestBudget.releaseLocked, hr]
  exact { hback.refundOthers r.cost with }

/-! ## One step -/

lemma exists_split {r} {i : Nat} {l : List Reservation} (h : l[i]? = some r) :
    ∃ x y, l = x ++ r :: y ∧ (∀ r', l.set i r' = x ++ r' :: y) ∧ l.eraseIdx i = x ++ y := by
  obtain ⟨hi, rfl⟩ := List.getElem?_eq_some_iff.1 h
  refine ⟨l.take i, l.drop (i + 1), ?_, fun r' => ?_, ?_⟩
  · rw [cons_getElem_drop_succ, take_append_drop]
  · rw [set_eq_take_append_cons_drop, if_pos hi]
  · exact eraseIdx_eq_take_drop_succ l i

lemma least_of_hasRoom {cost}
    (h : b.hasRoom conditional cost preserveClaim) {m : Meter} (hm : m ≠ .primary) :
    ((m.amount cost + if preserveClaim then m.reserve cost else 0 : Nat) : Int) * m.creditUnit ≤
      b.credits m := by
  rw [RequestBudget.hasRoom, Bool.and_eq_true, all_eq_true] at h
  refine of_decide_eq_true (h.2 m ?_)
  cases m with
  | primary => exact absurd rfl hm
  | secondary => decide
  | contentMinute => decide
  | contentHour => decide

/-- What is kept back is there after the request is reserved. -/
lemma reserve_le_hold {cost}
    (h : b.hasRoom conditional cost true) {m : Meter} (hm : m ≠ .primary) (borrowed : Bool) :
    m.reserve cost * m.creditUnit ≤
      ({ b.hold [cost] with borrowed } : RequestBudget).credits m := by
  have hleast := least_of_hasRoom h hm
  have hcredits : ({ b.hold [cost] with borrowed } : RequestBudget).credits m =
      b.credits m - m.price cost := by
    have hbucket := RequestBudget.bucket_onBuckets (b := b)
      (fun m a => a.hold ([cost].map m.price).sum) m
    rw [map_singleton, sum_singleton] at hbucket
    exact congrArg Bucket.credits hbucket
  rw [if_pos rfl, Nat.cast_add, add_mul] at hleast
  rw [hcredits, Meter.price]
  omega

lemma used_of_hasRoom {cost} (h : b.hasRoom conditional cost preserveClaim) :
    b.used + 1 ≤ billedPerTick := by
  rw [RequestBudget.hasRoom, Bool.and_eq_true, Bool.and_eq_true] at h
  have hused := of_decide_eq_true h.1.2
  have hlimit : RequestBudget.windowLimit conditional ≤ billedPerTick := by
    cases conditional with
    | true => decide
    | false => decide
  omega

/-- What a reservation can be. -/
lemma reserveOneWithCost_cases {b' : RequestBudget} {cost}
    (h : b.reserveOneWithCost conditional cost preserveClaim = some (b', r)) :
    b.hasRoom conditional cost preserveClaim ∧ r.attempted = false ∧ r.cost = cost ∧
      0 ≤ b.credits .primary ∧ ∃ borrowed, b' = { b.hold [cost] with borrowed } := by
  rw [RequestBudget.reserveOneWithCost] at h
  split at h
  · cases h
  next hroom =>
  rw [Bool.not_eq_true', Bool.not_eq_false] at hroom
  split at h
  · next hcredits =>
    cases h
    exact ⟨hroom, rfl, rfl, Meter.primary.creditUnit_pos.le.trans hcredits, b.borrowed, rfl⟩
  · split at h
    · next hborrow =>
      cases h
      rw [Bool.and_eq_true, Bool.and_eq_true, decide_eq_true_eq] at hborrow
      exact ⟨hroom, rfl, rfl, hborrow.1.2, true, rfl⟩
    · cases h

lemma least_hold {cost} (hroom : b.hasRoom conditional cost preserveClaim)
    (hprimary : 0 ≤ b.credits .primary) (m : Meter) : m.least ≤ b.credits m - m.price cost := by
  by_cases hm : m = .primary
  · subst hm
    rw [Meter.price_primary, Meter.least]
    omega
  · have hroom' := least_of_hasRoom hroom hm
    have hle : m.price cost ≤ ((m.amount cost +
        if preserveClaim then m.reserve cost else 0 : Nat) : Int) * m.creditUnit := by
      refine mul_le_mul_of_nonneg_right ?_ m.creditUnit_pos.le
      exact_mod_cast Nat.le_add_right _ _
    have hleast := m.least_nonpos
    omega

/-- The budget after the window and the allowances are brought up to an instant. -/
def current (s : Traffic) (now : Int) : Traffic :=
  { s with budget := (s.budget.rollIfStale now).refill now, clock := now }

/-- The budget after the allowances are brought up to an instant. -/
def refilled (s : Traffic) (now : Int) : Traffic :=
  { s with budget := s.budget.refill now, clock := now }

/-- What one operation can do. -/
inductive Moves (s : Traffic) (now : Int) : Traffic → Prop
  | denied (refuses deferred : Bool) : Moves s now
    { s.current now with budget := (s.current now).budget.countDenied refuses deferred }
  | hold {rs : List Reservation} (hnew : ∀ r ∈ rs, r.attempted = false)
    (hused : (s.current now).budget.used + rs.length ≤ billedPerTick)
    (hleast : ∀ m, m.least ≤
      (s.current now).budget.credits m - ((rs.map Reservation.cost).map m.price).sum)
    (borrowed : Bool) : Moves s now
    { s.current now with
      budget := { (s.current now).budget.hold (rs.map Reservation.cost) with borrowed }
      live := s.live ++ rs }
  | attempt {x y : List Reservation} {r : Reservation} (hlive : s.live = x ++ r :: y)
    (hr : r.attempted = false) (billed : Bool) : Moves s now
    { s.refilled now with
      budget := ((s.refilled now).budget.markAttemptedLocked r billed).1
      live := x ++ ((s.refilled now).budget.markAttemptedLocked r billed).2 :: y
      log := ⟨now, (s.refilled now).budget.generation, r.cost, billed⟩ :: s.log }
  | settle {x y : List Reservation} {r : Reservation} (hlive : s.live = x ++ r :: y)
    (hr : r.attempted = true) : Moves s now
    { s.refilled now with
      budget := (s.refilled now).budget.settleLocked r r.billed
      live := x ++ y }
  | release {x y : List Reservation} {r : Reservation} (hlive : s.live = x ++ r :: y)
    (hr : r.attempted = false) : Moves s now
    { s.refilled now with budget := (s.refilled now).budget.releaseLocked r, live := x ++ y }
  | tick (ceiling : Int) : Moves s now
    { s.refilled now with
      budget := { (s.refilled now).budget with
        report := {}
        pending := 0
        reportEpoch := (s.refilled now).budget.reportEpoch + 1
        ceiling }.openWindow now
      published := { (s.refilled now).budget.report with
        pending := (s.refilled now).budget.pending } :: s.published }

lemma moves_reserve (s : Traffic) (now : Int) {s'}
    {refusable wait deferred : Bool} {cost}
    (hop : s.operate now (.reserve conditional refusable wait deferred cost preserveClaim) =
      some s') : s.Moves now s' := by
  cases hop
  rw [RequestBudget.acquireCost]
  cases hreserve : ((s.budget.rollIfStale now).refill now).reserveOneWithCost conditional cost
      preserveClaim with
  | some p =>
    obtain ⟨b', r⟩ := p
    obtain ⟨hroom, hr, hcost, hprimary, borrowed, rfl⟩ := reserveOneWithCost_cases hreserve
    subst hcost
    have hnew : ∀ r' ∈ [r], r'.attempted = false := fun r' hr' => mem_singleton.1 hr' ▸ hr
    refine Moves.hold hnew (used_of_hasRoom hroom) (fun m => ?_) borrowed
    rw [map_singleton, map_singleton, sum_singleton]
    exact least_hold hroom hprimary m
  | none =>
    simp only [Option.toList_none, append_nil]
    exact Moves.denied _ deferred

lemma moves_lease (s : Traffic) (now : Int) {s'} (hop : s.operate now .lease = some s') :
    s.Moves now s' := by
  cases hop
  rw [RequestBudget.reserveLease]
  split
  · rw [append_nil]
    exact Moves.denied true false
  split
  · rw [append_nil]
    exact Moves.denied true false
  next hfits =>
  rw [not_or, not_or, Nat.not_lt, Bool.not_eq_true, any_eq_false] at hfits
  obtain ⟨-, hused, hcredits⟩ := hfits
  generalize hrs : (claimLeaseCosts.map fun cost => ({ cost, generation :=
    ((s.budget.rollIfStale now).refill now).generation } : Reservation)) = rs
  have hcosts : rs.map Reservation.cost = claimLeaseCosts := by
    rw [← hrs, map_map]
    exact map_id _
  have hnew : ∀ r ∈ rs, r.attempted = false := by
    intro r hr
    rw [← hrs] at hr
    obtain ⟨cost, -, rfl⟩ := mem_map.1 hr
    rfl
  have hlength : rs.length = claimLeaseCosts.length := by
    rw [← hrs, length_map]
  have hfits : (s.current now).budget.used + rs.length ≤ billedPerTick := by
    rw [hlength]
    exact hused.trans (by decide : ordinaryPerTick ≤ billedPerTick)
  have hleast : ∀ m, m.least ≤
      (s.current now).budget.credits m - ((rs.map Reservation.cost).map m.price).sum := by
    intro m
    have hfit := hcredits m (by cases m <;> decide)
    rw [decide_eq_true_iff, not_lt] at hfit
    rw [hcosts]
    exact m.least_nonpos.trans (sub_nonneg.2 hfit)
  have hmoves := Moves.hold hnew hfits hleast (s.current now).budget.borrowed
  rw [hcosts] at hmoves
  exact hmoves

/-- What an operation on a live reservation finds. -/
lemma exists_live {i : Nat} {c : Reservation → Bool} {f : Reservation → Traffic} {s'}
    (hop : (match s.live[i]? with
      | none => none
      | some r => if c r then none else some (f r)) = some s') :
    ∃ r x y, s.live = x ++ r :: y ∧ (∀ r', s.live.set i r' = x ++ r' :: y) ∧
      s.live.eraseIdx i = x ++ y ∧ c r = false ∧ s' = f r := by
  split at hop
  · cases hop
  next r hi =>
  split at hop
  · cases hop
  next hr =>
  cases hop
  obtain ⟨x, y, hlive, hset, herase⟩ := exists_split hi
  exact ⟨r, x, y, hlive, hset, herase, Bool.eq_false_of_not_eq_true hr, rfl⟩

/-- Every operation makes one of the moves. -/
lemma moves_of_operate {op s'} (hop : s.operate now op = some s') : s.Moves now s' := by
  cases op with
  | reserve conditional refusable wait deferred cost preserveClaim => exact moves_reserve s now hop
  | lease => exact moves_lease s now hop
  | attempt i billed =>
    obtain ⟨r, x, y, hlive, hset, -, hr, rfl⟩ := exists_live hop
    rw [hset]
    exact .attempt hlive hr billed
  | settle i =>
    obtain ⟨r, x, y, hlive, -, herase, hr, rfl⟩ := exists_live hop
    rw [Bool.not_eq_false'] at hr
    rw [herase, RequestBudget.settle, RequestBudget.markAttemptedLocked, if_pos hr]
    exact .settle hlive hr
  | release i =>
    obtain ⟨r, x, y, hlive, -, herase, hr, rfl⟩ := exists_live hop
    rw [herase]
    exact .release hlive hr
  | tick interval =>
    cases hop
    exact .tick (if interval ≤ 0 then defaultBudgetWindow else interval)

lemma moves_of_step {e : Int × Operation} {s'} (hstep : s.step e = some s') :
    s.clock ≤ e.1 ∧ s.Moves e.1 s' := by
  rw [step] at hstep
  split at hstep
  · cases hstep
  next hclock => exact ⟨not_lt.1 hclock, moves_of_operate hstep⟩

/-- One step keeps the accounts. -/
lemma Sound.step (h : s.Sound) {e : Int × Operation} {s' : Traffic} (hstep : s.step e = some s') :
    s'.Sound := by
  obtain ⟨hnow, hmoves⟩ := moves_of_step hstep
  have hcur : (s.current e.1).Sound := (h.rollIfStale e.1).refill hnow
  have hfull : (s.refilled e.1).Sound := h.refill hnow
  cases hmoves with
  | denied refuses deferred => exact hcur.denied refuses deferred
  | hold hnew hused hleast borrowed => exact hcur.hold hnew hused hleast borrowed
  | attempt hlive hr billed => exact hfull.attempt hlive hr billed e.1
  | settle hlive hr => exact hfull.settle hlive hr
  | release hlive hr => exact hfull.release hlive hr
  | tick ceiling => exact (hfull.publish ceiling).openWindow e.1

/-- A settlement takes one reservation from the live ones and attempts nothing. -/
lemma live_of_settle {i : Nat} {s' : Traffic} (hi : s.live[i]? = some r)
    (hstep : s.step (now, .settle i) = some s') :
    r.attempted ∧ (∃ x y, s.live = x ++ r :: y ∧ s'.live = x ++ y) ∧ s'.log = s.log := by
  rw [step] at hstep
  split at hstep
  · cases hstep
  obtain ⟨x, y, hlive, -, herase⟩ := exists_split hi
  rw [operate, hi] at hstep
  dsimp only at hstep
  split at hstep
  · cases hstep
  next hr =>
  cases hstep
  exact ⟨by simpa using hr, ⟨x, y, hlive, herase⟩, rfl⟩

/-- The accounts agree in every run. -/
lemma sound_of_run {started : Int} {events : List (Int × Operation)}
    (hrun : Runs.run Traffic.step (start started) events = some s) : s.Sound :=
  Runs.invariant (fun _ _ _ h _ hstep => h.step hstep) (sound_start started)
    (Runs.along_true _ _) hrun

end Traffic

/-! ## The accounts -/

/-- The requests reported so far whose outcome was `k`: in the reports published and in the one
being kept. -/
def Traffic.reported (s : Traffic) (k : Bool) : Nat :=
  (s.published.map (RequestReport.outcomes k)).sum + s.budget.report.outcomes k

/-- In every run each allowance holds what its live unattempted reservations take and stays within
its burst.  The unattempted ones are counted, and have slots of the window.  Nothing is held that
was not promised.  What is reserved with a claim in view leaves enough for one.  An attempted
request waits for its outcome, and the settlement reports it once, as what it was. -/
theorem budget_accounts (started : Int) (events : List (Int × Operation)) (s : Traffic)
    (hrun : Runs.run Traffic.step (Traffic.start started) events = some s) :
    (∀ m, (s.budget.bucket m).held =
        ((s.live.filter fun r => !r.attempted).map fun r => m.price r.cost).sum ∧
      (s.budget.bucket m).credits + (s.budget.bucket m).held ≤ m.capacity) ∧
    s.budget.unattempted = s.live.countP (!·.attempted) ∧
    s.budget.unattempted ≤ s.budget.used ∧ s.budget.used ≤ billedPerTick ∧
    s.budget.panicked = false ∧
    (∀ now conditional cost b' r,
      ((s.budget.rollIfStale now).refill now).reserveOneWithCost conditional cost true =
        some (b', r) →
      claimSecondaryReservePoints * Meter.secondary.creditUnit ≤ b'.credits .secondary ∧
      (0 < cost.contentRequests →
        claimContentReserveRequests * Meter.contentMinute.creditUnit ≤ b'.credits .contentMinute ∧
        claimContentReserveRequests * Meter.contentHour.creditUnit ≤ b'.credits .contentHour)) ∧
    (∀ k, s.reported k + s.live.countP (Reservation.awaits k) = s.log.countP (·.billed == k)) ∧
    ∀ now i r s', s.live[i]? = some r → s.step (now, .settle i) = some s' →
      ∀ k, s'.reported k = s.reported k + if r.billed == k then 1 else 0 := by
  have h := Traffic.sound_of_run hrun
  refine ⟨fun m => ⟨?_, h.level m⟩, h.unattempted, ?_, h.limit, h.calm, ?_, h.outcomes, ?_⟩
  · rw [h.held m]
    exact Traffic.sum_holds s.live m
  · have hslots := h.slots
    rw [h.unattempted]
    omega
  · intro now conditional cost b' r hreserve
    obtain ⟨hroom, -, -, -, borrowed, rfl⟩ := Traffic.reserveOneWithCost_cases hreserve
    have hfloor : ∀ m, m ≠ .primary → m.reserve cost * m.creditUnit ≤
        ({ ((s.budget.rollIfStale now).refill now).hold [cost] with borrowed } :
          RequestBudget).credits m := by
      intro m hm
      exact Traffic.reserve_le_hold hroom hm borrowed
    refine ⟨hfloor .secondary (by decide), fun hcontent => ⟨?_, ?_⟩⟩
    · have hle := hfloor .contentMinute (by decide)
      rw [Meter.reserve, if_pos hcontent] at hle
      exact hle
    · have hle := hfloor .contentHour (by decide)
      rw [Meter.reserve, if_pos hcontent] at hle
      exact hle
  · intro now i r s' hi hstep k
    have hbefore := h.outcomes k
    have hafter := (h.step hstep).outcomes k
    obtain ⟨hr, ⟨x, y, hlive, hlive'⟩, hlog⟩ := Traffic.live_of_settle hi hstep
    rw [hlive, Traffic.countP_erase, Reservation.awaits, hr, Bool.true_and] at hbefore
    rw [hlive', hlog] at hafter
    rw [Traffic.reported, Traffic.reported]
    omega

/-- A probe that is billed, next to a claim's lease. -/
def sampleTraffic : List (Int × Operation) :=
  [(second, .reserve true false false false readRequestCost true), (second, .attempt 0 true),
    (2 * second, .lease), (3 * second, .settle 0)]

theorem budget_accounts_sample : ∃ s,
    Runs.run Traffic.step (Traffic.start 1) sampleTraffic = some s ∧
      s.budget.unattempted ≤ s.budget.used ∧ s.budget.used ≤ billedPerTick ∧
      s.reported true + s.live.countP (Reservation.awaits true) =
        s.log.countP (·.billed == true) := by
  have hsome : (Runs.run Traffic.step (Traffic.start 1) sampleTraffic).isSome = true := by
    decide
  obtain ⟨s, hrun⟩ := Option.isSome_iff_exists.1 hsome
  have haccounts := budget_accounts 1 sampleTraffic s hrun
  exact ⟨s, hrun, haccounts.2.2.1, haccounts.2.2.2.1, haccounts.2.2.2.2.2.2.1 true⟩

end Ben.Tracker
