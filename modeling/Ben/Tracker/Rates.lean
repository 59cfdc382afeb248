import Ben.Tracker.Metering

/-!
# The rates of the request budget

For each allowance we follow a potential: what the attempts so far have taken of it, what it still
has or holds, and what requests in flight will give back to it.  No operation raises the potential;
only the refill before it does, by its rate for the time that passed, and to the burst at most.  So
what is attempted in an interval of time is bounded by the burst and the rate.

Three of the allowances get nothing back from a request in flight, and their bounds hold without a
condition.  The primary one gets back what was not billed.  A request that was attempted before the
interval and settles in it, unbilled, makes room for one more, and with those the bound is higher.
-/

namespace Ben.Tracker

open List

/-- What an attempt takes of an allowance for good. -/
def Attempt.takes (m : Meter) (a : Attempt) : Int :=
  if m = .primary ∧ a.billed = false then 0 else m.price a.cost

/-- What a reservation will give back when it settles. -/
def Reservation.owes (m : Meter) (r : Reservation) : Int :=
  if m = .primary ∧ r.awaits false = true then m.creditUnit else 0

namespace Traffic

variable {s s' : Traffic} {now : Int} {m : Meter}

/-- What the attempts have taken of an allowance. -/
def spent (m : Meter) (s : Traffic) : Int := (s.log.map (Attempt.takes m)).sum

/-- What the requests in flight will give back. -/
def owed (m : Meter) (s : Traffic) : Int := (s.live.map (Reservation.owes m)).sum

def potential (m : Meter) (s : Traffic) : Int := s.spent m + s.owed m + (s.budget.bucket m).level

/-- The most that the potential can be after a refill. -/
def ceiling (m : Meter) (s : Traffic) : Int := s.spent m + s.owed m + m.capacity

lemma owes_of_not_attempted {r : Reservation} (hr : r.attempted = false) : r.owes m = 0 := by
  rw [Reservation.owes, Reservation.awaits, hr, Bool.false_and]
  exact if_neg fun h => Bool.false_ne_true h.2

lemma owes_nonneg (r : Reservation) : 0 ≤ r.owes m := by
  rw [Reservation.owes]
  split
  · exact m.creditUnit_pos.le
  · exact Int.le_refl 0

lemma sum_owes_erase {x y} {r : Reservation} : ((x ++ r :: y).map (Reservation.owes m)).sum =
      ((x ++ y).map (Reservation.owes m)).sum + r.owes m := by
  rw [map_append, sum_append, map_cons, sum_cons, map_append, sum_append]
  omega

/-- An attempt takes what it costs, for good or until it settles. -/
lemma takes_add_owes (s : Traffic) (r : Reservation) (billed : Bool) (now : Int) (g : Nat) :
    Attempt.takes m ⟨now, g, r.cost, billed⟩ + (s.attemptedNow r billed).owes m =
      m.price r.cost := by
  rw [Attempt.takes, Reservation.owes]
  by_cases hm : m = .primary
  · subst hm
    cases billed with
    | true =>
      rw [if_neg fun h => Bool.false_ne_true h.2.symm, if_neg fun h => Bool.false_ne_true h.2,
        add_zero]
    | false =>
      rw [if_pos ⟨rfl, rfl⟩, if_pos ⟨rfl, rfl⟩, zero_add, Meter.price_primary]
  · rw [if_neg fun h => hm h.1, if_neg fun h => hm h.1, add_zero]

/-- A settlement gives back at most what the request owes. -/
lemma level_settleLocked_le (b : RequestBudget) {r : Reservation} (hr : r.attempted) :
    ((b.settleLocked r r.billed).bucket m).level ≤ (b.bucket m).level + r.owes m := by
  rw [RequestBudget.settleLocked]
  split
  · exact le_add_of_nonneg_right (owes_nonneg r)
  next hbilled =>
  rw [Bool.not_eq_true] at hbilled
  rw [bucket_refundPrimary]
  split
  next hm =>
    have howes : r.owes m = m.creditUnit := by
      rw [Reservation.owes, Reservation.awaits, hr, hbilled]
      exact if_pos ⟨hm, rfl⟩
    rw [Bucket.level_refund, howes]
    exact min_le_right _ _
  · exact le_add_of_nonneg_right (owes_nonneg r)

/-- Giving back a reservation does not raise the level. -/
lemma level_releaseLocked_le (b : RequestBudget) {r : Reservation} (hr : r.attempted = false) :
    ((b.releaseLocked r).bucket m).level ≤ (b.bucket m).level := by
  rw [bucket_releaseLocked b hr, Bucket.level_refund, Bucket.level_spend]
  exact (min_le_right _ _).trans (by omega)

/-- After the refill, no operation raises the potential. -/
lemma Moves.potential_le (h : s.Moves now s') :
    s'.potential m ≤ s.spent m + s.owed m + ((s.budget.refill now).bucket m).level := by
  have hcurrent : (s.current now).budget.bucket m = (s.budget.refill now).bucket m := by
    rw [current, RequestBudget.rollIfStale]
    split
    · rfl
    · rfl
  cases h with
  | denied refuses deferred =>
    change s.spent m + s.owed m + ((s.current now).budget.bucket m).level ≤ _
    rw [hcurrent]
  | @hold rs hnew hused hleast borrowed =>
    have howed : ((s.live ++ rs).map (Reservation.owes m)).sum = s.owed m := by
      rw [map_append, sum_append, owed]
      have hzero : (rs.map (Reservation.owes m)).sum = 0 :=
        sum_eq_zero fun x hx => by
          obtain ⟨r, hr, rfl⟩ := mem_map.1 hx
          exact owes_of_not_attempted (hnew r hr)
      rw [hzero, add_zero]
    have hbucket := RequestBudget.bucket_onBuckets (b := (s.current now).budget)
      (fun m a => a.hold ((rs.map Reservation.cost).map m.price).sum) m
    change s.spent m + ((s.live ++ rs).map (Reservation.owes m)).sum +
      (((s.current now).budget.onBuckets
        fun m a => a.hold ((rs.map Reservation.cost).map m.price).sum).bucket m).level ≤ _
    rw [howed, hbucket, Bucket.level_hold, hcurrent]
  | @attempt x y r hlive hr billed =>
    rw [markAttemptedLocked_eq hr billed]
    have hbucket := RequestBudget.bucket_onBuckets (b := s.budget.refill now)
      (fun m a => a.spend (m.price r.cost)) m
    have htakes := takes_add_owes (m := m) (s.refilled now) r billed now
      (s.refilled now).budget.generation
    have howed : s.owed m = ((x ++ y).map (Reservation.owes m)).sum := by
      rw [owed, hlive, sum_owes_erase, owes_of_not_attempted hr, add_zero]
    change (Attempt.takes m ⟨now, _, r.cost, billed⟩ + s.spent m) +
      ((x ++ (s.refilled now).attemptedNow r billed :: y).map (Reservation.owes m)).sum +
      (((s.budget.refill now).onBuckets
        fun m a => a.spend (m.price r.cost)).bucket m).level ≤ _
    rw [sum_owes_erase, hbucket, Bucket.level_spend, howed]
    omega
  | @settle x y r hlive hr =>
    have hlevel := level_settleLocked_le (m := m) (s.budget.refill now) hr
    have howed : s.owed m = ((x ++ y).map (Reservation.owes m)).sum + r.owes m := by
      rw [owed, hlive, sum_owes_erase]
    change s.spent m + ((x ++ y).map (Reservation.owes m)).sum +
      (((s.budget.refill now).settleLocked r r.billed).bucket m).level ≤ _
    omega
  | @release x y r hlive hr =>
    have hlevel := level_releaseLocked_le (m := m) (s.budget.refill now) hr
    have howed : s.owed m = ((x ++ y).map (Reservation.owes m)).sum := by
      rw [owed, hlive, sum_owes_erase, owes_of_not_attempted hr, add_zero]
    change s.spent m + ((x ++ y).map (Reservation.owes m)).sum +
      (((s.budget.refill now).releaseLocked r).bucket m).level ≤ _
    omega
  | tick => exact Int.le_refl _

lemma Moves.clock (h : s.Moves now s') : s'.clock = now := by
  cases h with
  | denied => rfl
  | hold => rfl
  | attempt => rfl
  | settle => rfl
  | release => rfl
  | tick => rfl

/-- One step raises the potential by the rate for the time that passed. -/
lemma Sound.potential_step (h : s.Sound) {e : Int × Operation} (hstep : s.step e = some s') :
    s'.potential m ≤ s.potential m + m.rate * (s'.clock - s.clock) := by
  obtain ⟨hnow, hmoves⟩ := moves_of_step hstep
  have hle := hmoves.potential_le (m := m)
  have hlevel := (h.refilled hnow m).level
  rw [h.last m] at hlevel
  have hpotential : s.potential m = s.spent m + s.owed m + (s.budget.bucket m).level := rfl
  rw [hmoves.clock]
  omega

/-- One step raises the potential to its ceiling at most. -/
lemma Sound.potential_le_ceiling (h : s.Sound) {e : Int × Operation} (hstep : s.step e = some s') :
    s'.potential m ≤ s.ceiling m := by
  obtain ⟨hnow, hmoves⟩ := moves_of_step hstep
  have hle := hmoves.potential_le (m := m)
  have hcapacity := (h.refilled hnow m).capacity
  rw [ceiling]
  omega

/-- The attempts of a run within an interval take the burst, what was owed at its start and the rate
for the interval at most.  The primary allowance may end one credit in debt. -/
lemma Sound.spent_le (h : s.Sound) {events : List (Int × Operation)} {lo hi : Int} (hle : lo ≤ hi)
    (hrun : Runs.run Traffic.step s events = some s')
    (hin : ∀ e ∈ events, lo ≤ e.1 ∧ e.1 ≤ hi) (m : Meter) :
    s'.spent m - s.spent m ≤ s.owed m + m.capacity + m.rate * (hi - lo) - m.least := by
  have hclock : ∀ (s : Traffic) (e : Int × Operation) (s' : Traffic),
      s.step e = some s' → s'.clock = e.1 := fun _ _ _ hstep => (moves_of_step hstep).2.clock
  have hrise : s'.potential m ≤ s.ceiling m + m.rate * (hi - lo) := Runs.rise_le_within
    (fun _ _ _ h hstep => h.step hstep) (fun _ _ _ h hstep => h.potential_step hstep)
    (fun _ _ _ h hstep => h.potential_le_ceiling hstep)
    hclock m.rate_pos.le h
    (add_le_add_right (h.level m) _) hle hrun hin
  have hsound : s'.Sound := Runs.invariant (fun _ _ _ h _ hstep => h.step hstep) h
    (Runs.along_true _ _) hrun
  have howed : 0 ≤ s'.owed m := sum_nonneg fun x hx => by
    obtain ⟨r, -, rfl⟩ := mem_map.1 hx
    exact owes_nonneg r
  have hheld : 0 ≤ (s'.budget.bucket m).held := by
    rw [hsound.held m]
    refine sum_nonneg fun x hx => ?_
    obtain ⟨r, -, rfl⟩ := mem_map.1 hx
    exact r.holds_nonneg m
  have hleast := hsound.least m
  rw [potential, ceiling, Bucket.level] at hrise
  omega

/-- Attempts are only added to the log. -/
lemma log_suffix {events : List (Int × Operation)}
    (hrun : Runs.run Traffic.step s events = some s') : s.log <:+ s'.log := by
  refine Runs.invariant (P := fun s' => s.log <:+ s'.log) (fun t _ t' h _ hstep => ?_)
    suffix_rfl (Runs.along_true _ _) hrun
  obtain ⟨-, hmoves⟩ := moves_of_step hstep
  refine h.trans ?_
  cases hmoves with
  | denied => exact suffix_rfl
  | hold => exact suffix_rfl
  | attempt => exact suffix_cons _ _
  | settle => exact suffix_rfl
  | release => exact suffix_rfl
  | tick => exact suffix_rfl

/-- For good, attempts take of an allowance other than the primary one what they cost. -/
lemma sum_takes (hm : m ≠ .primary) (seg : List Attempt) : (seg.map (Attempt.takes m)).sum =
      ((seg.map fun a => m.amount a.cost).sum : Nat) * m.creditUnit := by
  induction seg with
  | nil => exact (zero_mul _).symm
  | cons a seg ih =>
    rw [map_cons, sum_cons, ih, map_cons, sum_cons, Nat.cast_add, add_mul,
      Attempt.takes, if_neg fun h => hm h.1, Meter.price]

/-- Of the primary one they take what is billed. -/
lemma sum_takes_primary (seg : List Attempt) : (seg.map (Attempt.takes .primary)).sum =
      (seg.countP (·.billed) : Nat) * Meter.primary.creditUnit := by
  induction seg with
  | nil => rfl
  | cons a seg ih =>
    rw [map_cons, sum_cons, ih, countP_cons, Nat.cast_add, add_mul, Attempt.takes, add_comm]
    cases a.billed with
    | true => rw [if_neg fun h => Bool.false_ne_true h.2.symm, Meter.price_primary]; rfl
    | false => rfl

lemma owed_primary (s : Traffic) :
    s.owed .primary = (s.live.countP (Reservation.awaits false) : Nat) *
      Meter.primary.creditUnit := by
  rw [owed]
  induction s.live with
  | nil => rfl
  | cons r rs ih =>
    rw [map_cons, sum_cons, ih, countP_cons, Nat.cast_add, add_mul, Reservation.owes, add_comm]
    cases r.awaits false with
    | true => rfl
    | false => rfl

lemma owed_eq_zero (hm : m ≠ .primary) (s : Traffic) : s.owed m = 0 := by
  refine sum_eq_zero fun x hx => ?_
  obtain ⟨r, -, rfl⟩ := mem_map.1 hx
  rw [Reservation.owes, if_neg fun h => hm h.1]

section Interval

variable {events : List (Int × Operation)} {lo L : Int} {seg : List Attempt}

/-- What an allowance other than the primary one admits in an interval. -/
lemma Sound.amount_le (h : s.Sound) (hL : 0 ≤ L) (hrun : Runs.run Traffic.step s events = some s')
    (hin : ∀ e ∈ events, lo ≤ e.1 ∧ e.1 ≤ lo + L) (hseg : s'.log = seg ++ s.log)
    (hm : m ≠ .primary) :
    ((seg.map fun a => m.amount a.cost).sum : Nat) * m.creditUnit ≤
      m.capacity + m.rate * L := by
  have hspent := h.spent_le (by omega) hrun hin m
  have hleast : m.least = 0 := by
    cases m with
    | primary => exact absurd rfl hm
    | secondary => rfl
    | contentMinute => rfl
    | contentHour => rfl
  rw [spent, hseg, map_append, sum_append, sum_takes hm, ← spent, owed_eq_zero hm,
    hleast, add_sub_cancel_left] at hspent
  omega

/-- How many of the requests attempted in an interval are billed. -/
lemma Sound.billed_le (h : s.Sound) (hL : 0 ≤ L) (hrun : Runs.run Traffic.step s events = some s')
    (hin : ∀ e ∈ events, lo ≤ e.1 ∧ e.1 ≤ lo + L) (hseg : s'.log = seg ++ s.log) :
    (seg.countP (·.billed) : Int) ≤ billedPerTick + 1 +
      s.live.countP (Reservation.awaits false) + billedPerTick * L / defaultBudgetWindow := by
  have hspent := h.spent_le (by omega) hrun hin .primary
  rw [spent, hseg, map_append, sum_append, sum_takes_primary, ← spent, owed_primary,
    add_sub_cancel_left, Meter.capacity, Meter.least] at hspent
  have hfloor : (seg.countP (·.billed) : Int) - billedPerTick - 1 -
      s.live.countP (Reservation.awaits false) ≤ billedPerTick * L / defaultBudgetWindow := by
    have hwindow : 0 < defaultBudgetWindow := Meter.primary.creditUnit_pos
    rw [Int.le_ediv_iff_mul_le hwindow]
    simp only [Meter.burst, Meter.creditUnit, Meter.rate] at hspent
    rw [sub_mul, sub_mul, sub_mul]
    omega
  omega

end Interval

end Traffic

/-- In every part of a run whose instants lie in an interval, what is attempted keeps to the rates:
900 points and 80 requests with content in a minute, 500 of those in an hour.  Of the requests of a
window 40 are billed at most.  In an interval of any length 41 requests are, and what the rate gives
for the interval, provided that no request was in flight at its beginning that turns out not to be
billed. -/
theorem attempts_paced (started : Int) (before during : List (Int × Operation)) (s s' : Traffic)
    (lo L : Int) (hL : 0 ≤ L)
    (hbefore : Runs.run Traffic.step (Traffic.start started) before = some s)
    (hduring : Runs.run Traffic.step s during = some s')
    (hin : ∀ e ∈ during, lo ≤ e.1 ∧ e.1 ≤ lo + L) :
    ∃ attempts, s'.log = attempts ++ s.log ∧
      (L ≤ 60 * second →
        (attempts.map fun a => a.cost.secondaryPoints).sum ≤ 900 ∧
        (attempts.map fun a => a.cost.contentRequests).sum ≤ 80) ∧
      (L ≤ 3600 * second → (attempts.map fun a => a.cost.contentRequests).sum ≤ 500) ∧
      (s.live.countP (Reservation.awaits false) = 0 →
        (attempts.countP (·.billed) : Int) ≤ 41 + 40 * L / (30 * second)) ∧
      ∀ g, s'.log.countP (Attempt.billedIn g) ≤ 40 := by
  have h := Traffic.sound_of_run hbefore
  obtain ⟨attempts, hlog⟩ := Traffic.log_suffix hduring
  have hamount : ∀ m : Meter, m ≠ .primary →
      ((attempts.map fun a => m.amount a.cost).sum : Nat) * m.creditUnit ≤
        m.capacity + m.rate * L := fun m hm => h.amount_le hL hduring hin hlog.symm hm
  refine ⟨attempts, hlog.symm, fun hminute => ⟨?_, ?_⟩, fun hhour => ?_, fun hnone => ?_, ?_⟩
  · have hle := hamount .secondary (by decide)
    simp only [Meter.amount, Meter.capacity, Meter.burst, Meter.creditUnit, Meter.rate,
      second] at hle
    rw [second] at hminute
    omega
  · have hle := hamount .contentMinute (by decide)
    simp only [Meter.amount, Meter.capacity, Meter.burst, Meter.creditUnit, Meter.rate,
      second] at hle
    rw [second] at hminute
    omega
  · have hle := hamount .contentHour (by decide)
    simp only [Meter.amount, Meter.capacity, Meter.burst, Meter.creditUnit, Meter.rate,
      second] at hle
    rw [second] at hhour
    omega
  · have hle := h.billed_le hL hduring hin hlog.symm
    rw [hnone] at hle
    exact hle
  · exact (Runs.invariant (fun _ _ _ h _ hstep => Traffic.Sound.step h hstep) h
      (Runs.along_true _ _) hduring).windows

/-- A conditional request that is attempted at once, at place `i` among the live reservations. -/
def probe (now : Int) (billed : Bool) (i : Nat) : List (Int × Operation) :=
  [(now, .reserve true false false false readRequestCost true), (now, .attempt i billed)]

/-- A window of billed probes, then the answer to the request that was in flight, then a new window
with two more. -/
def fullWindow : List (Int × Operation) :=
  (2 * second, .tick 0) :: (List.range' 1 40).flatMap (probe (2 * second) true) ++
    [(2 * second, .settle 0), (2 * second, .tick 0)] ++
      (List.range' 40 2).flatMap (probe (2 * second) true)

theorem attempts_paced_sample : ∃ s s',
    Runs.run Traffic.step (Traffic.start second) (probe second true 0) = some s ∧
    Runs.run Traffic.step s (probe (2 * second) true 1) = some s' ∧
    ∃ attempts, s'.log = attempts ++ s.log ∧
      (attempts.countP (·.billed) : Int) ≤ 41 + 40 * 0 / (30 * second) := by
  have hruns : ((Runs.run Traffic.step (Traffic.start second) (probe second true 0)).any fun s =>
      decide (s.live.countP (Reservation.awaits false) = 0) &&
      (Runs.run Traffic.step s (probe (2 * second) true 1)).isSome) = true := by
    decide
  rw [Option.any_eq_true] at hruns
  obtain ⟨s, hbefore, hs⟩ := hruns
  rw [Bool.and_eq_true, decide_eq_true_eq] at hs
  obtain ⟨hnone, hsome⟩ := hs
  obtain ⟨s', hduring⟩ := Option.isSome_iff_exists.1 hsome
  obtain ⟨attempts, hlog, -, -, hbilled, -⟩ := attempts_paced second _ _ s s' (2 * second) 0
    (Int.le_refl 0) hbefore hduring (by decide)
  exact ⟨s, s', hbefore, hduring, attempts, hlog, hbilled hnone⟩

/-- One request is in flight when a window of 40 opens and fills at one instant.  It settles
unbilled and gives back its credit, a new window opens, and two more requests are attempted, the
second of them on a borrowed credit: 42 requests of one instant are billed. -/
theorem flight_raises_billed : ∃ s s' s'' attempts,
    Runs.run Traffic.step (Traffic.start second) (probe second false 0) = some s ∧
    Runs.run Traffic.step s fullWindow = some s' ∧
    (∀ e ∈ fullWindow, 2 * second ≤ e.1 ∧ e.1 ≤ 2 * second + 0) ∧
    s'.log = attempts ++ s.log ∧
    ¬ (attempts.countP (·.billed) : Int) ≤ 41 + 40 * 0 / (30 * second) ∧
    Runs.run Traffic.step s' (List.replicate 42 (3 * second, .settle 0)) = some s'' ∧
    s''.live = [] ∧ s''.reported true = 42 := by
  have hruns : ((Runs.run Traffic.step (Traffic.start second) (probe second false 0)).any fun s =>
      (Runs.run Traffic.step s fullWindow).any fun s' =>
        decide (s'.log = s'.log.take 42 ++ s.log) &&
        decide (41 + 40 * 0 / (30 * second) < ((s'.log.take 42).countP (·.billed) : Int)) &&
        (Runs.run Traffic.step s' (List.replicate 42 (3 * second, .settle 0))).any fun s'' =>
          decide (s''.live = [] ∧ s''.reported true = 42)) = true := by
    decide +kernel
  rw [Option.any_eq_true] at hruns
  obtain ⟨s, hbefore, hruns⟩ := hruns
  rw [Option.any_eq_true] at hruns
  obtain ⟨s', hduring, hruns⟩ := hruns
  rw [Bool.and_eq_true, Bool.and_eq_true, Option.any_eq_true] at hruns
  obtain ⟨⟨hlog, hbilled⟩, s'', hafter, hend⟩ := hruns
  have hend := of_decide_eq_true hend
  exact ⟨s, s', s'', s'.log.take 42, hbefore, hduring, by decide, of_decide_eq_true hlog,
    not_le.2 (of_decide_eq_true hbilled), hafter, hend.1, hend.2⟩

end Ben.Tracker
