import Ben.Lib.Bucket

/-!
# The request budget of the tracker

A request is reserved before it reaches the network.  A reservation takes a slot of the current
window and credits of four allowances: the primary one, which a response that is not billed gives
back, and three that count every exchange, namely points by the minute and content by the minute and
by the hour.  What a reservation takes is held until the request is attempted or the reservation is
given back.  A conditional request may borrow one credit of the primary allowance, since it may turn
out to cost nothing.  A claim reserves its three requests at once.

Every operation takes the lock and reads the clock under it.  A run is any sequence of operations in
the order the transport issues them: a reservation is attempted or given back, and one that was
attempted is settled.  Whether the response will be billed is fixed when the request is attempted.
-/

namespace Ben.Tracker

/-! ## Prices -/

/-- One second of the clock, which counts nanoseconds since the zero instant. -/
def second : Int := 1000000000

def billedPerTick : Nat := 40

def ordinaryPerTick : Nat := billedPerTick - 1

def defaultBudgetWindow : Int := 30 * second

/-- What a request takes of the limits that are not primary. -/
structure RequestCost where
  secondaryPoints : Nat
  contentRequests : Nat := 0
  deriving DecidableEq, Repr

def readRequestCost : RequestCost := { secondaryPoints := 1 }

def writeRequestCost : RequestCost := { secondaryPoints := 5, contentRequests := 1 }

/-- The requests of a claim: assign, verify and release. -/
def claimLeaseCosts : List RequestCost := [writeRequestCost, readRequestCost, writeRequestCost]

def claimSecondaryReservePoints : Nat := 11

def claimContentReserveRequests : Nat := 2

/-- The four allowances. -/
inductive Meter where
  | primary
  | secondary
  | contentMinute
  | contentHour
  deriving DecidableEq, Repr

namespace Meter

/-- What one request or point is worth in credits. -/
def creditUnit : Meter → Int
  | primary => defaultBudgetWindow
  | secondary => 60 * second
  | contentMinute => 60 * second
  | contentHour => 3600 * second

/-- How many of them the bucket holds. -/
def burst : Meter → Int
  | primary => billedPerTick
  | secondary => 100
  | contentMinute => 20
  | contentHour => 80

/-- The credits a nanosecond restores. -/
def rate : Meter → Int
  | primary => billedPerTick
  | secondary => 800
  | contentMinute => 60
  | contentHour => 420

def capacity (m : Meter) : Int := m.burst * m.creditUnit

/-- How many of them a request takes. -/
def amount : Meter → RequestCost → Nat
  | primary, _ => 1
  | secondary, cost => cost.secondaryPoints
  | contentMinute, cost => cost.contentRequests
  | contentHour, cost => cost.contentRequests

def price (m : Meter) (cost : RequestCost) : Int := m.amount cost * m.creditUnit

/-- How many of them are kept back for a claim. -/
def reserve (cost : RequestCost) : Meter → Nat
  | primary => 0
  | secondary => claimSecondaryReservePoints
  | contentMinute => if 0 < cost.contentRequests then claimContentReserveRequests else 0
  | contentHour => if 0 < cost.contentRequests then claimContentReserveRequests else 0

end Meter

/-- Something for each of the allowances. -/
structure Meters (α : Type) where
  primary : α
  secondary : α
  contentMinute : α
  contentHour : α
  deriving DecidableEq, Repr

namespace Meters

variable {α : Type}

def get (t : Meters α) : Meter → α
  | .primary => t.primary
  | .secondary => t.secondary
  | .contentMinute => t.contentMinute
  | .contentHour => t.contentHour

def ofFn (f : Meter → α) : Meters α := ⟨f .primary, f .secondary, f .contentMinute, f .contentHour⟩

@[simp] lemma get_ofFn (f : Meter → α) (m) : (ofFn f).get m = f m := by
  cases m with
  | primary => rfl
  | secondary => rfl
  | contentMinute => rfl
  | contentHour => rfl

end Meters

/-- A bucket and when it was last refilled. -/
structure Allowance extends Bucket where
  lastRefill : Int
  deriving DecidableEq, Repr

/-- Refill an allowance.  The zero instant stands for one that was never refilled. -/
def refillAllowance (now : Int) (m : Meter) (a : Allowance) : Allowance :=
  if a.lastRefill = 0 then { a with lastRefill := now }
  else if now - a.lastRefill ≤ 0 then a
  else { toBucket := a.toBucket.refill m.capacity m.rate (now - a.lastRefill), lastRefill := now }

/-! ## The budget -/

/-- What a tick reports. -/
structure RequestReport where
  billed : Nat := 0
  unbilled : Nat := 0
  refused : Nat := 0
  deferred : Nat := 0
  pending : Nat := 0
  lateBilled : Nat := 0
  lateUnbilled : Nat := 0
  deriving DecidableEq, Repr

/-- The requests a report has the outcome of, those that were billed or those that were not. -/
def RequestReport.outcomes (billed : Bool) (r : RequestReport) : Nat :=
  if billed then r.billed + r.lateBilled else r.unbilled + r.lateUnbilled

/-- The state under the lock. -/
structure RequestBudget where
  ceiling : Int
  opened : Int
  generation : Nat := 0
  used : Nat := 0
  unattempted : Nat := 0
  borrowed : Bool := false
  allowances : Meters Allowance
  reportEpoch : Nat := 0
  pending : Nat := 0
  report : RequestReport := {}
  panicked : Bool := false
  deriving DecidableEq, Repr

/-- A reservation that has not been settled or given back.  `billed` is the answer it will get, once
it is attempted. -/
structure Reservation where
  cost : RequestCost
  generation : Nat
  borrowed : Bool := false
  attempted : Bool := false
  reportEpoch : Nat := 0
  billed : Bool := false
  deriving DecidableEq, Repr

def newRequestBudget (started : Int) : RequestBudget where
  ceiling := defaultBudgetWindow
  opened := started
  allowances := .ofFn fun m => { credits := m.capacity, held := 0, lastRefill := started }

namespace RequestBudget

variable (b : RequestBudget)

/-- The credits of an allowance. -/
def credits (m : Meter) : Int := (b.allowances.get m).credits

/-- Change all four buckets. -/
def onBuckets (f : Meter → Bucket → Bucket) : RequestBudget :=
  { b with allowances := .ofFn fun m =>
      { b.allowances.get m with toBucket := f m (b.allowances.get m).toBucket } }

def refill (now : Int) : RequestBudget :=
  { b with allowances := .ofFn fun m => refillAllowance now m (b.allowances.get m) }

/-- Open a window.  What has not been attempted is carried into it. -/
def openWindow (now : Int) : RequestBudget :=
  { b with opened := now, generation := b.generation + 1, used := b.unattempted }

def rollIfStale (now : Int) : RequestBudget :=
  if b.opened = 0 ∨ b.ceiling ≤ now - b.opened then b.openWindow now else b

/-- Take the slots and hold the credits of some requests. -/
def hold (costs : List RequestCost) : RequestBudget :=
  { b.onBuckets fun m a => a.hold (costs.map m.price).sum with
    used := b.used + costs.length
    unattempted := b.unattempted + costs.length }

/-- The slots a request may find taken. -/
def windowLimit (conditional : Bool) : Nat := if conditional then billedPerTick else ordinaryPerTick

/-- The window and the allowances that count every exchange have room. -/
def hasRoom (conditional : Bool) (cost : RequestCost) (preserveClaim : Bool) : Bool :=
  decide (0 < cost.secondaryPoints) && decide (b.used < windowLimit conditional) &&
    [Meter.secondary, .contentMinute, .contentHour].all fun m =>
      decide ((m.amount cost + (if preserveClaim then m.reserve cost else 0) : Nat) * m.creditUnit ≤
        b.credits m)

/-- Reserve one request. -/
def reserveOneWithCost (conditional : Bool) (cost : RequestCost) (preserveClaim : Bool) :
    Option (RequestBudget × Reservation) :=
  if !b.hasRoom conditional cost preserveClaim then none
  else if Meter.primary.creditUnit ≤ b.credits .primary then
    some (b.hold [cost], { cost, generation := b.generation })
  else if conditional && decide (0 ≤ b.credits .primary) && !b.borrowed then
    some ({ b.hold [cost] with borrowed := true },
      { cost, generation := b.generation, borrowed := true })
  else none

/-- Count that a request was refused, or that it waits. -/
def countDenied (refuses deferred : Bool) : RequestBudget :=
  { b with report :=
      if refuses then { b.report with refused := b.report.refused + 1 }
      else if !deferred then { b.report with deferred := b.report.deferred + 1 }
      else b.report }

/-- One pass of `acquireCost`: a reservation, or a count of why there is none. -/
def acquireCost (now : Int) (conditional refusable wait deferred : Bool) (cost : RequestCost)
    (preserveClaim : Bool) : RequestBudget × Option Reservation :=
  let b := (b.rollIfStale now).refill now
  match b.reserveOneWithCost conditional cost preserveClaim with
  | some (b', r) => (b', some r)
  | none => (b.countDenied ((!conditional || refusable) && !wait) deferred, none)

/-- Reserve a whole sequence of requests, or nothing. -/
def reserveLease (now : Int) (costs : List RequestCost) : RequestBudget × List Reservation :=
  let b := (b.rollIfStale now).refill now
  if costs.any fun cost => decide (cost.secondaryPoints = 0) then (b.countDenied true false, [])
  else if costs.length = 0 ∨ ordinaryPerTick < b.used + costs.length ∨
      ([Meter.primary, .secondary, .contentMinute, .contentHour].any fun m =>
        decide (b.credits m < (costs.map m.price).sum)) then (b.countDenied true false, [])
  else (b.hold costs, costs.map fun cost => { cost, generation := b.generation })

def beginTick (now : Int) (interval : Int) : RequestBudget × RequestReport :=
  let b := b.refill now
  ({ b with
      report := {}
      pending := 0
      reportEpoch := b.reportEpoch + 1
      ceiling := if interval ≤ 0 then defaultBudgetWindow else interval }.openWindow now,
    { b.report with pending := b.pending })

/-- A held bucket is negative. -/
def negativeHeld : Bool :=
  [Meter.primary, .secondary, .contentMinute, .contentHour].any fun m =>
    decide ((b.allowances.get m).held < 0)

def markAttemptedLocked (r : Reservation) (billed : Bool) : RequestBudget × Reservation :=
  if r.attempted then (b, r)
  else
    let b' := b.onBuckets fun m a => a.spend (m.price r.cost)
    ({ b' with
        unattempted := if 0 < b.unattempted then b.unattempted - 1 else b.unattempted
        pending := b.pending + 1
        panicked := b.panicked || b'.negativeHeld },
      { r with
        attempted := true
        billed := billed
        generation := b.generation
        reportEpoch := b.reportEpoch })

/-- The request reaches the network. -/
def markAttempted (now : Int) (r : Reservation) (billed : Bool) : RequestBudget × Reservation :=
  (b.refill now).markAttemptedLocked r billed

/-- Give the slot back, if it is one of the current window. -/
def returnSlot (generation : Nat) : RequestBudget :=
  if generation = b.generation ∧ 0 < b.used then { b with used := b.used - 1 } else b

def refundPrimary (generation : Nat) : RequestBudget :=
  (b.onBuckets fun m a =>
    if m = .primary then a.refund m.capacity m.creditUnit else a).returnSlot generation

/-- Give back what a request takes of the other allowances. -/
def refundOthers (cost : RequestCost) : RequestBudget :=
  b.onBuckets fun m a => if m = .primary then a else a.refund m.capacity (m.price cost)

/-- Count the outcome of an exchange. -/
def countOutcome (late billed : Bool) : RequestReport :=
  if billed && late then { b.report with lateBilled := b.report.lateBilled + 1 }
  else if billed then { b.report with billed := b.report.billed + 1 }
  else if late then { b.report with lateUnbilled := b.report.lateUnbilled + 1 }
  else { b.report with unbilled := b.report.unbilled + 1 }

/-- Count an outcome and give back what was not billed. -/
def settleLocked (r : Reservation) (billed : Bool) : RequestBudget :=
  let late := decide (r.reportEpoch ≠ b.reportEpoch)
  let counted := { b with
    pending := if !late && decide (0 < b.pending) then b.pending - 1 else b.pending
    report := b.countOutcome late billed
    borrowed := if r.borrowed then false else b.borrowed }
  if billed then counted else counted.refundPrimary r.generation

/-- The response has arrived. -/
def settle (now : Int) (r : Reservation) (billed : Bool) : RequestBudget :=
  let marked := (b.refill now).markAttemptedLocked r billed
  marked.1.settleLocked marked.2 billed

/-- Give back all that a reservation took. -/
def releaseLocked (r : Reservation) : RequestBudget :=
  let dropped := if r.attempted then b else
    { b.onBuckets fun m a => a.spend (m.price r.cost) with unattempted := b.unattempted - 1 }
  let generation := if r.attempted then r.generation else b.generation
  { (dropped.refundPrimary generation).refundOthers r.cost with
    pending := if r.attempted && decide (r.reportEpoch = b.reportEpoch) && decide (0 < b.pending)
      then b.pending - 1 else b.pending
    borrowed := if r.borrowed then false else b.borrowed }

/-- The request will not be made. -/
def releaseUnused (now : Int) (r : Reservation) : RequestBudget := (b.refill now).releaseLocked r

end RequestBudget

/-! ## Runs -/

/-- A request that reached the network. -/
structure Attempt where
  time : Int
  generation : Nat
  cost : RequestCost
  billed : Bool
  deriving DecidableEq, Repr

/-- The budget with the reservations that are live, the requests attempted so far and the reports
published, the last ones first. -/
structure Traffic where
  budget : RequestBudget
  clock : Int
  live : List Reservation := []
  log : List Attempt := []
  published : List RequestReport := []
  deriving DecidableEq, Repr

/-- One operation.  Reservations are named by their place among the live ones. -/
inductive Operation where
  | reserve (conditional refusable wait deferred : Bool) (cost : RequestCost) (preserveClaim : Bool)
  | lease
  | attempt (i : Nat) (billed : Bool)
  | settle (i : Nat)
  | release (i : Nat)
  | tick (interval : Int)
  deriving DecidableEq, Repr

namespace Traffic

def start (started : Int) : Traffic where
  budget := newRequestBudget started
  clock := started

/-- What an operation does at an instant; `none` if the transport does not issue it here. -/
def operate (s : Traffic) (now : Int) : Operation → Option Traffic
  | .reserve conditional refusable wait deferred cost preserveClaim =>
    let a := s.budget.acquireCost now conditional refusable wait deferred cost preserveClaim
    some { s with budget := a.1, clock := now, live := s.live ++ a.2.toList }
  | .lease =>
    let a := s.budget.reserveLease now claimLeaseCosts
    some { s with budget := a.1, clock := now, live := s.live ++ a.2 }
  | .attempt i billed =>
    match s.live[i]? with
    | none => none
    | some r =>
      if r.attempted then none
      else
        let a := s.budget.markAttempted now r billed
        some { s with
          budget := a.1
          clock := now
          live := s.live.set i a.2
          log := ⟨now, s.budget.generation, r.cost, billed⟩ :: s.log }
  | .settle i =>
    match s.live[i]? with
    | none => none
    | some r =>
      if !r.attempted then none
      else some { s with
        budget := s.budget.settle now r r.billed, clock := now, live := s.live.eraseIdx i }
  | .release i =>
    match s.live[i]? with
    | none => none
    | some r =>
      if r.attempted then none
      else some { s with
        budget := s.budget.releaseUnused now r, clock := now, live := s.live.eraseIdx i }
  | .tick interval =>
    let a := s.budget.beginTick now interval
    some { s with budget := a.1, clock := now, published := a.2 :: s.published }

/-- One step under a clock that does not run back. -/
def step (s : Traffic) (e : Int × Operation) : Option Traffic :=
  if e.1 < s.clock then none else s.operate e.1 e.2

end Traffic

end Ben.Tracker
