import Ben.Lib.Pace
import Ben.Core
import Ben.Review.Text

/-!
# The request gate of the review controller

Every request to the forge passes one gate.  It refuses while a declared backoff stands, refuses
when the sweep has spent its budget, and paces the rest with fixed windows of thirty seconds.  The
gate holds its lock for one pass of the loop in `acquire`, so a run of the gate is any sequence of
such passes and of the other operations; a caller whose pass told it to wait makes another one
later.  `observe` reads the clock before it takes the lock.
-/

namespace Ben.Reviewctl

open Review (Text txt trimSpace contains)

/-! ## What a response says -/

/-- One second of the clock. -/
def second : Int := 1000000000

/-- Requests of a window. -/
def paceRequests : Nat := 40

/-- The width of a window. -/
def paceWindow : Int := 30 * second

/-- Requests of a sweep. -/
def sweepRequestBudget : Nat := 500

/-- The backoff when a response names none. -/
def minimumBackoff : Int := 60 * second

/-- The operation a request belongs to. -/
inductive RequestClass where
  | candidates
  | issue
  | comments
  | events
  | pullRequest
  | reviews
  | diff
  | publishReview
  | unassign
  | removeLabel
  | addLabel
  | postComment
  deriving DecidableEq, Repr

/-- What the gate takes from its library: the lower case of a text, and the date of a header. -/
class Http where
  toLower : Text → Text
  parseTime : Text → Option Time

/-- A response, as far as the gate reads it: the status, three headers and the body. -/
structure Response where
  status : Nat
  retryAfter : Text := []
  rateRemaining : Text := []
  rateReset : Text := []
  body : Text := []
  deriving DecidableEq, Repr

/-- The largest unsigned machine integer. -/
def maxUint64 : Nat := 2 ^ 64 - 1

/-- Where Unix time begins. -/
def unixEpoch : Time := 62135596800 * second

/-- The whole seconds of Unix time at an instant. -/
def unix (t : Time) : Int := (t - unixEpoch) / second

/-- The last instant the diagnostics can print. -/
def latestBackoff : Time := unixEpoch + 253402300799 * second + (second - 1)

/-- Read digits onto a number already read; what does not fit is the largest number. -/
def secondsFrom : Nat → Text → Option Nat
  | out, [] => some out
  | out, b :: v =>
    if b < 48 ∨ 57 < b then none
    else
      let digit := b.toNat - 48
      if (maxUint64 - digit) / 10 < out then some maxUint64 else secondsFrom (out * 10 + digit) v

/-- A number of seconds in decimal. -/
def decimalSeconds (v : Text) : Option Nat := if v.isEmpty then none else secondsFrom 0 v

/-- The instant some seconds after `now`, cut at the last one. -/
def addRetryAfter (now : Time) (seconds : Nat) : Time :=
  if seconds ≤ (2 ^ 63 - 1) / 1000000000 then
    if latestBackoff < now + seconds * second then latestBackoff else now + seconds * second
  else if unix latestBackoff < seconds ∨ unix latestBackoff ≤ unix now ∨
      0 ≤ unix now ∧ unix latestBackoff - unix now < seconds then latestBackoff
  else unixEpoch + (unix now + seconds) * second + (now - unixEpoch) % second

/-- The backoff doubles with each failure in a row. -/
def secondaryBackoffUntil (now : Time) (failures : Nat) : Time :=
  if failures ≤ 1 then addRetryAfter now 60
  else if 64 ≤ failures - 1 ∨ maxUint64 >>> (failures - 1) < 60 then latestBackoff
  else addRetryAfter now (60 <<< (failures - 1))

namespace Response

variable (r : Response)

/-- The primary allowance is spent. -/
def rateRemainingExhausted : Bool := Decimal.readInt (trimSpace r.rateRemaining) == some 0

/-- The instant the primary allowance is restored. -/
def rateResetUntil : Option Time :=
  match decimalSeconds (trimSpace r.rateReset) with
  | none => none
  | some 0 => none
  | some epoch =>
    if unix latestBackoff ≤ epoch then some latestBackoff else some (unixEpoch + epoch * second)

variable [Http]

/-- The instant of the header that asks to retry later. -/
def retryAfterUntil (now : Time) : Option Time :=
  if (trimSpace r.retryAfter).isEmpty then none
  else
    match decimalSeconds (trimSpace r.retryAfter) with
    | some seconds => some (addRetryAfter now seconds)
    | none => Http.parseTime (trimSpace r.retryAfter)

/-- The body names a secondary limit. -/
def namesSecondaryLimit : Bool :=
  [txt "secondary rate limit", txt "secondary-rate-limits", txt "abuse-rate-limits",
    txt "abuse detection"].any fun phrase => contains (Http.toLower r.body) phrase

/-- A header asks to retry later, readable or not. -/
def hasRetryAfter : Bool := !(trimSpace r.retryAfter).isEmpty

/-- The response refuses for a secondary limit. -/
def secondaryLimited : Bool :=
  r.status == 429 || (r.status == 403 && (r.hasRetryAfter || r.namesSecondaryLimit))

/-- The response is itself a refusal for a rate limit. -/
def responseLimited : Bool :=
  r.status == 429 || (r.status == 403 &&
    (r.hasRetryAfter || r.rateRemainingExhausted || r.namesSecondaryLimit))

/-- The instant the response names, as the gate reads it. -/
def namedUntil (now : Time) : Option Time :=
  match r.retryAfterUntil now with
  | some till => some till
  | none => if r.rateRemainingExhausted then r.rateResetUntil else none

end Response

/-! ## Reading the headers -/

lemma secondsFrom_cons (out : Nat) (b v) : secondsFrom out (b :: v) =
    if 48 ≤ b ∧ b ≤ 57 then
      if (maxUint64 - (b.toNat - 48)) / 10 < out then some maxUint64
      else secondsFrom (10 * out + (b.toNat - 48)) v
    else none := by
  rw [secondsFrom, Nat.mul_comm, ← ite_not]
  simp only [not_or, UInt8.not_lt]

lemma secondsFrom_of_readFrom {v} {out n : Nat} (h : Decimal.readFrom out v = some n)
    (hout : out ≤ maxUint64) : secondsFrom out v = some (min n maxUint64) := by
  induction v generalizing out with
  | nil =>
    rw [Decimal.readFrom, Option.some.injEq] at h
    rw [secondsFrom, ← h, Nat.min_eq_left hout]
  | cons b v ih =>
    rw [Decimal.readFrom] at h
    split at h
    · next hb =>
      have hle : b.toNat - 48 ≤ 9 := Nat.sub_le_sub_right (UInt8.le_iff_toNat_le.1 hb.2) 48
      rw [secondsFrom_cons, if_pos hb]
      split
      · -- the number read so far is already too large, and it only grows
        have hgrow := Decimal.le_of_readFrom h
        rw [Nat.min_eq_right]
        omega
      · refine ih h ?_
        have h9 : 9 ≤ maxUint64 := by decide
        omega
    · cases h

lemma decimalSeconds_of_readNat {v} {n : Nat} (h : Decimal.readNat v = some n) :
    decimalSeconds v = some (min n maxUint64) := by
  rw [Decimal.readNat] at h
  rw [decimalSeconds]
  split at h
  · cases h
  · next hv =>
    rw [if_neg hv]
    exact secondsFrom_of_readFrom h (Nat.zero_le _)

/-- Only a number too large is read off a text that is no numeral. -/
lemma secondsFrom_of_no_numeral {v} {out n : Nat} (h : secondsFrom out v = some n)
    (hnone : Decimal.readFrom out v = none) : n = maxUint64 := by
  induction v generalizing out with
  | nil => cases hnone
  | cons b v ih =>
    rw [secondsFrom_cons] at h
    rw [Decimal.readFrom] at hnone
    split at h
    · next hb =>
      rw [if_pos hb] at hnone
      split at h
      · exact (Option.some.inj h).symm
      · exact ih h hnone
    · cases h

lemma le_addRetryAfter (now : Time) (seconds : Nat) :
    min (now + seconds * second) latestBackoff ≤ addRetryAfter now seconds := by
  unfold addRetryAfter
  split
  · split
    · exact min_le_right _ _
    · exact min_le_left _ _
  · split
    · exact min_le_right _ _
    · -- the seconds are added to the whole seconds, and what is left over is kept
      have hparts := Int.mul_ediv_add_emod (now - unixEpoch) second
      have hsum : unixEpoch + (unix now + seconds) * second + (now - unixEpoch) % second =
          now + seconds * second := by
        rw [unix, add_mul, mul_comm _ second]
        linarith
      rw [hsum]
      exact min_le_left _ _

lemma addRetryAfter_max (now : Time) : addRetryAfter now maxUint64 = latestBackoff := by
  rw [addRetryAfter, if_neg (by decide), if_pos]
  exact .inl (by decide)

lemma le_secondaryBackoffUntil (now : Time) (failures : Nat) :
    min now latestBackoff ≤ secondaryBackoffUntil now failures := by
  have hadd : ∀ n : Nat, min now latestBackoff ≤ addRetryAfter now n := by
    intro n
    have hpos : (0 : Int) ≤ n * second := mul_nonneg (Int.natCast_nonneg n) (by decide)
    exact (min_le_min_right _ (le_add_of_nonneg_right hpos)).trans (le_addRetryAfter now n)
  unfold secondaryBackoffUntil
  split
  · exact hadd 60
  · split
    · exact min_le_right _ _
    · exact hadd _

lemma Response.retryAfterUntil_of_seconds [Http] {r : Response} {now : Time} {n : Nat}
    (h : Decimal.readNat (trimSpace r.retryAfter) = some n) :
    r.retryAfterUntil now = some (addRetryAfter now (min n maxUint64)) := by
  have hsome : (trimSpace r.retryAfter).isEmpty = false := by
    rw [Decimal.readNat] at h
    by_contra hempty
    rw [Bool.not_eq_false] at hempty
    rw [if_pos hempty] at h
    cases h
  rw [Response.retryAfterUntil, hsome, if_neg Bool.false_ne_true, decimalSeconds_of_readNat h]

lemma Response.rateResetUntil_of_seconds {r : Response} {n : Nat}
    (h : Decimal.readNat (trimSpace r.rateReset) = some n) (hn : n ≠ 0) :
    r.rateResetUntil =
      some (if unix latestBackoff ≤ n then latestBackoff else unixEpoch + n * second) := by
  have hmax : unix latestBackoff ≤ maxUint64 := by decide
  rw [Response.rateResetUntil, decimalSeconds_of_readNat h]
  cases hmin : min n maxUint64 with
  | zero =>
    have : maxUint64 ≠ 0 := by decide
    omega
  | succ m =>
    change (if unix latestBackoff ≤ (m + 1 : Nat) then some latestBackoff
      else some (unixEpoch + (m + 1 : Nat) * second)) = _
    rw [← hmin, ← apply_ite some]
    obtain hle | hle := Nat.le_total n maxUint64
    · rw [Nat.min_eq_left hle]
    · rw [Nat.min_eq_right hle, if_pos hmax, if_pos (hmax.trans (by exact_mod_cast hle))]

/-- The digits a text begins with are a number that fits. -/
def DigitsFit (v : Text) : Prop :=
  ∃ n ≤ maxUint64, Decimal.readFrom 0 (v.takeWhile fun b => 48 ≤ b && b ≤ 57) = some n

/-- Digits that fit are read to their end, so a byte behind them that is no digit is seen. -/
lemma secondsFrom_eq_none_iff {v} {out : Nat} (h : Decimal.readFrom out v = none)
    (hout : out ≤ maxUint64) : secondsFrom out v = none ↔ ∃ n ≤ maxUint64,
      Decimal.readFrom out (v.takeWhile fun b => 48 ≤ b && b ≤ 57) = some n := by
  induction v generalizing out with
  | nil => cases h
  | cons b v ih =>
    rw [Decimal.readFrom] at h
    rw [secondsFrom_cons]
    by_cases hb : 48 ≤ b ∧ b ≤ 57
    · rw [if_pos hb] at h
      rw [if_pos hb, List.takeWhile_cons_of_pos (by simpa using hb), Decimal.readFrom, if_pos hb]
      by_cases hover : (maxUint64 - (b.toNat - 48)) / 10 < out
      · -- the number read so far is too large, and so is all that begins with it
        rw [if_pos hover]
        refine ⟨fun h => (Option.some_ne_none _ h).elim, ?_⟩
        rintro ⟨n, hn, hread⟩
        have hgrow := Decimal.le_of_readFrom hread
        omega
      · have hle : b.toNat - 48 ≤ 9 := Nat.sub_le_sub_right (UInt8.le_iff_toNat_le.1 hb.2) 48
        have h9 : 9 ≤ maxUint64 := by decide
        rw [if_neg hover]
        exact ih h (by omega)
    · rw [if_neg hb, List.takeWhile_cons_of_neg (by simpa using hb)]
      exact iff_of_true rfl ⟨out, hout, rfl⟩

lemma decimalSeconds_eq_iff (v : Text) :
    decimalSeconds v = (Decimal.readNat v).map (min · maxUint64) ↔
      (Decimal.readNat v).isSome ∨ DigitsFit v := by
  cases h : Decimal.readNat v with
  | some n => exact iff_of_true (decimalSeconds_of_readNat h) (.inl rfl)
  | none =>
    rw [Option.map_none, Option.isSome_none, DigitsFit]
    by_cases hempty : v.isEmpty
    · rw [decimalSeconds, if_pos hempty, List.isEmpty_iff.1 hempty]
      exact iff_of_true rfl (.inr ⟨0, Nat.zero_le _, rfl⟩)
    · rw [Decimal.readNat, if_neg hempty] at h
      rw [decimalSeconds, if_neg hempty, secondsFrom_eq_none_iff h (Nat.zero_le _)]
      simp

/-- The seconds are no more than Unix time has at the last instant, or they do lead there. -/
def Reaches (now : Time) (n : Nat) : Prop :=
  n ≤ unix latestBackoff ∨ latestBackoff ≤ now + n * second

lemma addRetryAfter_eq_iff (now : Time) (n : Nat) :
    addRetryAfter now n = min (now + n * second) latestBackoff ↔ Reaches now n := by
  simp only [Reaches, addRetryAfter, Time, unix, latestBackoff, unixEpoch, second, min_def]
  split_ifs <;> omega

/-- More seconds than a machine integer holds are cut like the largest number it holds. -/
lemma reaches_min_iff {now : Time} {n : Nat} (hn : maxUint64 ≤ n) :
    latestBackoff = min (now + n * second) latestBackoff ↔ Reaches now n := by
  simp only [Reaches, Time, maxUint64, unix, latestBackoff, unixEpoch, second, min_def] at hn ⊢
  split_ifs <;> omega

lemma secondaryBackoffUntil_eq_iff (now : Time) (failures : Nat) :
    secondaryBackoffUntil now failures =
        min (now + (60 * 2 ^ (failures - 1) : Nat) * second) latestBackoff ↔
      Reaches now (60 * 2 ^ (failures - 1)) := by
  rw [secondaryBackoffUntil]
  split_ifs with hfew hmany
  · rw [Nat.sub_eq_zero_of_le hfew, pow_zero, mul_one, addRetryAfter_eq_iff]
  · apply reaches_min_iff
    obtain hmany | hmany := hmany
    · have := Nat.pow_le_pow_right (n := 2) (by decide) hmany
      rw [maxUint64]
      omega
    · rw [Nat.shiftRight_eq_div_pow, Nat.div_lt_iff_lt_mul (by positivity)] at hmany
      exact hmany.le
  · rw [Nat.shiftLeft_eq, addRetryAfter_eq_iff]

/-- **When the headers are read and the instants are exact.**  A text is read as the numeral it is,
or refused as none, just if it is a numeral or the digits it begins with fit.  The instant after a
number of seconds, from a header or from failures in a row, is the exact one up to the last, just if
the seconds do not pass Unix time while the instant does not reach the last.  The instant of a reset
is, just if it is not the last second. -/
theorem backoff_exact [Http] (now : Time) (r : Response) (v : Text) (failures : Nat) :
    (decimalSeconds v = (Decimal.readNat v).map (min · maxUint64) ↔
      (Decimal.readNat v).isSome ∨ DigitsFit v) ∧
    (∀ n, Decimal.readNat (trimSpace r.retryAfter) = some n →
      (r.retryAfterUntil now = some (min (now + n * second) latestBackoff) ↔ Reaches now n)) ∧
    (∀ n, Decimal.readNat (trimSpace r.rateReset) = some n → n ≠ 0 →
      (r.rateResetUntil = some (min (unixEpoch + n * second) latestBackoff) ↔
        (n : Int) ≠ unix latestBackoff)) ∧
    (secondaryBackoffUntil now failures =
        min (now + (60 * 2 ^ (failures - 1) : Nat) * second) latestBackoff ↔
      Reaches now (60 * 2 ^ (failures - 1))) := by
  refine ⟨decimalSeconds_eq_iff v, fun n h => ?_, fun n h hn => ?_,
    secondaryBackoffUntil_eq_iff now failures⟩
  · rw [Response.retryAfterUntil_of_seconds h, Option.some.injEq]
    obtain hle | hle := Nat.le_total n maxUint64
    · rw [Nat.min_eq_left hle]
      exact addRetryAfter_eq_iff now n
    · rw [Nat.min_eq_right hle, addRetryAfter_max]
      exact reaches_min_iff hle
  · rw [Response.rateResetUntil_of_seconds h hn, min_def, Option.some.injEq]
    simp only [Time, unix, latestBackoff, unixEpoch, second]
    split_ifs <;> omega

/-- From the beginning of Unix time on, every instant is exact. -/
lemma reaches_of_unix {now : Time} (hnow : 0 ≤ unix now) (n : Nat) : Reaches now n := by
  simp only [Reaches, Time, unix, latestBackoff, unixEpoch, second] at hnow ⊢
  omega

theorem backoff_exact_sixty :
    decimalSeconds (txt "99999999999999999999") = some maxUint64 ∧
    secondaryBackoffUntil unixEpoch 3 = unixEpoch + 240 * second := by
  have h := @backoff_exact ⟨id, fun _ => none⟩ unixEpoch { status := 429 }
    (txt "99999999999999999999") 3
  exact ⟨h.1.2 (.inl (by decide)),
    (h.2.2.2.2 (reaches_of_unix (by decide) _)).trans (by decide)⟩

/-- A text that is no numeral is read as one when its digits are too many; seconds past the last
instant are cut there even from a clock long before it; and a reset at the last second is put off to
the end of that second. -/
theorem decimalSeconds_reads_no_numeral :
    (decimalSeconds (txt "99999999999999999999x") = some maxUint64 ∧
      Decimal.readNat (txt "99999999999999999999x") = none) ∧
    (addRetryAfter 0 253402300800 = latestBackoff ∧
      (0 : Time) + 253402300800 * second < latestBackoff) ∧
    (Response.rateResetUntil { status := 200, rateReset := txt "253402300799" } =
        some latestBackoff ∧
      unixEpoch + 253402300799 * second < latestBackoff) := by
  decide

/-! ## The gate -/

/-- The state of the gate. -/
structure Gate where
  windowStart : Time := 0
  usedInWindow : Nat := 0
  blockedUntil : Time := 0
  sweepUsed : Nat := 0
  sweepBudget : Nat
  secondaryFailures : RequestClass → Nat := fun _ => 0

/-- A gate nothing has passed. -/
def newGate : Gate := { sweepBudget := sweepRequestBudget }

/-- What one pass of the loop in `acquire` ends with. -/
inductive Answer where
  | admitted
  | rateLimited (till : Time)
  | sweepSpent (budget : Nat)
  | wait (duration : Int)
  deriving DecidableEq, Repr

namespace Gate

variable (g : Gate)

/-- The window at `now`: the one that stands, or a new one. -/
def window (now : Time) : Time × Nat :=
  if paceWindow ≤ now - g.windowStart then (now, 0) else (g.windowStart, g.usedInWindow)

/-- One pass of the loop. -/
def acquire (now : Time) : Gate × Answer :=
  if now < g.blockedUntil then (g, .rateLimited g.blockedUntil)
  else if g.sweepBudget ≤ g.sweepUsed then (g, .sweepSpent g.sweepBudget)
  else if (g.window now).2 < paceRequests then
    ({ g with
        windowStart := (g.window now).1
        usedInWindow := (g.window now).2 + 1
        sweepUsed := g.sweepUsed + 1 }, .admitted)
  else
    ({ g with windowStart := (g.window now).1, usedInWindow := (g.window now).2 },
      .wait ((g.window now).1 + paceWindow - now))

/-- The failures of an operation after one more. -/
def countFailure (class_ : RequestClass) : RequestClass → Nat := fun c =>
  if c = class_ ∧ g.secondaryFailures c < maxUint64 then g.secondaryFailures c + 1
  else g.secondaryFailures c

variable [Http]

/-- The failures of each operation after a response. -/
def failuresAfter (class_ : RequestClass) (r : Response) : RequestClass → Nat :=
  if r.secondaryLimited then g.countFailure class_ else g.secondaryFailures

/-- The instant a limit response closes the gate until. -/
def closesUntil (now : Time) (class_ : RequestClass) (r : Response) : Time :=
  match r.namedUntil now with
  | some till => if now < till then till else fallback
  | none => fallback
where
  fallback : Time :=
    if r.secondaryLimited then secondaryBackoffUntil now (g.failuresAfter class_ r class_)
    else now + minimumBackoff

/-- Read the signals of a response, and whether it is itself a refusal. -/
def observe (now : Time) (class_ : RequestClass) (r : Response) : Gate × Bool :=
  if !r.responseLimited && !r.rateRemainingExhausted then (g, false)
  else
    ({ g with
        secondaryFailures := g.failuresAfter class_ r
        blockedUntil :=
          if g.blockedUntil < g.closesUntil now class_ r then g.closesUntil now class_ r
          else g.blockedUntil }, r.responseLimited)

omit [Http] in
/-- A success of an operation clears its failures. -/
def succeed (class_ : RequestClass) : Gate :=
  { g with secondaryFailures := fun c => if c = class_ then 0 else g.secondaryFailures c }

omit [Http] in
/-- The budget of a sweep is opened again. -/
def beginSweep : Gate := { g with sweepUsed := 0 }

end Gate

/-! ## Runs -/

/-- One operation under the lock.  The instant of `acquire` is read there; the one of `observe` was
read before. -/
inductive Call where
  | acquire (now : Time)
  | observe (now : Time) (class_ : RequestClass) (r : Response)
  | succeed (class_ : RequestClass)
  | beginSweep
  deriving DecidableEq, Repr

/-- The instant read under the lock. -/
def Call.instant : Call → Option Time
  | .acquire now => some now
  | _ => none

/-- The clock read under the lock does not run back. -/
def ClockGrows (calls : List Call) : Prop := (calls.filterMap Call.instant).Pairwise (· ≤ ·)

instance (calls : List Call) : Decidable (ClockGrows calls) :=
  inferInstanceAs (Decidable (List.Pairwise _ _))

variable [Http]

namespace Gate

/-- The gate after an operation. -/
def step (g : Gate) : Call → Gate
  | .acquire now => (g.acquire now).1
  | .observe now class_ r => (g.observe now class_ r).1
  | .succeed class_ => g.succeed class_
  | .beginSweep => g.beginSweep

/-- The instant an operation admits a request at, if it does. -/
def admits (g : Gate) : Call → List Time
  | .acquire now => if (g.acquire now).2 = .admitted then [now] else []
  | _ => []

/-- The gate after a run. -/
def run (g : Gate) (calls : List Call) : Gate := calls.foldl step g

/-- The instants a run admits requests at, in order. -/
def admitted (g : Gate) : List Call → List Time
  | [] => []
  | c :: calls => g.admits c ++ (g.step c).admitted calls

end Gate

/-- The instant a response asks to wait for: the one of the header that asks to retry later, counted
from `now` or given as a date; without such a header, and when the primary allowance is spent, the
one at which it is restored. -/
inductive Asks (now : Time) (r : Response) : Time → Prop
  | seconds {n : Nat} (h : Decimal.readNat (trimSpace r.retryAfter) = some n) :
    Asks now r (now + n * second)
  | date {till : Time} (hnumber : Decimal.readNat (trimSpace r.retryAfter) = none)
    (h : Http.parseTime (trimSpace r.retryAfter) = some till)
    (hsome : trimSpace r.retryAfter ≠ []) : Asks now r till
  | reset {n : Nat} (hnumber : Decimal.readNat (trimSpace r.retryAfter) = none)
    (hdate : trimSpace r.retryAfter = [] ∨ Http.parseTime (trimSpace r.retryAfter) = none)
    (hspent : r.rateRemainingExhausted = true) (hn : n ≠ 0)
    (h : Decimal.readNat (trimSpace r.rateReset) = some n) : Asks now r (unixEpoch + n * second)

/-! ## Closing the gate -/

namespace Response

variable {r : Response} {now u : Time}

/-- A header that is no numeral is read as a date, unless its digits are too many. -/
lemma retryAfterUntil_of_no_numeral (now : Time) (hsome : trimSpace r.retryAfter ≠ [])
    (hnumber : Decimal.readNat (trimSpace r.retryAfter) = none) :
    r.retryAfterUntil now = Http.parseTime (trimSpace r.retryAfter) ∨
      r.retryAfterUntil now = some latestBackoff := by
  have hne : (trimSpace r.retryAfter).isEmpty = false := by
    rw [List.isEmpty_eq_false_iff]
    exact hsome
  rw [retryAfterUntil, decimalSeconds, hne, if_neg Bool.false_ne_true, if_neg Bool.false_ne_true]
  rw [Decimal.readNat, hne, if_neg Bool.false_ne_true] at hnumber
  cases hseconds : secondsFrom 0 (trimSpace r.retryAfter) with
  | none => exact .inl rfl
  | some n =>
    obtain rfl := secondsFrom_of_no_numeral hseconds hnumber
    exact .inr (congrArg some (addRetryAfter_max now))

/-- The instant the response asks for is no later than the one the gate reads off it. -/
lemma namedUntil_of_asks (hasks : Asks now r u) :
    ∃ till, r.namedUntil now = some till ∧ min u latestBackoff ≤ till := by
  cases hasks with
  | @seconds n h =>
    refine ⟨addRetryAfter now (min n maxUint64), ?_, ?_⟩
    · rw [namedUntil, retryAfterUntil_of_seconds h]
    · obtain hle | hlt := Nat.le_total n maxUint64
      · rw [Nat.min_eq_left hle]
        exact le_addRetryAfter now n
      · rw [Nat.min_eq_right hlt, addRetryAfter_max]
        exact min_le_right _ _
  | date hnumber h hsome =>
    obtain hretry | hretry := retryAfterUntil_of_no_numeral now hsome hnumber
    · refine ⟨u, ?_, min_le_left _ _⟩
      rw [namedUntil, hretry, h]
    · refine ⟨latestBackoff, ?_, min_le_right _ _⟩
      rw [namedUntil, hretry]
  | @reset n hnumber hdate hspent hn h =>
    have hretry : r.retryAfterUntil now = none ∨ r.retryAfterUntil now = some latestBackoff := by
      by_cases hempty : trimSpace r.retryAfter = []
      · left
        rw [retryAfterUntil, hempty]
        rfl
      · rw [← hdate.resolve_left hempty]
        exact retryAfterUntil_of_no_numeral now hempty hnumber
    obtain hretry | hretry := hretry
    · rw [namedUntil, hretry]
      simp only [hspent, if_true]
      refine ⟨_, rateResetUntil_of_seconds h hn, ?_⟩
      split
      · exact min_le_right _ _
      · exact min_le_left _ _
    · refine ⟨latestBackoff, ?_, min_le_right _ _⟩
      rw [namedUntil, hretry]

end Response

namespace Gate

variable {g : Gate} {now u : Time} {class_ : RequestClass} {r : Response}

lemma le_closesUntil (hasks : Asks now r u) :
    min u latestBackoff ≤ g.closesUntil now class_ r := by
  obtain ⟨till, hnamed, hle⟩ := Response.namedUntil_of_asks hasks
  have hfall : min now latestBackoff ≤ closesUntil.fallback g now class_ r := by
    unfold closesUntil.fallback
    split
    · exact le_secondaryBackoffUntil now _
    · have hpos : (0 : Int) ≤ minimumBackoff := by decide
      exact (min_le_left _ _).trans (le_add_of_nonneg_right hpos)
  unfold closesUntil
  simp only [hnamed]
  split
  · exact hle
  · next hpast => exact (le_min (hle.trans (not_lt.1 hpast)) (min_le_right _ _)).trans hfall

/-- A limit response closes the gate at least until the instant it asks for. -/
lemma le_blockedUntil_observe (hlimit : r.responseLimited ∨ r.rateRemainingExhausted)
    (hasks : Asks now r u) :
    min u latestBackoff ≤ (g.observe now class_ r).1.blockedUntil := by
  have hcloses : min u latestBackoff ≤ g.closesUntil now class_ r := le_closesUntil hasks
  have hread : (!r.responseLimited && !r.rateRemainingExhausted) = false := by
    obtain h | h := hlimit
    · rw [h, Bool.not_true, Bool.false_and]
    · rw [h, Bool.not_true, Bool.and_false]
  rw [observe, hread, if_neg Bool.false_ne_true]
  change _ ≤ if _ then _ else _
  split
  · exact hcloses
  · next hkept => exact hcloses.trans (not_lt.1 hkept)

end Gate

end Ben.Reviewctl
