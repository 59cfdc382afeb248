import Mathlib.Algebra.Order.Ring.Int

/-!
# How long a retry waits

The delay before an attempt is run again doubles with every attempt, up to a configured maximum.
Durations are nanoseconds in 64 bits.
-/

namespace Ben

/-- The numbers of a configuration that have to be positive. -/
structure Positives where
  (pollingIntervalMS hooksTimeoutMS maxConcurrentAgents maxTurns maxAttempts maxRetryBackoffMS
    stallTimeoutMS attemptTimeoutMS maxPromptBytes : Int)

/-- The field that is refused first, if one is not positive. -/
def Positives.validate (c : Positives) : Except String Unit :=
  match [("polling.interval_ms", c.pollingIntervalMS), ("hooks.timeout_ms", c.hooksTimeoutMS),
      ("limits.max_concurrent_agents", c.maxConcurrentAgents), ("limits.max_turns", c.maxTurns),
      ("limits.max_attempts", c.maxAttempts), ("limits.max_retry_backoff_ms", c.maxRetryBackoffMS),
      ("limits.stall_timeout_ms", c.stallTimeoutMS),
      ("limits.attempt_timeout_ms", c.attemptTimeoutMS),
      ("limits.max_prompt_bytes", c.maxPromptBytes)].find? (·.2 ≤ 0) with
  | some p => .error p.1
  | none => .ok ()

def baseBackoff : Int := 10 ^ 10

/-- The doubling loop, with the rounds that are left. -/
def doubled (max : Int) : Nat → Int → Int
  | 0, delay => delay
  | n + 1, delay =>
    let delay := (delay * 2).bmod (2 ^ 64)
    if max ≤ delay then max else doubled max n delay

/-- The delay of an attempt before it is spread. -/
def backoffDelay (attempt max : Int) : Int :=
  let delay := doubled max (attempt.toNat - 1) baseBackoff
  if max < delay then max else delay

/-- The maximum as the retries are given it. -/
def Positives.maxBackoff (c : Positives) : Int := (c.maxRetryBackoffMS * 10 ^ 6).bmod (2 ^ 64)

lemma bmod_of_nonneg {x : Int} (h0 : 0 ≤ x) (h : x < 2 ^ 63) : x.bmod (2 ^ 64) = x := by
  simp only [Int.bmod]
  omega

/-- The first twenty-nine rounds do not wrap. -/
lemma bmod_double {k : Nat} (hk : k < 29) :
    (baseBackoff * 2 ^ k * 2).bmod (2 ^ 64) = baseBackoff * 2 ^ (k + 1) := by
  have hpow : (2 : Int) ^ (k + 1) ≤ 2 ^ 29 := pow_le_pow_right₀ (by decide) hk
  have hpos := pow_pos (a := (2 : Int)) (by decide) (k + 1)
  rw [mul_assoc, ← pow_succ]
  apply bmod_of_nonneg <;> simp only [baseBackoff] <;> omega

/-- After `k` rounds the delay is the base times two to the `k`, and the loop goes on only below
the maximum. -/
lemma min_doubled (max : Int) (n k : Nat)
    (hk : k = 0 ∨ baseBackoff * 2 ^ k < max) (hfit : max ≤ baseBackoff * 2 ^ 29) :
    min (doubled max n (baseBackoff * 2 ^ k)) max = min (baseBackoff * 2 ^ (k + n)) max := by
  induction n generalizing k with
  | zero => rfl
  | succ n ih =>
    have hlt : k < 29 := by
      rcases hk with rfl | hk
      · omega
      · have := lt_of_mul_lt_mul_left (hk.trans_le hfit) (by decide)
        exact (pow_lt_pow_iff_right₀ (by decide)).1 this
    simp only [doubled, bmod_double hlt]
    split
    · rename_i hle
      rw [min_self, min_eq_right (hle.trans _)]
      exact mul_le_mul_of_nonneg_left (pow_le_pow_right₀ (by decide) (by omega)) (by decide)
    · rw [ih (k + 1) (.inr (by omega)), Nat.add_right_comm, Nat.add_assoc]

lemma backoffDelay_eq (attempt max : Int) (hfit : max ≤ baseBackoff * 2 ^ 29) :
    backoffDelay attempt max = min (baseBackoff * 2 ^ (attempt.toNat - 1)) max := by
  have hloop := min_doubled max (attempt.toNat - 1) 0 (.inl rfl) hfit
  simp only [pow_zero, mul_one, Nat.zero_add] at hloop
  simp only [backoffDelay]
  omega

/-- Below a larger maximum the loop reaches the thirtieth round, which wraps. -/
lemma doubled_of_lt {max : Int} (hmax : baseBackoff * 2 ^ 29 < max) (n k : Nat) (hk : k + n = 29) :
    doubled max (n + 1) (baseBackoff * 2 ^ k) = -7709325833709551616 := by
  induction n generalizing k with
  | zero =>
    obtain rfl : k = 29 := hk
    have hwraps : (baseBackoff * 2 ^ 29 * 2).bmod (2 ^ 64) = -7709325833709551616 := by decide
    simp only [baseBackoff] at hmax
    rw [doubled, hwraps, if_neg (by omega), doubled]
  | succ n ih =>
    have hle : baseBackoff * 2 ^ (k + 1) ≤ baseBackoff * 2 ^ 29 :=
      mul_le_mul_of_nonneg_left (pow_le_pow_right₀ (by decide) (by omega)) (by decide)
    rw [doubled, bmod_double (by omega), if_neg (by omega), ih (k + 1) (by omega)]

lemma backoffDelay_of_lt {max : Int} (hmax : baseBackoff * 2 ^ 29 < max) :
    backoffDelay 31 max < 0 := by
  have hdelay : doubled max ((31 : Int).toNat - 1) baseBackoff = -7709325833709551616 :=
    doubled_of_lt hmax 29 0 rfl
  simp only [backoffDelay, hdelay]
  omega

lemma Positives.maxRetryBackoffMS_pos {c : Positives} (hok : c.validate = .ok ()) :
    0 < c.maxRetryBackoffMS := by
  unfold validate at hok
  split at hok
  · cases hok
  · rename_i hnone
    simp at hnone
    exact hnone.2.2.2.2.2.1

/-- For every attempt the delay is the exact power of two up to the maximum, and it does not fall
from one attempt to a later one, just if the configured maximum is at most 170 years. -/
theorem backoffDelay_exact (c : Positives) (hok : c.validate = .ok ()) :
    ((∀ a, backoffDelay a c.maxBackoff =
        min (10 ^ 10 * 2 ^ (a.toNat - 1)) (c.maxRetryBackoffMS * 10 ^ 6)) ∧
      ∀ a b, a ≤ b → backoffDelay a c.maxBackoff ≤ backoffDelay b c.maxBackoff) ↔
    c.maxRetryBackoffMS ≤ 5368709120000 := by
  have hpos := Positives.maxRetryBackoffMS_pos hok
  constructor
  · rintro ⟨hexact, -⟩
    by_contra hlt
    have h31 : _ = min (10 ^ 10 * 2 ^ 30) (c.maxRetryBackoffMS * 10 ^ 6) := hexact 31
    have hle : backoffDelay 31 c.maxBackoff ≤ c.maxBackoff := by
      simp only [backoffDelay]
      omega
    -- a maximum over 64 bits is cut when it becomes a duration, any other lets the loop wrap
    rcases lt_or_ge (c.maxRetryBackoffMS * 10 ^ 6) (2 ^ 63) with hsmall | hbig
    · have hmax : c.maxBackoff = c.maxRetryBackoffMS * 10 ^ 6 := bmod_of_nonneg (by omega) hsmall
      have hneg : backoffDelay 31 c.maxBackoff < 0 :=
        backoffDelay_of_lt (by simp only [hmax, baseBackoff]; omega)
      omega
    · have : c.maxBackoff < 2 ^ 63 := by
        simp only [Positives.maxBackoff, Int.bmod]
        omega
      omega
  · intro hfit
    have hmax : c.maxBackoff = c.maxRetryBackoffMS * 10 ^ 6 := bmod_of_nonneg (by omega) (by omega)
    have heq (x : Int) := backoffDelay_eq x (c.maxRetryBackoffMS * 10 ^ 6)
      (by simp only [baseBackoff]; omega)
    rw [hmax]
    refine ⟨heq, fun a b hab => ?_⟩
    rw [heq a, heq b]
    apply min_le_min_right _ (mul_le_mul_of_nonneg_left _ (by decide))
    exact pow_le_pow_right₀ (by decide) (by omega)

/-- A configuration whose retries wait at most `ms`. -/
def Positives.ofBackoff (ms : Int) : Positives := ⟨30000, 60000, 10, 20, 3, ms, 1, 1, 1⟩

theorem backoffDelay_exact_default :
    backoffDelay 4 (Positives.ofBackoff 300000).maxBackoff =
      min (10 ^ 10 * 2 ^ 3) (300000 * 10 ^ 6) :=
  ((backoffDelay_exact (.ofBackoff 300000) rfl).2 (by decide)).1 4

/-- Above the bound the doubling wraps and attempt 31 has a negative delay. -/
theorem backoffDelay_wraps : (Positives.ofBackoff 5368709120001).validate = .ok () ∧
    backoffDelay 31 (Positives.ofBackoff 5368709120001).maxBackoff = -7709325833709551616 := by
  decide

end Ben
