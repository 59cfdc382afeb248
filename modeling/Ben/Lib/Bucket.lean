import Mathlib.Tactic.Linarith
import Mathlib.Tactic.Ring
import Mathlib.Algebra.BigOperators.Group.List.Basic
import Ben.Lib.Runs

/-!
# Token buckets with held credits

A bucket has credits, which refill at a rate up to a capacity, and held credits, which are promised
to something not done yet and take their room in the bucket.  The level is the sum of the two.
Promising moves credits to the held ones and giving a promise back moves them the other way; only
spending lowers the level, and only time raises it, to the capacity at most.

So what is spent in a run is bounded by the level at its beginning and by the time it takes.  The
rule for runs asks only that every step loses from the level what it spends.
-/

/-- A bucket of credits. -/
structure Bucket where
  credits : Int
  held : Int
  deriving DecidableEq, Repr

namespace Bucket

variable (b : Bucket) (capacity rate c : Int)

/-- What is in the bucket, with what is promised out of it. -/
def level : Int := b.credits + b.held

/-- Refill for the time that has passed.  The time to fill up is compared first, so that the product
with the rate stays small. -/
def refill (elapsed : Int) : Bucket :=
  if elapsed ≤ 0 then b
  else
    let missing := capacity - b.held - b.credits
    if missing ≤ 0 then { b with credits := capacity - b.held }
    else if (missing + rate - 1) / rate ≤ elapsed then { b with credits := capacity - b.held }
    else { b with credits := b.credits + elapsed * rate }

/-- Promise some credits. -/
def hold : Bucket := { credits := b.credits - c, held := b.held + c }

/-- Spend promised credits. -/
def spend : Bucket := { b with held := b.held - c }

/-- Put credits back, up to the capacity. -/
def refund : Bucket :=
  { b with credits := if capacity - b.held < b.credits + c then capacity - b.held
                      else b.credits + c }

variable {b capacity rate c}

@[simp] lemma hold_held : (b.hold c).held = b.held + c := rfl

@[simp] lemma spend_held : (b.spend c).held = b.held - c := rfl

@[simp] lemma refund_held : (b.refund capacity c).held = b.held := rfl

@[simp] lemma level_hold : (b.hold c).level = b.level := by
  simp only [level, hold]
  omega

@[simp] lemma level_spend : (b.spend c).level = b.level - c := by
  simp only [level, spend]
  omega

lemma level_refund : (b.refund capacity c).level = min capacity (b.level + c) := by
  simp only [level, refund]
  split
  · omega
  · omega

@[simp] lemma refill_held (elapsed : Int) : (b.refill capacity rate elapsed).held = b.held := by
  unfold refill
  dsimp only
  split_ifs
  · rfl
  · rfl
  · rfl
  · rfl

/-- Refilling is linear in time, up to the capacity. -/
lemma level_refill (hrate : 0 < rate) (hb : b.level ≤ capacity) {elapsed : Int}
    (helapsed : 0 ≤ elapsed) :
    (b.refill capacity rate elapsed).level = min capacity (b.level + elapsed * rate) := by
  unfold refill
  rw [level] at hb
  split
  · next hle =>
    obtain rfl : elapsed = 0 := le_antisymm hle helapsed
    rw [zero_mul, add_zero, level, min_eq_right hb]
  · have hpos : 0 ≤ elapsed * rate := mul_nonneg helapsed hrate.le
    dsimp only
    split
    · simp only [level]
      omega
    · split
      · next hfull =>
        -- the time is long enough to fill the bucket
        have hmissing : capacity - b.held - b.credits ≤ elapsed * rate := by
          rw [Int.ediv_le_iff_le_mul hrate] at hfull
          omega
        simp only [level]
        omega
      · next hfull =>
        have hmissing : elapsed * rate ≤ capacity - b.held - b.credits := by
          rw [not_le, ← Int.add_one_le_iff, Int.le_ediv_iff_mul_le hrate, add_mul, one_mul] at hfull
          omega
        simp only [level]
        omega

end Bucket

/-! ## Runs that spend -/

namespace Runs

variable {σ ι : Type*} {step : σ → ι → Option σ} {P : σ → Prop} {level top clock : σ → Int}
  {rate : Int}

/-- If every step raises a level by at most a rate for the time it takes, so does every run. -/
theorem rise_le (hP : ∀ s i s', P s → step s i = some s' → P s')
    (hstep : ∀ s i s', P s → step s i = some s' →
      level s' ≤ level s + rate * (clock s' - clock s)) :
    ∀ {s : σ} {is : List ι} {s' : σ}, P s → run step s is = some s' →
      level s' ≤ level s + rate * (clock s' - clock s)
  | s, [], s', _, hrun => by
    rw [run, Option.some.injEq] at hrun
    subst hrun
    rw [sub_self, mul_zero, add_zero]
  | s, i :: is, s', hs, hrun => by
    rw [run, Option.bind_eq_some_iff] at hrun
    obtain ⟨s1, hs1, hrun⟩ := hrun
    have hfirst := hstep s i s1 hs hs1
    have hrest := rise_le hP hstep (hP s i s1 hs hs1) hrun
    have hclock : rate * (clock s' - clock s) =
        rate * (clock s1 - clock s) + rate * (clock s' - clock s1) := by ring
    omega

/-- If also no step passes a top that the level had below it, then a run within an interval of time
passes it by the rate for the interval, however long nothing happened before. -/
theorem rise_le_within {time : ι → Int} (hP : ∀ s i s', P s → step s i = some s' → P s')
    (hstep : ∀ s i s', P s → step s i = some s' →
      level s' ≤ level s + rate * (clock s' - clock s))
    (htop : ∀ s i s', P s → step s i = some s' → level s' ≤ top s)
    (hclock : ∀ s i s', step s i = some s' → clock s' = time i) (hrate : 0 ≤ rate) {lo hi : Int}
    {s s' : σ} {is : List ι} (hs : P s) (hlevel : level s ≤ top s) (hle : lo ≤ hi)
    (hrun : run step s is = some s') (hin : ∀ i ∈ is, lo ≤ time i ∧ time i ≤ hi) :
    level s' ≤ top s + rate * (hi - lo) := by
  have hspan : ∀ x y, lo ≤ x → y ≤ hi → rate * (y - x) ≤ rate * (hi - lo) := fun x y hx hy =>
    mul_le_mul_of_nonneg_left (by omega) hrate
  cases is with
  | nil =>
    rw [run, Option.some.injEq] at hrun
    subst hrun
    have := mul_nonneg hrate (sub_nonneg.2 hle)
    omega
  | cons i is =>
    rw [run, Option.bind_eq_some_iff] at hrun
    obtain ⟨s1, hs1, hrun⟩ := hrun
    have hrest := rise_le hP hstep (hP s i s1 hs hs1) hrun
    have hend : clock s' ≤ hi := by
      -- the clock shows the time of the last input
      obtain rfl | ⟨js, j, rfl⟩ := List.eq_nil_or_concat is
      · rw [run, Option.some.injEq] at hrun
        rw [← hrun, hclock s i s1 hs1]
        exact (hin i (.head _)).2
      · rw [List.concat_eq_append, run_append, Option.bind_eq_some_iff] at hrun
        obtain ⟨s2, -, hrun⟩ := hrun
        rw [run, Option.bind_eq_some_iff] at hrun
        obtain ⟨s3, hs3, hrun⟩ := hrun
        rw [run, Option.some.injEq] at hrun
        rw [← hrun, hclock s2 j s3 hs3]
        refine (hin j (.tail i ?_)).2
        rw [List.concat_eq_append]
        exact List.mem_append_right js (.head _)
    have hfrom : lo ≤ clock s1 := by
      rw [hclock s i s1 hs1]
      exact (hin i (.head _)).1
    have hmax := hspan (clock s1) (clock s') hfrom hend
    have hcap := htop s i s1 hs hs1
    omega

end Runs
