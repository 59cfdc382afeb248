import Mathlib.Data.List.Basic
import Mathlib.Tactic.Linarith

/-!
# Fixed windows

A counter that admits at most `k` requests per window and opens the next window, when it is asked
to, no earlier than `w` after the last one was opened.  The windows do not lie on a grid: each one
starts when it is opened.  What is admitted in an interval of length `L` is still bounded by
`k * (L / w + 2)`.

Only the instants matter, so this is about the list of windows with what each admitted, the last
one first.  Nothing is asked of where the first window starts: it may have been set before the
clock was read at all.
-/

namespace Pace

open List

/-- When a window was opened, and the instants admitted in it. -/
structure Window where
  start : Int
  admitted : List Int

/-- One window after another: opened at least `w` later, when all that was admitted before had
been admitted, and admitting from then on. -/
structure Follows (w : Int) (later earlier : Window) : Prop where
  apart : earlier.start + w ≤ later.start
  past : ∀ x ∈ earlier.admitted, x ≤ later.start
  future : ∀ x ∈ later.admitted, later.start ≤ x

/-- Windows that follow each other and admit at most `k` each, the last one first. -/
structure Paced (w : Int) (k : Nat) (ws : List Window) : Prop where
  room : ∀ v ∈ ws, v.admitted.length ≤ k
  ordered : ws.Pairwise (Follows w)

/-- Everything admitted. -/
def instants (ws : List Window) : List Int := ws.flatMap Window.admitted

/-- The instants from `t` on for a time `L`. -/
def within (t : Int) (L : Nat) (x : Int) : Bool := decide (t ≤ x ∧ x ≤ t + L)

variable {w : Int} {k : Nat} {v : Window} {ws : List Window}

/-! ## Admitting and opening -/

/-- A window that has room admits another request. -/
lemma Paced.add (h : Paced w k (v :: ws)) (hroom : v.admitted.length < k) {x : Int}
    (hx : ws ≠ [] → v.start ≤ x) : Paced w k (⟨v.start, x :: v.admitted⟩ :: ws) := by
  obtain ⟨hfirst, hrest⟩ := pairwise_cons.1 h.ordered
  constructor
  · intro u hu
    obtain rfl | hu := mem_cons.1 hu
    · exact hroom
    · exact h.room u (.tail v hu)
  · refine pairwise_cons.2 ⟨fun u hu => ?_, hrest⟩
    obtain ⟨hapart, hpast, hfuture⟩ := hfirst u hu
    refine ⟨hapart, hpast, fun y hy => ?_⟩
    obtain rfl | hy := mem_cons.1 hy
    · exact hx (ne_nil_of_mem hu)
    · exact hfuture y hy

/-- The next window is opened. -/
lemma Paced.roll (hw : 0 ≤ w) (h : Paced w k (v :: ws)) {now : Int} (hnow : v.start + w ≤ now)
    (hpast : ∀ x ∈ instants (v :: ws), x ≤ now) : Paced w k (⟨now, []⟩ :: v :: ws) := by
  constructor
  · intro u hu
    obtain rfl | hu := mem_cons.1 hu
    · exact Nat.zero_le k
    · exact h.room u hu
  · refine pairwise_cons.2 ⟨fun u hu => ⟨?_, fun x hx => ?_, fun x hx => ?_⟩, h.ordered⟩
    · obtain rfl | hu := mem_cons.1 hu
      · exact hnow
      · have hapart := (rel_of_pairwise_cons h.ordered hu).apart
        change u.start + w ≤ now
        omega
    · exact hpast x (mem_flatMap.2 ⟨u, hu, hx⟩)
    · cases hx

/-! ## Counting -/

/-- The windows that admitted something in the interval start in it, the first of them apart. -/
lemma start_of_meets {t : Int} {L : Nat} {us : List Window} (hord : (v :: us).Pairwise (Follows w))
    (hmeets : ∀ u ∈ v :: us, ∃ x ∈ u.admitted, within t L x) (hne : us ≠ []) :
    t + (us.length - 1 : Int) * w ≤ v.start := by
  induction us generalizing v with
  | nil => exact absurd rfl hne
  | cons u us ih =>
    obtain ⟨hfirst, hrest⟩ := pairwise_cons.1 hord
    have hfollows := hfirst u (.head _)
    obtain rfl | hus := eq_or_ne us []
    · -- the first window admitted something at `t` or later, and `v` was opened after that
      obtain ⟨x, hx, hwithin⟩ := hmeets u (by simp)
      have hpast := hfollows.past x hx
      have htx := (of_decide_eq_true hwithin).1
      simp only [length_singleton, Nat.cast_one, sub_self, zero_mul, add_zero]
      omega
    · have hu := ih hrest (fun z hz => hmeets z (.tail v hz)) hus
      have hapart := hfollows.apart
      have hlen : ((u :: us).length - 1 : Int) = (us.length - 1 : Int) + 1 := by
        rw [length_cons]
        push_cast
        omega
      rw [hlen, add_mul, one_mul]
      omega

lemma length_le_of_meets {t : Int} {L : Nat} (hw : 0 < w) (hord : ws.Pairwise (Follows w))
    (hmeets : ∀ u ∈ ws, ∃ x ∈ u.admitted, within t L x) :
    (ws.length : Int) ≤ L / w + 2 := by
  have hdiv : 0 ≤ (L : Int) / w := Int.ediv_nonneg (Int.natCast_nonneg L) hw.le
  obtain _ | ⟨v, _ | ⟨u, us⟩⟩ := ws
  · rw [length_nil]
    omega
  · rw [length_singleton]
    omega
  · have hstart := start_of_meets hord hmeets (cons_ne_nil u us)
    obtain ⟨x, hx, hwithin⟩ := hmeets v (.head _)
    have hfuture := (rel_of_pairwise_cons hord (.head _)).future x hx
    have hle := (of_decide_eq_true hwithin).2
    -- so the starts after the first one fit into the interval
    have hfit : (us.length : Int) ≤ L / w := by
      rw [Int.le_ediv_iff_mul_le hw]
      have hlen : ((u :: us).length - 1 : Int) = us.length := by
        rw [length_cons]
        push_cast
        omega
      rw [hlen] at hstart
      omega
    rw [length_cons, length_cons]
    push_cast
    omega

lemma countP_instants_le {p : Int → Bool} (hroom : ∀ v ∈ ws, v.admitted.length ≤ k) :
    (instants ws).countP p ≤ k * (ws.filter fun v => v.admitted.any p).length := by
  induction ws with
  | nil => exact Nat.zero_le _
  | cons v ws ih =>
    have hrest := ih fun u hu => hroom u (.tail v hu)
    rw [instants, flatMap_cons, countP_append, ← instants]
    by_cases hany : v.admitted.any p
    · have hcount := countP_le_length (p := p) (l := v.admitted)
      have hv := hroom v (.head _)
      rw [filter_cons, if_pos hany, length_cons, Nat.mul_add, Nat.mul_one]
      omega
    · have hzero : v.admitted.countP p = 0 := by
        rw [countP_eq_zero]
        intro x hx hp
        exact hany (any_eq_true.2 ⟨x, hx, hp⟩)
      rw [filter_cons, if_neg hany, hzero, Nat.zero_add]
      exact hrest

/-- **Fixed windows bound every interval.** -/
theorem Paced.countP_within_le (hw : 0 < w) (h : Paced w k ws) (t : Int) (L : Nat) :
    ((instants ws).countP (within t L) : Int) ≤ k * (L / w + 2) := by
  have hcount := countP_instants_le (p := within t L) h.room
  have hlen : ((ws.filter fun v => v.admitted.any (within t L)).length : Int) ≤ L / w + 2 := by
    refine length_le_of_meets (t := t) hw (h.ordered.filter _) fun u hu => ?_
    exact any_eq_true.1 (mem_filter.1 hu).2
  calc ((instants ws).countP (within t L) : Int)
      ≤ (k : Int) * (ws.filter fun v => v.admitted.any (within t L)).length := by
        exact_mod_cast hcount
    _ ≤ k * (L / w + 2) := mul_le_mul_of_nonneg_left hlen (Int.natCast_nonneg k)

end Pace
