import Ben.Reviewctl.Gate

/-!
# What the gate admits

Three counters decide about a request: the backoff, the budget of the sweep and the window.  Each
is followed through a run by itself.  The backoff never moves to an earlier instant, so a request
that is admitted is admitted after all the instants it stood at before.  The budget of the sweep is
the number of requests admitted since it was opened.  The windows are those of the library, which
bounds what they admit in any interval.
-/

namespace Ben.Reviewctl

open List
open Review (txt)
open Pace (Window Paced instants within)

section Runs

variable [Http]

namespace Gate

variable {g : Gate} {now x : Time}

/-! ## One pass -/

section

omit [Http]

/-- What one pass of `acquire` can do: refuse, tell the caller to wait, or admit. -/
lemma acquire_cases (g : Gate) (now : Time) :
    ((g.acquire now).1 = g ∧ (g.acquire now).2 ≠ .admitted) ∨
    ((g.acquire now).1 =
        { g with windowStart := (g.window now).1, usedInWindow := (g.window now).2 } ∧
      (g.acquire now).2 ≠ .admitted) ∨
    (g.acquire now = ({ g with
        windowStart := (g.window now).1
        usedInWindow := (g.window now).2 + 1
        sweepUsed := g.sweepUsed + 1 }, .admitted) ∧
      g.blockedUntil ≤ now ∧ g.sweepUsed < g.sweepBudget ∧ (g.window now).2 < paceRequests) := by
  unfold acquire
  by_cases hblocked : now < g.blockedUntil
  · rw [if_pos hblocked]
    exact .inl ⟨rfl, Answer.noConfusion⟩
  by_cases hspent : g.sweepBudget ≤ g.sweepUsed
  · rw [if_neg hblocked, if_pos hspent]
    exact .inl ⟨rfl, Answer.noConfusion⟩
  rw [if_neg hblocked, if_neg hspent]
  by_cases hroom : (g.window now).2 < paceRequests
  · rw [if_pos hroom]
    exact .inr (.inr ⟨rfl, not_lt.1 hblocked, not_le.1 hspent, hroom⟩)
  · rw [if_neg hroom]
    exact .inr (.inl ⟨rfl, Answer.noConfusion⟩)

lemma admits_acquire_of_ne (h : (g.acquire now).2 ≠ .admitted) : g.admits (.acquire now) = [] :=
  if_neg h

lemma admits_acquire_of_eq (h : (g.acquire now).2 = .admitted) : g.admits (.acquire now) = [now] :=
  if_pos h

end

/-! ## The backoff -/

lemma blockedUntil_le_step (g : Gate) (c) : g.blockedUntil ≤ (g.step c).blockedUntil := by
  cases c with
  | acquire now =>
    obtain ⟨heq, -⟩ | ⟨heq, -⟩ | ⟨heq, -⟩ := g.acquire_cases now
    all_goals
      rw [step, heq]
  | observe now class_ r =>
    rw [step, observe]
    split
    · exact le_rfl
    · change _ ≤ if _ then _ else _
      split
      · next hlater => exact hlater.le
      · exact le_rfl
  | succeed class_ => exact le_rfl
  | beginSweep => exact le_rfl

lemma blockedUntil_le_run (g : Gate) (calls) : g.blockedUntil ≤ (g.run calls).blockedUntil := by
  induction calls generalizing g with
  | nil => exact le_rfl
  | cons c calls ih => exact (g.blockedUntil_le_step c).trans (ih (g.step c))

omit [Http] in
lemma blockedUntil_le_of_admits {c} (h : x ∈ g.admits c) : g.blockedUntil ≤ x := by
  cases c with
  | acquire now =>
    obtain ⟨-, hne⟩ | ⟨-, hne⟩ | ⟨heq, hopen, -⟩ := g.acquire_cases now
    · rw [admits_acquire_of_ne hne] at h
      cases h
    · rw [admits_acquire_of_ne hne] at h
      cases h
    · rw [admits_acquire_of_eq (congrArg Prod.snd heq), mem_singleton] at h
      exact h ▸ hopen
  | observe now class_ r => cases h
  | succeed class_ => cases h
  | beginSweep => cases h

lemma blockedUntil_le_of_admitted {calls} (h : x ∈ g.admitted calls) : g.blockedUntil ≤ x := by
  induction calls generalizing g with
  | nil => cases h
  | cons c calls ih =>
    obtain h | h := mem_append.1 h
    · exact blockedUntil_le_of_admits h
    · exact (g.blockedUntil_le_step c).trans (ih h)

/-! ## The budget of the sweep -/

lemma sweepBudget_step (g : Gate) (c) : (g.step c).sweepBudget = g.sweepBudget := by
  cases c with
  | acquire now =>
    obtain ⟨heq, -⟩ | ⟨heq, -⟩ | ⟨heq, -⟩ := g.acquire_cases now
    all_goals
      rw [step, heq]
  | observe now class_ r =>
    rw [step, observe]
    split
    · rfl
    · rfl
  | succeed class_ => rfl
  | beginSweep => rfl

lemma sweepUsed_step (g : Gate) {c} (hc : c ≠ .beginSweep) :
    (g.step c).sweepUsed = g.sweepUsed + (g.admits c).length := by
  cases c with
  | acquire now =>
    obtain ⟨heq, hne⟩ | ⟨heq, hne⟩ | ⟨heq, -⟩ := g.acquire_cases now
    · rw [admits_acquire_of_ne hne, step, heq]
      rfl
    · rw [admits_acquire_of_ne hne, step, heq]
      rfl
    · rw [admits_acquire_of_eq (congrArg Prod.snd heq), step, heq]
      rfl
  | observe now class_ r =>
    rw [step, observe]
    split
    · rfl
    · rfl
  | succeed class_ => rfl
  | beginSweep => exact absurd rfl hc

/-- The budget is not overspent. -/
def InBudget (g : Gate) : Prop := g.sweepUsed ≤ g.sweepBudget

lemma InBudget.step (h : g.InBudget) (c) : (g.step c).InBudget := by
  rw [InBudget, sweepBudget_step]
  by_cases hc : c = .beginSweep
  · subst hc
    exact Nat.zero_le _
  · rw [sweepUsed_step g hc]
    cases c with
    | acquire now =>
      obtain ⟨-, hne⟩ | ⟨-, hne⟩ | ⟨heq, -, hroom, -⟩ := g.acquire_cases now
      · rw [admits_acquire_of_ne hne]
        exact h
      · rw [admits_acquire_of_ne hne]
        exact h
      · rw [admits_acquire_of_eq (congrArg Prod.snd heq)]
        exact hroom
    | observe now class_ r => exact h
    | succeed class_ => exact h
    | beginSweep => exact absurd rfl hc

lemma InBudget.run (h : g.InBudget) (calls) : (g.run calls).InBudget := by
  induction calls generalizing g with
  | nil => exact h
  | cons c calls ih => exact ih (h.step c)

lemma sweepBudget_run (g : Gate) (calls) : (g.run calls).sweepBudget = g.sweepBudget := by
  induction calls generalizing g with
  | nil => rfl
  | cons c calls ih => exact (ih (g.step c)).trans (g.sweepBudget_step c)

/-- Until the budget is opened again, it pays for every request admitted. -/
lemma sweepUsed_run (g : Gate) {calls} (h : Call.beginSweep ∉ calls) :
    (g.run calls).sweepUsed = g.sweepUsed + (g.admitted calls).length := by
  induction calls generalizing g with
  | nil => rfl
  | cons c calls ih =>
    have hc : c ≠ .beginSweep := fun heq => h (heq ▸ (.head _))
    have hrest := ih (g.step c) fun hmem => h (.tail c hmem)
    rw [sweepUsed_step g hc] at hrest
    rw [admitted, length_append, ← Nat.add_assoc]
    exact hrest

lemma length_admitted_le (h : g.InBudget) {calls} (hno : Call.beginSweep ∉ calls) :
    (g.admitted calls).length ≤ g.sweepBudget := by
  have hused := g.sweepUsed_run hno
  have hin := h.run calls
  rw [InBudget, sweepBudget_run] at hin
  omega

/-! ## The windows -/

/-- The windows of the gate so far, the last one first, with the instants still to come. -/
structure Tracks (g : Gate) (v : Window) (ws : List Window) (future : List Time) : Prop where
  paced : Paced paceWindow paceRequests (v :: ws)
  start : v.start = g.windowStart
  used : v.admitted.length = g.usedInWindow
  past : ∀ y ∈ future, ∀ x ∈ instants (v :: ws), x ≤ y
  opened : ws ≠ [] → ∀ y ∈ future, v.start ≤ y

section

omit [Http]

lemma Tracks.later {v ws future future'} (h : g.Tracks v ws future)
    (hsub : ∀ y ∈ future', y ∈ future) : g.Tracks v ws future' :=
  { h with
    past := fun y hy => h.past y (hsub y hy)
    opened := fun hne y hy => h.opened hne y (hsub y hy) }

/-- A gate at rest but for its windows follows the same windows. -/
lemma Tracks.congr {v ws future} {g' : Gate} (h : g.Tracks v ws future)
    (hstart : g'.windowStart = g.windowStart) (hused : g'.usedInWindow = g.usedInWindow) :
    g'.Tracks v ws future :=
  { h with
    start := h.start.trans hstart.symm
    used := h.used.trans hused.symm }

/-- The window at `now`, opened if it had to be. -/
lemma Tracks.window {v ws future} (h : g.Tracks v ws (now :: future))
    (hnow : ∀ y ∈ future, now ≤ y) :
    ∃ v' ws', ({ g with windowStart := (g.window now).1, usedInWindow := (g.window now).2 } :
        Gate).Tracks v' ws' (now :: future) ∧ instants (v' :: ws') = instants (v :: ws) := by
  have hself : ∀ y ∈ now :: future, now ≤ y := by
    intro y hy
    obtain rfl | hy := mem_cons.1 hy
    · exact le_rfl
    · exact hnow y hy
  unfold Gate.window
  split
  · next hroll =>
    refine ⟨⟨now, []⟩, v :: ws, ⟨?_, rfl, rfl, h.past, fun _ => hself⟩, rfl⟩
    refine h.paced.roll (by decide) ?_ (h.past now (.head _))
    rw [h.start]
    exact le_sub_iff_add_le'.1 hroll
  · exact ⟨v, ws, h, rfl⟩

/-- One pass of `acquire` keeps the windows, and the instant it admits is in them. -/
lemma Tracks.acquire {v ws future} (h : g.Tracks v ws (now :: future))
    (hnow : ∀ y ∈ future, now ≤ y) :
    ∃ v' ws', (g.acquire now).1.Tracks v' ws' future ∧
      instants (v' :: ws') = g.admits (.acquire now) ++ instants (v :: ws) := by
  have hfuture : ∀ y ∈ future, y ∈ now :: future := fun y hy => .tail now hy
  obtain ⟨heq, hne⟩ | ⟨heq, hne⟩ | ⟨heq, -, -, hroom⟩ := g.acquire_cases now
  · rw [heq, admits_acquire_of_ne hne]
    exact ⟨v, ws, h.later hfuture, rfl⟩
  · rw [heq, admits_acquire_of_ne hne]
    obtain ⟨v', ws', htracks, hinst⟩ := h.window hnow
    exact ⟨v', ws', htracks.later hfuture, hinst⟩
  · rw [admits_acquire_of_eq (congrArg Prod.snd heq), heq]
    obtain ⟨v', ws', htracks, hinst⟩ := h.window hnow
    have hlen : v'.admitted.length < paceRequests := by
      rw [htracks.used]
      exact hroom
    have hcons : instants (⟨v'.start, now :: v'.admitted⟩ :: ws') = now :: instants (v :: ws) := by
      rw [← hinst]
      rfl
    refine ⟨⟨v'.start, now :: v'.admitted⟩, ws', ⟨?_, htracks.start, ?_, ?_, ?_⟩, hcons⟩
    · exact htracks.paced.add hlen fun hne => htracks.opened hne now (.head _)
    · exact congrArg (· + 1) htracks.used
    · intro y hy x hx
      rw [hcons] at hx
      obtain rfl | hx := mem_cons.1 hx
      · exact hnow y hy
      · exact h.past y (hfuture y hy) x hx
    · exact fun hne y hy => htracks.opened hne y (hfuture y hy)

end

/-- The windows of a whole run hold what it admits. -/
lemma Tracks.run {v ws} {calls : List Call} (h : g.Tracks v ws (calls.filterMap Call.instant))
    (hclock : ClockGrows calls) :
    ∃ us, Paced paceWindow paceRequests us ∧
      instants us = (g.admitted calls).reverse ++ instants (v :: ws) := by
  induction calls generalizing g v ws with
  | nil => exact ⟨v :: ws, h.paced, rfl⟩
  | cons c calls ih =>
    -- an operation that reads no clock leaves the windows alone
    have hother : c.instant = none → g.admits c = [] →
        (g.step c).windowStart = g.windowStart → (g.step c).usedInWindow = g.usedInWindow →
        ∃ us, Paced paceWindow paceRequests us ∧
          instants us = (g.admitted (c :: calls)).reverse ++ instants (v :: ws) := by
      intro hinstant hadmits hstart hused
      rw [filterMap_cons_none hinstant] at h
      rw [ClockGrows, filterMap_cons_none hinstant] at hclock
      rw [admitted, hadmits, nil_append]
      exact ih (h.congr hstart hused) hclock
    cases c with
    | acquire now =>
      obtain ⟨hnow, hrest⟩ := pairwise_cons.1 hclock
      obtain ⟨v', ws', htracks, hinst⟩ := h.acquire hnow
      obtain ⟨us, hpaced, hus⟩ := ih htracks hrest
      refine ⟨us, hpaced, ?_⟩
      have hone : (g.admits (.acquire now)).reverse = g.admits (.acquire now) := by
        rw [admits]
        split
        · rfl
        · rfl
      rw [hus, hinst, admitted, reverse_append, append_assoc, hone]
      rfl
    | observe now class_ r =>
      refine hother rfl rfl ?_ ?_
      · rw [step, observe]
        split
        · rfl
        · rfl
      · rw [step, observe]
        split
        · rfl
        · rfl
    | succeed class_ => exact hother rfl rfl rfl rfl
    | beginSweep => exact hother rfl rfl rfl rfl

omit [Http] in
lemma tracks_newGate (future) : newGate.Tracks ⟨0, []⟩ [] future where
  paced := ⟨fun u hu => mem_singleton.1 hu ▸ Nat.zero_le _, pairwise_singleton _ _⟩
  start := rfl
  used := rfl
  past := fun _ _ _ hx => by cases hx
  opened := fun hne => absurd rfl hne

lemma countP_admitted_le {calls} (hclock : ClockGrows calls) (t : Int) (L : Nat) :
    ((newGate.admitted calls).countP (within t L) : Int) ≤ paceRequests * (L / paceWindow + 2) := by
  obtain ⟨us, hpaced, hus⟩ := (tracks_newGate _).run hclock
  have hcount := hpaced.countP_within_le (by decide) t L
  have hsame : instants us = (newGate.admitted calls).reverse := by
    rw [hus]
    exact append_nil _
  rw [hsame, countP_reverse] at hcount
  exact hcount

end Gate

/-! ## The gate over a run -/

/-- **What a run of the gate admits.**  For every sequence of operations under a clock that does not
run back: between two openings of the budget at most the budget is admitted; in every interval of
length `L` at most `40 * (L / 30 s + 2)` requests are; the instant the gate is blocked until never
moves back; and after a limit response nothing is admitted before the instant it asks for.  The gate
keeps no instant after `latestBackoff`. -/
theorem gate_admits (calls : List Call) (hclock : ClockGrows calls) :
    (∀ pre mid post, calls = pre ++ mid ++ post → Call.beginSweep ∉ mid →
      ((newGate.run pre).admitted mid).length ≤ sweepRequestBudget) ∧
    (∀ (t : Int) (L : Nat), ((newGate.admitted calls).countP (within t L) : Int) ≤
      paceRequests * (L / paceWindow + 2)) ∧
    (∀ pre mid post, calls = pre ++ mid ++ post →
      (newGate.run pre).blockedUntil ≤ (newGate.run (pre ++ mid)).blockedUntil) ∧
    (∀ pre now class_ r post, calls = pre ++ Call.observe now class_ r :: post →
      r.responseLimited = true ∨ r.rateRemainingExhausted = true →
      ∀ u, Asks now r u → ∀ x ∈ (newGate.run (pre ++ [Call.observe now class_ r])).admitted post,
        u ≤ x ∨ latestBackoff ≤ x) := by
  refine ⟨?_, Gate.countP_admitted_le hclock, ?_, ?_⟩
  · intro pre mid post _ hno
    have hin : (newGate.run pre).InBudget := Gate.InBudget.run (Nat.zero_le _) pre
    have hle := Gate.length_admitted_le hin hno
    rw [Gate.sweepBudget_run] at hle
    exact hle
  · intro pre mid post _
    rw [Gate.run, Gate.run, foldl_append]
    exact Gate.blockedUntil_le_run _ mid
  · intro pre now class_ r post _ hlimit u hasks x hx
    have hblocked := Gate.blockedUntil_le_of_admitted hx
    rw [Gate.run, foldl_append] at hblocked
    have hle : min u latestBackoff ≤ x :=
      (Gate.le_blockedUntil_observe hlimit hasks).trans hblocked
    exact min_le_iff.1 hle

end Runs

namespace Sample

/-- A library that reads plain letters and no dates. -/
@[reducible] def plainHttp : Http where
  toLower := Review.asciiLower
  parseTime := fun _ => none

/-- A refusal that asks for five seconds. -/
def retry : Response where
  status := 429
  retryAfter := txt "5"

/-- The same refusal with the primary allowance spent for an hour. -/
def spentAndRetry : Response where
  status := 429
  retryAfter := txt "5"
  rateRemaining := txt "0"
  rateReset := txt "3600"

end Sample

/-- A run with a refusal: the two requests that are asked for while it stands are not admitted. -/
theorem gate_admits_after_retry : let _ : Http := Sample.plainHttp
    (newGate.admitted [.acquire unixEpoch, .observe unixEpoch .issue Sample.retry,
        .acquire (unixEpoch + 1), .acquire (unixEpoch + 4 * second),
        .acquire (unixEpoch + 5 * second)]) = [unixEpoch, unixEpoch + 5 * second] ∧
    ∀ x ∈ (newGate.run [.acquire unixEpoch, .observe unixEpoch .issue Sample.retry]).admitted
        [.acquire (unixEpoch + 1), .acquire (unixEpoch + 4 * second),
          .acquire (unixEpoch + 5 * second)], unixEpoch + 5 * second ≤ x ∨ latestBackoff ≤ x := by
  let _ : Http := Sample.plainHttp
  refine ⟨by decide, ?_⟩
  exact (gate_admits [.acquire unixEpoch, .observe unixEpoch .issue Sample.retry,
    .acquire (unixEpoch + 1), .acquire (unixEpoch + 4 * second),
    .acquire (unixEpoch + 5 * second)] (by decide)).2.2.2 [.acquire unixEpoch] unixEpoch
      .issue Sample.retry _ rfl (.inl (by decide)) _ (.seconds (by decide))

/-- A refusal that asks for five seconds while the primary allowance is spent for an hour: the gate
reads only the first, and admits a request long before the second instant.  An instant after the
last one is not kept either. -/
theorem restored_allowance_not_awaited : let _ : Http := Sample.plainHttp
    (Sample.spentAndRetry.responseLimited = true ∧
      Sample.spentAndRetry.rateRemainingExhausted = true ∧
      Sample.spentAndRetry.rateResetUntil = some (unixEpoch + 3600 * second) ∧
      newGate.admitted [.acquire unixEpoch, .observe unixEpoch .issue Sample.spentAndRetry,
        .acquire (unixEpoch + 5 * second)] = [unixEpoch, unixEpoch + 5 * second]) ∧
    newGate.admitted
        [.observe latestBackoff .issue Sample.retry, .acquire latestBackoff] = [latestBackoff] := by
  decide

end Ben.Reviewctl
