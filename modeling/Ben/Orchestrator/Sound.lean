import Ben.Orchestrator.FrameEffects

/-!
# What holds of every tenure

The invariant of a tenure relates its record, its workers and its history: how far an attempt
can have got in each state, which workers can be out together, and what must have happened
before.  It is stated once, over the view of a tenure, together with what it takes for one
tenure to change without disturbing the others.
-/

namespace Ben

variable [Platform]

/-! ## The invariant -/

omit [Platform] in
/-- Nothing is out for an attempt. -/
structure Out.Untouched (out : Out) (g : Nat) : Prop where
  claims : out.claims g = 0
  approvals : out.approvals g = 0
  claimBases : out.claimBases g = 0
  prepares : out.prepares g = 0
  starts : out.starts g = 0
  pumps : out.pumps g = 0
  drains : out.drains g = 0
  probes : out.probes g = 0
  stops : out.stops g = 0
  selfStops : out.selfStops g = 0
  summaries : out.summaries g = 0
  timers : out.timers g = 0
  verifies : out.verifies g = 0
  strayVerifies : ∀ ws, out.strayVerifies ws g = 0
  strayRuns : ∀ id, out.strayRuns id g = 0

/-- What is promised of a run: that every record that goes ahead has been pinned, that none
waits to go ahead without a pin, that a workspace that was made has a path, that the slots are
kept under a cap, and that limits on the attempts, or on their cost, stay in force. -/
structure Mode where
  pinned : Prop := False
  queued : Prop := False
  paths : Prop := False
  capped : Prop := False
  cap : Int := 0
  rationed : Prop := False
  frugal : Prop := False
  limits : Limits := {}
  rations : rationed → 1 ≤ limits.maxAttempts ∧ 0 ≤ limits.maxTurns
  price : frugal → 0 < limits.maxCost

namespace Tenure

variable (v : Tenure)

/-- The generation of the current attempt. -/
abbrev gen : Nat := v.phase.generation

/-- The workers that are out to launch the current attempt. -/
abbrev launches : Nat := v.out.prepares v.gen + v.out.starts v.gen

/-- The tenure with another worker out for its current attempt. -/
abbrev sent (d : Duty) : Tenure := { v with out := v.out.add d v.gen }

/-- The record has a claim epoch, and its workspace is the one of that epoch. -/
def Epochal (m : Mode) : Prop :=
  (m.paths → v.phase.workspace.claimEpoch = v.phase.claimEpoch) ∧ 0 < v.phase.claimEpoch

/-- The tenure is leaving for good, or suspended by shutdown. -/
def Doomed : Prop := v.phase.leaving = true ∨ v.phase.finish = true ∨ v.phase.suspended = true

/-- Nothing is being launched and nothing is left of any run. -/
def Idle : Prop := v.out.prepares v.gen = 0 ∧ v.out.starts v.gen = 0 ∧ v.past.live = []

/-- Where an attempt that is being launched is. -/
def Launching : Prop :=
  v.phase.state = .preparing ∧
  v.phase.handle = none ∧
  v.phase.outcome = false ∧
  v.phase.domainQuiet = false ∧
  v.phase.verifyRetry = false ∧
  v.phase.parkOnBudgetPending = false ∧
  v.phase.budgetStop = false ∧
  v.past.prepared v.gen ∧
  v.attached ∧
  v.phase.eventsClosed = false ∧
  v.out.pumps v.gen = 0 ∧
  v.out.drains v.gen = 0 ∧
  v.out.probes v.gen = 0 ∧
  v.out.stops v.gen = 0 ∧
  v.out.selfStops v.gen = 0 ∧
  v.out.summaries v.gen = 0 ∧
  v.out.verifies v.gen = 0

/-- Where an attempt whose work is being verified is. -/
def Verifying : Prop :=
  v.phase.state = .verifying ∧
  v.phase.handle = none ∧
  v.phase.outcome = false ∧
  v.phase.summarized = true ∧
  v.phase.parkOnBudgetPending = false ∧
  v.past.prepared v.gen

/-- Where a record that waits for a timer is. -/
def Waiting : Prop :=
  ¬ v.past.prepared v.gen ∧
  ((v.phase.state = .backoff ∧ v.phase.claimBaseDispatch = false) ∨
    v.phase.state = .verifying)

/-- The content a prompt would be rendered from is the one last pinned. -/
def Pinned : Prop := ∃ pin, v.past.pin = some pin

/-- An agent is bound to be started without another look at the budgets. -/
def Due : Prop :=
  (v.phase.state = .queued ∧ (v.phase.claimVerified = true ∨ 0 < v.out.claims v.gen)) ∨
  v.phase.state = .claimed ∨
  (v.phase.state = .preparing ∧ ¬ v.past.prepared v.gen) ∨
  0 < v.out.prepares v.gen

/-- Another agent may be started: an attempt or a turn is left for it. -/
def Spare (limits : Limits) : Prop :=
  (v.past.starts : Int) + 1 ≤ v.phase.attempt - v.phase.attemptBase ∧
  (v.past.starts : Int) + 1 ≤ limits.maxAttempts + v.phase.turns

/-- The agents started since the budgets were restored are covered by the attempts and turns that
were counted. -/
def Rationed (limits : Limits) : Prop :=
  0 ≤ v.phase.attemptBase ∧
  0 ≤ v.phase.turns ∧
  v.phase.turns ≤ limits.maxTurns ∧
  (v.past.starts : Int) ≤ v.phase.attempt - v.phase.attemptBase ∧
  (v.past.starts : Int) ≤ limits.maxAttempts + v.phase.turns ∧
  (v.Due → v.Spare limits) ∧
  (v.phase.state = .backoff → (v.past.starts : Int) + 1 ≤ limits.maxAttempts + v.phase.turns) ∧
  (v.phase.state = .verifying → 0 < v.out.timers v.gen → v.phase.turns < limits.maxTurns)

/-- The run has not said yet how it ended, so nothing has been made of its end: an account is
read only over a breach of the budget or on the way out. -/
def Unheard : Prop :=
  v.phase.eventsClosed = false → ¬ v.past.terminal v.gen → v.past.prepared v.gen →
    v.phase.state ≠ .verifying ∧
    (0 < v.out.summaries v.gen → v.phase.parkOnBudgetPending = true ∨ v.phase.leaving = true)

/-- No way leads to another agent: the record is at rest, on its way out, or about to be parked. -/
def Barred : Prop :=
  v.phase.state ≠ .queued ∧
  v.phase.state ≠ .claimed ∧
  (v.phase.state = .backoff → v.phase.leaving = true) ∧
  (v.phase.state = .preparing → v.past.prepared v.gen ∧
    v.out.prepares v.gen + v.out.starts v.gen = 0) ∧
  (v.phase.state = .running ∨ v.phase.state = .verifying → v.phase.leaving = true ∨
    (v.past.prepared v.gen ∧ (v.phase.stopping = true ∨ v.phase.parkOnBudgetPending = true ∨
      v.phase.finish = true ∨ v.phase.suspended = true))) ∧
  (0 < v.out.summaries v.gen → v.phase.parkOnBudgetPending = true ∨ v.phase.leaving = true) ∧
  (0 < v.out.verifies v.gen ∨ v.phase.verifyRetry = true → v.phase.leaving = true)

end Tenure

section

variable {v : Tenure}

namespace Tenure.Launching

variable (h : v.Launching)

include h

lemma state : v.phase.state = .preparing := h.1

lemma handle : v.phase.handle = none := h.2.1

lemma outcome : v.phase.outcome = false := h.2.2.1

lemma domainQuiet : v.phase.domainQuiet = false := h.2.2.2.1

lemma verifyRetry : v.phase.verifyRetry = false := h.2.2.2.2.1

lemma parkOnBudgetPending : v.phase.parkOnBudgetPending = false := h.2.2.2.2.2.1

lemma budgetStop : v.phase.budgetStop = false := h.2.2.2.2.2.2.1

lemma prepared : v.past.prepared v.gen := h.2.2.2.2.2.2.2.1

lemma attached : v.attached := h.2.2.2.2.2.2.2.2.1

lemma eventsClosed : v.phase.eventsClosed = false := h.2.2.2.2.2.2.2.2.2.1

lemma pumps : v.out.pumps v.gen = 0 := h.2.2.2.2.2.2.2.2.2.2.1

lemma drains : v.out.drains v.gen = 0 := h.2.2.2.2.2.2.2.2.2.2.2.1

lemma probes : v.out.probes v.gen = 0 := h.2.2.2.2.2.2.2.2.2.2.2.2.1

lemma stops : v.out.stops v.gen = 0 := h.2.2.2.2.2.2.2.2.2.2.2.2.2.1

lemma selfStops : v.out.selfStops v.gen = 0 := h.2.2.2.2.2.2.2.2.2.2.2.2.2.2.1

lemma summaries : v.out.summaries v.gen = 0 := h.2.2.2.2.2.2.2.2.2.2.2.2.2.2.2.1

lemma verifies : v.out.verifies v.gen = 0 := h.2.2.2.2.2.2.2.2.2.2.2.2.2.2.2.2

end Tenure.Launching

namespace Tenure.Verifying

variable (h : v.Verifying)

include h

lemma state : v.phase.state = .verifying := h.1

lemma handle : v.phase.handle = none := h.2.1

lemma outcome : v.phase.outcome = false := h.2.2.1

lemma summarized : v.phase.summarized := h.2.2.2.1

lemma parkOnBudgetPending : v.phase.parkOnBudgetPending = false := h.2.2.2.2.1

lemma prepared : v.past.prepared v.gen := h.2.2.2.2.2

end Tenure.Verifying

lemma Tenure.Waiting.unprepared (h : v.Waiting) : ¬ v.past.prepared v.gen := h.1

lemma Tenure.Waiting.state (h : v.Waiting) :
    (v.phase.state = .backoff ∧ v.phase.claimBaseDispatch = false) ∨ v.phase.state = .verifying :=
  h.2

/-- What the agents that were started are counted against. -/
def Tenure.counts (v : Tenure) : Int × Int × Int × Nat :=
  (v.phase.attempt, v.phase.attemptBase, v.phase.turns, v.past.starts)

/-- As long as nothing is counted or started, only the way ahead has to be covered again. -/
lemma Tenure.Rationed.of_counts {w : Tenure} {limits : Limits} (h : v.Rationed limits)
    (hsame : w.counts = v.counts) (hdue : w.Due → w.Spare limits)
    (hbackoff : w.phase.state = .backoff →
      (w.past.starts : Int) + 1 ≤ limits.maxAttempts + w.phase.turns)
    (hverifying : w.phase.state = .verifying → 0 < w.out.timers w.gen →
      w.phase.turns < limits.maxTurns) : w.Rationed limits := by
  obtain ⟨hbase, hturns, hmax, hattempts, hstarts, -⟩ := h
  simp only [Tenure.counts, Prod.mk.injEq] at hsame
  obtain ⟨hattempt, hbase', hturns', hstarts'⟩ := hsame
  refine ⟨?_, ?_, ?_, ?_, ?_, hdue, hbackoff, hverifying⟩
  all_goals simp only [hattempt, hbase', hturns', hstarts']
  all_goals assumption

/-- With no agent on its way, nothing ahead has to be covered. -/
lemma Tenure.Rationed.at_rest {w : Tenure} {limits} (h : v.Rationed limits)
    (hsame : w.counts = v.counts)
    (hstate : w.phase.state ≠ .queued ∧ w.phase.state ≠ .claimed ∧ w.phase.state ≠ .backoff)
    (hnew : w.phase.state ≠ .preparing) (hprepares : w.out.prepares w.gen = 0)
    (htimers : w.out.timers w.gen = 0) : w.Rationed limits := by
  refine h.of_counts hsame (fun hdue => ?_) (fun hb => absurd hb hstate.2.2)
    fun _ ht => absurd ht htimers.not_gt
  rcases hdue with hq | hc | hp | hp
  · exact absurd hq.1 hstate.1
  · exact absurd hc hstate.2.1
  · exact absurd hp.1 hnew
  · exact absurd hp hprepares.not_gt

end

/-- The invariant of a tenure. -/
structure Sound (m : Mode) (v : Tenure) : Prop where
  /-- Nothing is out for an attempt that has not begun. -/
  ahead : ∀ g, v.gen < g → v.out.Untouched g ∧ ¬ v.past.prepared g
  /-- Only the current attempt is ever being launched. -/
  behind : ∀ g, g ≠ v.gen → v.out.prepares g = 0 ∧ v.out.starts g = 0
  fresh : v.phase.state = .queued ∨ v.phase.state = .claimed ∨ v.phase.state = .backoff →
    ¬ v.past.prepared v.gen
  timer : 0 < v.out.timers v.gen → v.out.timers v.gen = 1 ∧ v.Waiting
  dispatching : v.phase.claimBaseDispatch = true →
    v.phase.state = .backoff ∨ (v.phase.state = .needsReview ∧ v.phase.epochFaulted = true)
  single : v.out.prepares v.gen + v.out.starts v.gen ≤ 1
  launching : 0 < v.out.prepares v.gen + v.out.starts v.gen → v.Launching
  attempt : 0 < v.out.pumps v.gen ∨ 0 < v.out.drains v.gen ∨ 0 < v.out.probes v.gen ∨
    0 < v.out.stops v.gen ∨ 0 < v.out.selfStops v.gen ∨ 0 < v.out.summaries v.gen ∨
    0 < v.out.verifies v.gen → v.past.prepared v.gen
  /-- One stream, open until its close was seen. -/
  stream : v.out.pumps v.gen ≤ 1 ∧ (v.phase.eventsClosed = true → v.out.pumps v.gen = 0)
  probing : 0 < v.out.probes v.gen → v.out.probes v.gen = 1 ∧ v.phase.probeInFlight = true ∧
    v.phase.eventsClosed = true ∧ (v.phase.handle = some v.gen ∨ v.Doomed)
  stopping : 0 < v.out.stops v.gen → v.out.stops v.gen = 1 ∧ v.phase.stopInFlight = true ∧
    (v.phase.handle = some v.gen ∨ v.phase.suspended = true) ∧
    (v.out.probes v.gen = 0 ∨ v.phase.stopping = true ∨ v.Doomed)
  verifying : 0 < v.out.verifies v.gen ∨ v.phase.verifyRetry = true → v.Verifying
  verifyOnce : v.out.verifies v.gen ≤ 1 ∧
    (v.phase.verifyRetry = true → v.out.verifies v.gen = 0)
  stray : v.out.strayVerifies v.phase.workspace v.gen = 0 ∧
    v.out.strayRuns v.phase.id v.gen = 0
  summary : 0 < v.out.summaries v.gen → v.out.summaries v.gen = 1 ∧
    v.phase.summarizing = true ∧ v.phase.summarized = false ∧
    (v.phase.state = .running ∨ v.phase.state = .verifying)
  quiet : v.phase.domainQuiet = true → v.past.live = []
  live : v.past.live ≠ [] →
    (0 < v.out.starts v.gen ∨ v.phase.handle = some v.gen) ∧ v.attached
  liveGen : ∀ h ∈ v.past.live, h = v.gen
  handle : ∀ h, v.phase.handle = some h → h = v.gen ∧
    (v.phase.state = .preparing ∨ v.phase.state = .running ∨ v.phase.state = .verifying) ∧
    v.past.prepared v.gen ∧ (v.phase.domainQuiet = true → v.phase.suspended = true) ∧
    (v.phase.state = .preparing → v.phase.budgetStop = false)
  parking : v.phase.parkOnBudgetPending = true →
    v.phase.domainQuiet = true ∧ v.phase.handle = none
  budget : v.phase.budgetStop = true →
    (v.phase.state = .running → v.phase.stopping = true) ∧ v.phase.state ≠ .verifying ∧
    v.out.probes v.gen = 0
  held : v.phase.outcome = true → v.phase.domainQuiet = false →
    v.past.prepared v.gen ∧ (v.phase.state = .running ∨ v.phase.state = .verifying)
  /-- A success moves the record on to verification, a failure does not. -/
  sorted : v.phase.outcome = true → (v.phase.state = .verifying → v.phase.succeeded = true) ∧
    (v.phase.state = .running → v.phase.succeeded = false)
  ran : v.phase.state = .running → v.past.prepared v.gen
  selfStop : 0 < v.out.selfStops v.gen → v.out.selfStops v.gen = 1 ∧ v.phase.handle = none ∧
    v.phase.stopping = true ∧ (v.phase.state = .running ∨ v.phase.summarized = true)
  /-- The loop says that there is nothing to stop only when no stop is under way. -/
  alone : 0 < v.out.selfStops v.gen → v.out.stops v.gen = 0
  epochal : 0 < v.out.starts v.gen ∨ v.phase.state = .running ∨ v.phase.state = .verifying ∨
    v.phase.state = .done → v.Epochal m
  claiming : 0 < v.out.claims v.gen → v.out.claims v.gen = 1 ∧ v.phase.state = .queued ∧
    v.phase.claimVerified = false ∧ v.phase.claimEpoch = 0 ∧ v.phase.recovered = false ∧
    v.phase.unclassified = false
  approving : 0 < v.out.approvals v.gen → v.phase.claimVerified = true
  basing : 0 < v.out.claimBases v.gen → v.phase.state = .queued → v.phase.claimVerified = true
  awaited : (v.out.awaited : Int) ≤ v.phase.pending
  exit : v.exits → v.Idle ∧ v.phase.leaving = true
  unclassified : v.phase.unclassified = true →
    v.phase.state = .queued ∧ v.phase.claimVerified = false
  reserved : v.attached → v.reserved → v.phase.unclassified = true
  pin : ∀ a, v.past.pin = some a → v.phase.title = a.content.title ∧
    v.phase.body = a.content.body ∧ v.phase.approvedAt = a.at_
  unpinned : v.past.pin = none → v.phase.approvedAt = 0
  inForce : ∀ a, v.past.pin = some a → ∃ b, v.past.approval = some b ∧ b.at_ ≤ a.at_
  pinned : m.pinned → 0 < v.out.claimBases v.gen ∨ v.phase.claimBaseDispatch = true ∨
    v.phase.state = .claimed ∨ v.phase.state = .preparing ∨ v.phase.state = .running ∨
    v.phase.state = .verifying → v.Pinned
  queued : m.queued → v.attached → v.phase.state = .queued → v.phase.claimVerified = true →
    0 < v.phase.claimEpoch → v.Pinned
  published : v.past.published → v.past.certified v.phase.id v.phase.workspace ∧
    v.Epochal m ∧ (v.phase.state = .done ∨ v.phase.unclassified = true)
  startedPinned : m.pinned → v.past.startedPinned
  reliedWhenFree : v.past.reliedWhenFree
  publishedCertified : v.past.publishedCertified v.phase.id v.phase.workspace
  limits : m.rationed ∨ m.frugal → v.limits = m.limits
  rationed : m.rationed → v.Rationed m.limits
  startedWithin : m.rationed →
    v.past.startedWithin (m.limits.maxAttempts + m.limits.maxTurns)
  tallied : m.frugal → v.phase.costUSD = v.past.spent
  priced : m.frugal → 0 < v.out.starts v.gen ∨ v.phase.state = .running →
    v.phase.maxCost = m.limits.maxCost
  unheard : m.frugal → v.Unheard
  barred : m.frugal → v.past.overrun m.limits.maxCost → v.Barred
  startedFrugally : m.frugal → v.past.startedFrugally m.limits.maxCost

/-- A tenure that has not begun. -/
structure Tenure.Blank (v : Tenure) : Prop where
  untouched : ∀ g, v.out.Untouched g
  awaited : v.out.awaited = 0
  prepared : ∀ g, ¬ v.past.prepared g
  live : v.past.live = []
  pin : v.past.pin = none
  approval : v.past.approval = none
  published : ¬ v.past.published
  startedPinned : v.past.startedPinned
  reliedWhenFree : v.past.reliedWhenFree
  publishedCertified : ∀ id ws, v.past.publishedCertified id ws
  starts : v.past.starts = 0
  startedWithin : ∀ n, v.past.startedWithin n
  spent : v.past.spent = 0
  overrun : ∀ cap, ¬ v.past.overrun cap
  startedFrugally : ∀ cap, v.past.startedFrugally cap
  attached : ¬ v.attached
  exits : ¬ v.exits

/-! ## Slots -/

/-- The record has, or is bound to come to have, a running agent. -/
def Phase.bound (p : Phase) : Bool :=
  match p.state with
  | .claimed | .preparing | .running => true
  | .verifying => !p.domainQuiet
  | .queued => !p.recovered || p.claimVerified
  | _ => false

lemma Phase.bound_of_state {p : Phase}
    (h : p.state = .claimed ∨ p.state = .preparing ∨ p.state = .running) : p.bound := by
  rcases h with h | h | h <;> simp [Phase.bound, h]

/-- A record that is bound although nothing is left of its run was bound before. -/
lemma Phase.bound_of_quiet (p : Phase) (h : { p with domainQuiet := true }.bound) :
    p.bound := by
  revert h
  simp only [Phase.bound]
  cases p.state <;> simp

/-- The number of records that have, or are bound to come to have, a running agent. -/
def View.slots (V : View) : Nat := V.records.entries.countP fun e => (V.tenure e.2).phase.bound

/-! ## The tenures together -/

/-- Every record is kept under the issue it is for. -/
abbrev View.Keyed (V : View) : Prop := ∀ e ∈ V.records.entries, (V.tenure e.2).phase.id = e.1

/-- The invariant of all tenures: each is sound, those that have not begun are blank, and the
table has each under its own issue, which has a name. -/
structure Good (m : Mode) (V : View) : Prop where
  sound : ∀ t, Sound m (V.tenure t)
  blank : ∀ t, V.next < t → (V.tenure t).Blank
  keyed : ∀ e ∈ V.records.entries, (V.tenure e.2).phase.id = e.1
  named : ∀ e ∈ V.records.entries, e.1 ≠ ""

/-- The tenures come through a piece of the loop's work sound and within the cap. -/
structure Keeps (m : Mode) (V V' : View) : Prop where
  good : Good m V'
  slots : m.capped → (V'.slots : Int) ≤ max (V.slots : Int) m.cap

variable {m : Mode} {V V' V'' : View} {t : Token} {v : Tenure}

lemma Keeps.refl (h : Good m V) : Keeps m V V := ⟨h, fun _ => le_max_left _ _⟩

lemma Keeps.trans (h : Keeps m V V') (h' : Keeps m V' V'') : Keeps m V V'' :=
  ⟨h'.good, fun hc => (h'.slots hc).trans (max_le (h.slots hc) (le_max_right _ _))⟩

/-- Records that are not newly bound do not take more slots. -/
lemma View.slots_set_le (hbound : v.phase.bound → (V.tenure t).phase.bound) :
    (V.set t v).slots ≤ V.slots := by
  unfold View.slots
  refine List.countP_mono_left fun e _ => ?_
  by_cases he : e.2 = t
  · simpa [he] using hbound
  · simp [View.set_tenure_of_ne _ _ _ he]

/-- The table has a tenure at most once. -/
lemma View.countP_token_le_one (hkeyed : V.Keyed) :
    (V.records.entries.countP fun e => decide (e.2 = t)) ≤ 1 := by
  have hkey : (V.records.entries.countP fun e => decide (e.2 = t)) ≤
      V.records.entries.countP fun e => e.1 == (V.tenure t).phase.id := by
    refine List.countP_mono_left fun e he ht => ?_
    rw [← hkeyed e he, of_decide_eq_true ht]
    exact beq_self_eq_true _
  have hcount : (V.records.entries.countP fun e => e.1 == (V.tenure t).phase.id) =
      V.records.keys.count (V.tenure t).phase.id := by
    simp only [AList.keys, List.keys, List.count, List.countP_map]
    rfl
  exact hkey.trans (hcount.trans_le (List.nodup_iff_count_le_one.1 V.records.keys_nodup _))

/-- One tenure takes one slot at most. -/
lemma View.slots_set_le_succ (hkeyed : V.Keyed) : (V.set t v).slots ≤ V.slots + 1 := by
  have hle : (V.set t v).slots ≤ V.slots +
      V.records.entries.countP fun e => decide (e.2 = t) := by
    unfold View.slots
    rw [View.set_records]
    induction V.records.entries with
    | nil => simp
    | cons e rest ih =>
      simp only [List.countP_cons]
      by_cases he : e.2 = t
      · simp only [he, decide_true, if_true]
        split <;> omega
      · rw [View.set_tenure_of_ne _ _ _ he]
        omega
  exact hle.trans (Nat.add_le_add_left (View.countP_token_le_one hkeyed) _)

/-- One tenure changes soundly: the others are as they were. -/
lemma Good.set (h : Good m V) (hborn : t ≤ V.next) (hv : Sound m v)
    (hid : v.phase.id = (V.tenure t).phase.id) : Good m (V.set t v) where
  sound t' := by
    by_cases ht : t' = t
    · subst ht
      simpa using hv
    · rw [View.set_tenure_of_ne _ _ _ ht]
      exact h.sound t'
  blank t' ht' := by
    have hne : t' ≠ t := fun heq => absurd (heq ▸ hborn) (not_le.2 ht')
    rw [View.set_tenure_of_ne _ _ _ hne]
    exact h.blank t' ht'
  keyed e he := by
    by_cases ht : e.2 = t
    · have hkey := h.keyed e he
      rw [ht] at hkey ⊢
      simp [hid, hkey]
    · rw [View.set_tenure_of_ne _ _ _ ht]
      exact h.keyed e he
  named := h.named

/-- A tenure the table has has begun. -/
lemma Good.born (h : Good m V) (hatt : (V.tenure t).attached) : t ≤ V.next :=
  not_lt.1 fun hlt => (h.blank t hlt).attached hatt

/-! ## What the state says -/

namespace Sound

variable (h : Sound m v)

include h

/-- Nothing is launched or left running in a state before an attempt or after the last one. -/
lemma idle_of_state {s} (hstate : v.phase.state = s)
    (hs : decide (s ≠ .preparing ∧ s ≠ .running ∧ s ≠ .verifying)) : v.Idle := by
  obtain ⟨hp, hr, hv⟩ := hstate ▸ of_decide_eq_true hs
  have hnone : v.out.prepares v.gen + v.out.starts v.gen = 0 := by
    by_contra hne
    exact hp (h.launching (Nat.pos_of_ne_zero hne)).state
  refine ⟨by omega, by omega, ?_⟩
  by_contra hlive
  rcases (h.live hlive).1 with hstart | hhandle
  · omega
  · rcases (h.handle _ hhandle).2.1 with hs | hs | hs
    · exact hp hs
    · exact hr hs
    · exact hv hs

/-- Without a handle and with nothing being launched, nothing is left running. -/
lemma idle_of_handle (hhandle : v.phase.handle = none)
    (hlaunch : v.out.prepares v.gen + v.out.starts v.gen = 0) : v.Idle := by
  refine ⟨by omega, by omega, ?_⟩
  by_contra hlive
  rcases (h.live hlive).1 with hstart | hsome
  · omega
  · rw [hhandle] at hsome
    cases hsome

/-- With a tenure not preparing, nothing is being launched. -/
lemma no_launch (hp : v.phase.state ≠ .preparing) :
    v.out.prepares v.gen + v.out.starts v.gen = 0 := by
  by_contra hne
  exact hp (h.launching (Nat.pos_of_ne_zero hne)).state

end Sound

end Ben
