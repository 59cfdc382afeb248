import Ben.Orchestrator.Confirming

/-!
# The baseline of a retained claim

A retained claim remembers the revision of its issue up to which the change log has been looked
at.  The history behind a baseline is read by a worker that left with the issue at that revision.
A claim that is retained for the first time takes its baseline without anyone asking whether the
history shows a close.
-/

namespace Ben

namespace Orchestrator

section

variable [Platform] {o o' : Orchestrator}

/-- The input brings the history of an issue, read by a worker that left with the issue at this
revision, and the history shows neither a close inside the claim cycle nor a superseded approval. -/
inductive Examines (o : Orchestrator) : Input → String → String → Prop
  | converting (serial : Nat) (tag : Tag) (issue : Issue) (principal : String)
      (required : List String) (workspaces : Workspaces) (history : List ClaimEvent)
      (recorded : Int) (recordedErr : Option Err) (orders : Orders)
      (hworker : o.worker serial = some (.claimAnchor tag issue principal required workspaces))
      (hanchor : claimCycleAnchor history principal ≠ 0)
      (hopen : closedInCycle history (claimCycleAnchor history principal) = false)
      (hstands : historySuperseded history required workspaces recorded recordedErr =
        (false, none)) :
      Examines o (.answer serial (.history (.ok history) recorded recordedErr) orders)
        (o.heap tag.token).issue.identifier issue.revision
  | watching (serial : Nat) (id : String) (token : Token) (issue : Issue) (principal : String)
      (required : List String) (workspaces : Workspaces) (history : List ClaimEvent)
      (recorded : Int) (recordedErr : Option Err) (orders : Orders)
      (hworker : o.worker serial =
        some (.heldHistory id token issue principal required workspaces))
      (hanchor : claimCycleAnchor history principal ≠ 0)
      (hopen : closedInCycle history (claimCycleAnchor history principal) = false)
      (hstands : historySuperseded history required workspaces recorded recordedErr =
        (false, none)) :
      Examines o (.answer serial (.history (.ok history) recorded recordedErr) orders) id
        issue.revision

/-- Along a run from a state such a history was examined. -/
def Examined (start : Orchestrator) (inputs : List Input) (id revision : String) : Prop :=
  ∃ before i after o, inputs = before ++ i :: after ∧ Runs.run step start before = some o ∧
    Examines o i id revision

/-- The history behind a first retention shows no close inside the claim cycle. -/
def OpenAtConversion : Worker → Answer → Prop
  | .claimAnchor _ _ principal _ _, .history (.ok history) _ _ =>
    closedInCycle history (claimCycleAnchor history principal) = false
  | _, _ => True

/-- The same as a check. -/
def openAtConversion : Worker → Answer → Bool
  | .claimAnchor _ _ principal _ _, .history (.ok history) _ _ =>
    !closedInCycle history (claimCycleAnchor history principal)
  | _, _ => true

lemma openAtConversion_eq_true_iff (w a) : openAtConversion w a ↔ OpenAtConversion w a := by
  unfold openAtConversion OpenAtConversion
  split <;> simp

instance (w : Worker) (a : Answer) : Decidable (OpenAtConversion w a) :=
  decidable_of_iff _ (openAtConversion_eq_true_iff w a)

/-! ## Where baselines come from -/

/-- A landing sets no baseline. -/
lemma lands_baseline {i} (h : Lands o i o') {id} {c : HeldClaim}
    (hlookup : o'.held.lookup id = some c) :
    ∃ c0, o.held.lookup id = some c0 ∧ c0.revision = c.revision := by
  obtain ⟨-, -, -, hsame | ⟨serial, id', token, err, rfl⟩⟩ := lands_spec h
  · exact ⟨c, hsame ▸ hlookup, rfl⟩
  · unfold onHeldReleased at hlookup
    split at hlookup
    · exact ⟨c, hlookup, rfl⟩
    rename_i c1 hc1
    split at hlookup
    · exact ⟨c, hlookup, rfl⟩
    by_cases hid : id = id'
    · subst hid
      split at hlookup
      · simp only [modifyHeld, hc1, AList.lookup_insert, Option.some.injEq] at hlookup
        exact ⟨c1, hc1, by rw [← hlookup]⟩
      · rw [dropHeld, AList.lookup_erase] at hlookup
        cases hlookup
    · split at hlookup
      · simp only [modifyHeld, hc1, AList.lookup_insert_ne hid] at hlookup
        exact ⟨c, hlookup, rfl⟩
      · exact ⟨c, (AList.lookup_erase_ne hid).symm.trans hlookup, rfl⟩

/-- A baseline after a step was there before it, or the step's input grounds it. -/
lemma step_baseline {i} (hstep : o.step i = some o') {id} {c : HeldClaim}
    (hlookup : o'.held.lookup id = some c) :
    (∃ c0, o.held.lookup id = some c0 ∧ c0.revision = c.revision) ∨ Accepts o i id c.revision := by
  obtain ⟨o1, hlands, hwork⟩ := step_lands hstep
  refine hwork.invariant (P := fun o' => ∀ c, o'.held.lookup id = some c →
    (∃ c0, o.held.lookup id = some c0 ∧ c0.revision = c.revision) ∨ Accepts o i id c.revision)
    (fun o1 o2 hs hP c hc => ?_) (fun c hc => .inl (lands_baseline hlands hc)) c hlookup
  obtain ⟨c1, hc1, hrevision⟩ | hground := (stroked hs).baseline hc
  · exact hrevision ▸ hP c1 hc1
  · exact .inr hground

/-- What grounds a baseline is an examined history, where a first retention rests on an open
one. -/
lemma examines_of_accepts {i id revision} (h : Accepts o i id revision)
    (hopen : Meets (fun _ => OpenAtConversion) o i) : Examines o i id revision := by
  cases h with
  | converts serial tag issue principal required workspaces history recorded recordedErr orders
      hworker hanchor hstands =>
    obtain ⟨e, hfind, hw⟩ := Option.map_eq_some_iff.1 hworker
    have hclosed := hopen e hfind
    rw [hw] at hclosed
    exact .converting serial tag issue principal required workspaces history recorded recordedErr
      orders hworker hanchor hclosed hstands
  | confirms serial id token issue principal required workspaces history recorded recordedErr orders
      hworker hanchor hclosed hstands =>
    exact .watching serial id token issue principal required workspaces history recorded recordedErr
      orders hworker hanchor hclosed hstands

lemma Examined.concat {start inputs id revision} (h : Examined start inputs id revision) (i) :
    Examined start (inputs ++ [i]) id revision := by
  obtain ⟨before, j, after, o, rfl, hrun, hexamines⟩ := h
  exact ⟨before, j, after ++ [i], o, by simp, hrun, hexamines⟩

/-- No claim is retained at startup. -/
lemma held_boot (cur daemonInstance) (now : Time) (reads id) :
    (boot cur daemonInstance now reads).held.lookup id = none := by
  refine invariant_boot (P := fun o => o.held.lookup id = none) rfl fun o1 o2 hs hnone => ?_
  cases hlookup : o2.held.lookup id with
  | none => rfl
  | some c =>
    obtain ⟨c0, hc0, -⟩ | hground := (stroked hs).baseline hlookup
    · rw [hnone] at hc0
      cases hc0
    · exact hground.elim

/-- In every run in which no claim is retained on a history that shows a close inside its cycle,
behind the baseline of every retained claim there is an examined history. -/
theorem baseline_examined {cur : Snapshot} {daemonInstance : String} {now : Time}
    {reads : StartupReads} {inputs : List Input}
    (halong : Runs.Along step (Meets fun _ => OpenAtConversion) (boot cur daemonInstance now reads)
      inputs)
    (hrun : Runs.run step (boot cur daemonInstance now reads) inputs = some o) {id : String}
    {c : HeldClaim} (hheld : o.held.lookup id = some c) :
    Examined (boot cur daemonInstance now reads) inputs id c.revision := by
  refine Runs.invariant_traced (P := fun inputs o => ∀ c, o.held.lookup id = some c →
    Examined (boot cur daemonInstance now reads) inputs id c.revision) (fun c hc => ?_)
    (fun before o1 i o2 hbefore hP hopen hstep c hc => ?_) halong hrun c hheld
  · rw [held_boot] at hc
    cases hc
  · obtain ⟨c0, hc0, hrevision⟩ | haccepts := step_baseline hstep hc
    · exact hrevision ▸ (hP c0 hc0).concat i
    · exact ⟨before, i, [], o1, by simp, hbefore, examines_of_accepts haccepts hopen⟩

end

end Orchestrator

/-! ## Runs that retain a claim -/

namespace Sample

/-- The effects owed after the sample run land one by one. -/
def landAll : List Orchestrator.Input :=
  (List.range 6).flatMap fun n => [.runEffect none, .answer (10 + n) .ack {}]

/-- The change log of an issue that was closed and opened again while it was ours. -/
def closedHistory : List ClaimEvent :=
  history ++ [{ kind := .closed, at_ := 8000000000, id := 3 },
    { kind := .reopened, at_ := 8500000000, id := 4 }]

/-- The published claim is retained on what its change log says. -/
def retainedRun (events : List ClaimEvent) : List Orchestrator.Input :=
  publishedRun ++ landAll ++ [.answer 16 (.history (.ok events) 0 none) {}]

end Sample

namespace Orchestrator

open Sample

/-- The claim the sample run retains stands on an examined history. -/
theorem baseline_examined_retainedRun :
    ∃ o c, Runs.run step (booted 1 ["7"]) (retainedRun history) = some o ∧
      o.held.lookup "7" = some c ∧
      Examined (booted 1 ["7"]) (retainedRun history) "7" c.revision := by
  have hany : ((Runs.run step (booted 1 ["7"])
      (retainedRun history)).any fun o => (o.held.lookup "7").isSome) = true := by
    decide
  obtain ⟨o, hrun, hheld⟩ := (Option.any_eq_true _ _).1 hany
  obtain ⟨c, hheld⟩ := Option.isSome_iff_exists.1 hheld
  exact ⟨o, c, hrun, hheld, baseline_examined (Runs.along_of_check (by decide)) hrun hheld⟩

/-- Whoever the claim is of, the log with the close shows it inside the claim cycle. -/
lemma closedInCycle_closedHistory (principal) (h : claimCycleAnchor closedHistory principal ≠ 0) :
    closedInCycle closedHistory (claimCycleAnchor closedHistory principal) := by
  have hanchor : claimCycleAnchor closedHistory principal =
      if equalFold "ben" principal then 2 else 0 := by
    cases hben : equalFold "ben" principal <;>
      simp [claimCycleAnchor, closedHistory, history, hben]
  cases hben : equalFold "ben" principal with
  | true =>
    rw [hanchor, hben]
    decide
  | false =>
    rw [hanchor, hben] at h
    exact absurd rfl h

/-- The input brings no history, or the one with the close. -/
def bringsClosed : Input → Bool
  | .answer _ (.history (.ok history) _ _) _ => history == closedHistory
  | _ => true

lemma not_examines_of_bringsClosed {o i id revision} (h : bringsClosed i) :
    ¬ Examines o i id revision := by
  rintro (⟨_, _, _, principal, _, _, history, _, _, _, _, hanchor, hopen, _⟩ |
    ⟨_, _, _, _, principal, _, _, history, _, _, _, _, hanchor, hopen, _⟩)
  all_goals
    obtain rfl : history = closedHistory := by simpa [bringsClosed] using h
    rw [closedInCycle_closedHistory principal hanchor] at hopen
    cases hopen

/-- A claim is retained on a history that shows a close inside its cycle. -/
theorem baseline_unexamined :
    ∃ o c, Runs.run step (booted 1 ["7"]) (retainedRun closedHistory) = some o ∧
      o.held.lookup "7" = some c ∧
      ¬ Examined (booted 1 ["7"]) (retainedRun closedHistory) "7"
        c.revision := by
  have hany : ((Runs.run step (booted 1 ["7"])
      (retainedRun closedHistory)).any fun o => (o.held.lookup "7").isSome) = true := by
    decide
  obtain ⟨o, hrun, hheld⟩ := (Option.any_eq_true _ _).1 hany
  obtain ⟨c, hheld⟩ := Option.isSome_iff_exists.1 hheld
  refine ⟨o, c, hrun, hheld, ?_⟩
  rintro ⟨before, i, after, o1, heq, -, hexamines⟩
  have hall : (retainedRun closedHistory).all bringsClosed = true := by decide
  have hmem : i ∈ retainedRun closedHistory := by
    rw [heq]
    exact List.mem_append_right _ (.head _)
  exact not_examines_of_bringsClosed (List.all_eq_true.1 hall i hmem) hexamines

end Orchestrator

end Ben
