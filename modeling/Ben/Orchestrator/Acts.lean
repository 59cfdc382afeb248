import Ben.Orchestrator.System

/-!
# What a piece of the loop's work adds to the history

The history only grows.  For every piece of work this module says which kinds of acts it may add:
beginning a claim, preparing, starting, and ordering a release, a state label or a milestone are
told apart, everything else is taken together.  Work on records neither begins a shutdown nor
touches the reservations of the sweep.
-/

namespace Ben

variable [Platform]

/-- The kinds of acts that are told apart. -/
inductive Act.Kind where
  | claims
  | prepares
  | starts
  | releases
  | projects
  | milestones
  | other
  deriving DecidableEq, Repr

/-- The kind of an effect that comes to be owed. -/
def OwedEffect.kind (eff : OwedEffect) : Act.Kind :=
  match eff.does with
  | .setStateLabels _ _ => .projects
  | .comment _ _ => .milestones
  | .release _ => .releases
  | _ => .other

/-- The kind of an act. -/
def Act.kind : Act → Act.Kind
  | .spawned (.claim _ _) => .claims
  | .spawned (.prepare _ _ _ _) => .prepares
  | .spawned (.start _ _ _ _ _) => .starts
  | .owes _ eff => eff.kind
  | _ => .other

namespace Orchestrator

/-- Work on records: the history grew by acts of these kinds. -/
structure Acted (K : Act.Kind → Prop) (o o' : Orchestrator) : Prop where
  grew : ∃ new, o'.trace = new ++ o.trace ∧ ∀ a ∈ new, K a.kind
  draining : o'.draining = o.draining
  reserved : o'.sweepDisposing = o.sweepDisposing

namespace Acted

variable {K L : Act.Kind → Prop} {o o' o'' : Orchestrator}

lemma of_eq (h : (o'.trace, o'.draining, o'.sweepDisposing) =
    (o.trace, o.draining, o.sweepDisposing)) : Acted K o o' := by
  simp only [Prod.mk.injEq] at h
  exact ⟨⟨[], h.1, fun _ ha => absurd ha List.not_mem_nil⟩, h.2.1, h.2.2⟩

lemma refl (o) : Acted K o o := of_eq rfl

lemma trans (h : Acted K o o') (h' : Acted K o' o'') : Acted K o o'' := by
  obtain ⟨⟨new, heq, hnew⟩, hd, hr⟩ := h
  obtain ⟨⟨new', heq', hnew'⟩, hd', hr'⟩ := h'
  refine ⟨⟨new' ++ new, by rw [heq', heq, List.append_assoc], fun a ha => ?_⟩, hd'.trans hd,
    hr'.trans hr⟩
  exact (List.mem_append.1 ha).elim (hnew' a) (hnew a)

lemma either {c : Prop} [Decidable c] {o1 o2} (hpos : Acted K o o1) (hneg : Acted K o o2) :
    Acted K o (if c then o1 else o2) := by
  split
  · exact hpos
  · exact hneg

lemma maybe {c : Prop} [Decidable c] (h : Acted K o o') : Acted K o (if c then o else o') :=
  either (refl o) h

lemma note {a : Act} (ha : K a.kind) : Acted K o (o.note a) :=
  ⟨⟨[a], rfl, by simpa using ha⟩, rfl, rfl⟩

lemma spawn {w} (hw : K (Act.spawned w).kind) : Acted K o (o.spawn w) :=
  ⟨⟨[.spawned w], rfl, by simpa using hw⟩, rfl, rfl⟩

lemma modify (t) (f : Record → Record) : Acted K o (o.modify t f) := of_eq rfl

/-- Acts piece by piece. -/
lemma foldl {α : Type} {f : Orchestrator → α → Orchestrator} (hf : ∀ o a, Acted K o (f o a))
    (l : List α) : Acted K o (l.foldl f o) := by
  induction l generalizing o with
  | nil => exact refl o
  | cons a l ih => exact (hf o a).trans ih

end Acted

variable {K : Act.Kind → Prop} {o : Orchestrator} {t : Token}

/-! ## Owing -/

lemma acted_enqueue (job) : Acted K o (o.enqueue job).1 := by
  unfold enqueue
  split <;> exact .of_eq rfl

lemma acted_driveOwed : Acted K o (o.driveOwed t) := by
  unfold driveOwed
  dsimp only
  refine .maybe ?_
  split
  · exact .refl _
  · exact .maybe <| (acted_enqueue _).trans (.modify _ _)

lemma acted_oweEffect {eff : OwedEffect} (h : K eff.kind) : Acted K o (o.oweEffect t eff) :=
  ((Acted.modify _ _).trans (.note h)).trans acted_driveOwed

lemma acted_transitionCaused (ho : K .other) (hp : K .projects) (next reason cause) :
    Acted K o (o.transitionCaused t next reason cause).1 := by
  unfold transitionCaused
  dsimp only
  split
  · exact .refl _
  · split
    · exact (Acted.modify _ _).trans (.note ho)
    · exact ((Acted.modify _ _).trans (.note ho)).trans (acted_oweEffect hp)

lemma acted_comment (hm : K .milestones) (c) : Acted K o (o.comment t c) := acted_oweEffect hm

lemma acted_abandonPendingClaimBase (ho : K .other) : Acted K o (o.abandonPendingClaimBase t) :=
  .maybe <| (Acted.modify _ _).trans (acted_oweEffect ho)

lemma acted_release (ho : K .other) (hr : K .releases) (why) : Acted K o (o.release t why) :=
  .maybe <|
    ((Acted.modify _ _).trans (acted_abandonPendingClaimBase ho)).trans (acted_oweEffect hr)

lemma acted_oweEndedCycle (id workspaces ws why) :
    Acted K o (o.oweEndedCycle id workspaces ws why) :=
  .maybe <| .maybe <| .of_eq rfl

/-- A disposal is none of the kinds that are told apart. -/
lemma acted_oweDisposal (ho : K .other) {complete : Workspace → Effect}
    (hkind : ∀ ws, OwedEffect.kind ⟨"dispose workspace", .localSide, false, complete ws⟩ = .other) :
    Acted K o (o.oweDisposal t complete) :=
  .maybe <| (Acted.modify _ _).trans (acted_oweEffect (by rw [hkind]; exact ho))

lemma acted_disposePublished (ho : K .other) : Acted K o (o.disposePublished t) :=
  acted_oweDisposal ho fun _ => rfl

lemma acted_oweRemoteRevocation (ho : K .other) : Acted K o (o.oweRemoteRevocation t).1 :=
  (acted_oweEndedCycle _ _ _ _).trans (.note ho)

lemma acted_disposeRevoked (ho : K .other) (keep : Bool) : Acted K o (o.disposeRevoked t keep) :=
  .either (acted_oweRemoteRevocation ho) <|
    (acted_oweRemoteRevocation ho).trans (acted_oweDisposal ho fun _ => rfl)

/-! ## Recovery -/

lemma acted_adopt (r) : Acted K o (o.adopt r) := .of_eq rfl

lemma acted_forget (id) : Acted K o (o.forget id) := .of_eq rfl

lemma acted_driveHold (ho : K .other) : Acted K o (o.driveHold t) :=
  .maybe <| (Acted.modify _ _).trans (.spawn ho)

lemma acted_beginApproval (ho : K .other) : Acted K o (o.beginApproval t) :=
  .maybe <| (Acted.modify _ _).trans (.spawn ho)

lemma acted_enterBackoff (ho : K .other) (hp : K .projects) (why cause) :
    Acted K o (o.enterBackoff t why cause) :=
  .either (acted_transitionCaused ho hp _ _ _) <|
    ((acted_transitionCaused ho hp _ _ _).trans (.modify _ _)).trans (.spawn ho)

lemma acted_projectRecovery (hp : K .projects) (hm : K .milestones) (facts v) :
    Acted K o (o.projectRecovery t facts v) := by
  unfold projectRecovery
  refine .maybe ?_
  dsimp only
  refine .either (acted_oweEffect hp) ?_
  split
  · exact ((acted_oweEffect hp).trans (.modify _ _)).trans (acted_comment hm _)
  · exact (acted_oweEffect hp).trans (acted_comment hm _)

lemma acted_resumeRecoveredBackoff (ho : K .other) (hp : K .projects) :
    Acted K o (o.resumeRecoveredBackoff t) :=
  .either (acted_transitionCaused ho hp _ _ _) <|
    (acted_transitionCaused ho hp _ _ _).trans (acted_enterBackoff ho hp _ _)

/-- A verdict of recovery begins no claim, prepares nothing and starts nothing. -/
lemma acted_applyRecovery (ho : K .other) (hp : K .projects) (hm : K .milestones) (hr : K .releases)
    (issue facts v cur) : Acted K o (o.applyRecovery issue facts v cur) := by
  have hadopt : ∀ state, Acted K o (o.adoptRecovered issue facts v cur state).1 := fun state =>
    (acted_adopt _).trans (.note ho)
  have hproject : ∀ {o : Orchestrator} {t : Token}, Acted K o (o.projectRecovery t facts v) :=
    acted_projectRecovery hp hm facts v
  unfold applyRecovery
  split
  · exact acted_forget _
  · exact acted_adopt _
  · exact acted_adopt _
  · exact ((hadopt _).trans (.modify _ _)).trans hproject
  · exact (((hadopt _).trans (.modify _ _)).trans hproject).trans (acted_beginApproval ho)
  · exact ((hadopt _).trans hproject).trans (acted_resumeRecoveredBackoff ho hp)
  · exact ((hadopt _).trans (.modify _ _)).trans hproject
  · exact (((hadopt _).trans hproject).trans (acted_disposePublished ho)).trans (acted_driveHold ho)
  · exact ((((hadopt _).trans hproject).trans (acted_abandonPendingClaimBase ho)).trans
      (acted_oweRemoteRevocation ho)).trans (acted_release ho hr _)
  · exact ((((hadopt _).trans hproject).trans (acted_abandonPendingClaimBase ho)).trans
      (acted_disposeRevoked ho _)).trans (acted_release ho hr _)

lemma acted_noteEvidence (ho : K .other) (facts) : Acted K o (o.noteEvidence facts) :=
  .maybe <| .note ho

lemma acted_applyCycleScan (workspaces refs err) (mayClear : Bool) :
    Acted K o (o.applyCycleScan workspaces refs err mayClear).1 := by
  unfold applyCycleScan
  split
  · exact .of_eq rfl
  · have hfold : Acted K o (o.adoptDurableEndedCycles workspaces refs) :=
      .foldl (fun o ref => acted_oweEndedCycle _ _ _ _) refs
    exact hfold.trans (.of_eq rfl)

lemma acted_recoverCandidate (ho : K .other) (hp : K .projects) (hm : K .milestones)
    (hr : K .releases) (issue cur reads) :
    Acted K o (o.recoverCandidate issue cur reads) := by
  unfold recoverCandidate
  split
  · exact acted_adopt _
  · dsimp only
    split
    · exact (acted_noteEvidence ho _).trans (acted_adopt _)
    · exact (acted_noteEvidence ho _).trans (acted_applyRecovery ho hp hm hr _ _ _ _)

end Orchestrator

end Ben
