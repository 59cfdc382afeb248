import Ben.Lib.Runs
import Ben.Orchestrator.Deliver

/-!
# What holds in every run

The invariant of all tenures is established by startup and kept by every step.  What is asked of
the surroundings is stated here: what the tracker and the runner promise of every answer, and,
each for the part of the invariant that needs it, what must be true when certain answers arrive.
-/

namespace Ben

open List

variable [Platform]

/-- Nothing is running for a tenure that never prepared its current attempt. -/
lemma Sound.idle_of_unprepared {m} {v : Tenure} (h : Sound m v) (hp : ¬ v.past.prepared v.gen) :
    v.Idle := by
  have hlaunch : v.launches = 0 := by
    by_contra hne
    exact hp (h.launching (Nat.pos_of_ne_zero hne)).prepared
  refine h.idle_of_handle ?_ hlaunch
  cases hh : v.phase.handle with
  | none => rfl
  | some g => exact absurd (h.handle g hh).2.2.1 hp

namespace Orchestrator

/-! ## What is asked of the surroundings -/

/-- What the surroundings promise of an answer: a start comes back with a handle or with an error
and not with both, a question about an issue is answered about that issue, and the issues the
tracker lists have names. -/
def Honest : Worker → Answer → Prop
  | .start _ _ _ _ _, .start handle err => handle = err.isNone
  | .recover tag _ _, .recover fresh _ => ∀ issue ∈ fresh.issue, issue.identifier = tag.issue
  | .dispatch _, .issues candidates _ => ∀ issue ∈ candidates, issue.identifier ≠ ""
  | .recoveryScan _, .issues candidates _ => ∀ issue ∈ candidates, issue.identifier ≠ ""
  | _, _ => True

/-- A slot is free for the records that go ahead without one being looked for: those that get
their claim base only when they are dispatched again, and those recovery lets go ahead. -/
def Slotted (o : Orchestrator) : Worker → Answer → Prop
  | .claimBase tag _ _ _ _, .claimBase _ _ _ _ _ =>
    (o.heap tag.token).state = .backoff → ¬ o.freeSlots o.definition ≤ 0
  | .recover _ _ cur, .recover fresh reads =>
    match recoveredSignal cur fresh reads with
    | .verdict v _ => v.action = .approve → ¬ o.freeSlots o.definition ≤ 0
    | .failed => True
  | _, _ => True

/-- No record waits, with a verified claim and an epoch, for content that was never pinned. -/
def NoneUnpinned (o : Orchestrator) : Prop :=
  ∀ e ∈ o.records.entries, (o.heap e.2).state = .queued → (o.heap e.2).claimVerified = true →
    0 < (o.heap e.2).claimEpoch → (o.heap e.2).approvedAt ≠ 0

/-- Waiting records are driven only when all of them are pinned, and an approval that is read for
a timer has an instant. -/
def PinsFirst (o : Orchestrator) : Worker → Answer → Prop
  | .reconcile _ _ _ _, .reconcile _ _ => o.NoneUnpinned
  | .timerFetch _ _ _ epoch, .timerFetch fresh history approval base baseErr marker markerErr =>
    let reads := timerReads epoch fresh history approval base baseErr marker markerErr
    match checkApproval reads.history o.definition.requiredLabels reads.approval with
    | .ok a => 0 < a.at_
    | .error _ => True
  | _, _ => True

/-- A workspace that was made has a path. -/
def Pathed : Worker → Answer → Prop
  | .prepare _ _ _ _, .prepare ws _ err _ _ => err = none → ws.path ≠ ""
  | _, _ => True

/-- A run says nothing more once it has said how it ended. -/
def Silent (o : Orchestrator) : Worker → Answer → Prop
  | .pump tag _ _ _, .event _ => ∀ a ∈ o.trace, a.terminates tag.token tag.generation = false
  | _, _ => True

/-- The limits stay as they are. -/
def Input.Steady (limits : Limits) : Input → Prop
  | .adopt next _ => next.definition.limits = limits
  | _ => True

instance (w : Worker) (a : Answer) : Decidable (Honest w a) := by
  unfold Honest
  split <;> infer_instance

instance (o : Orchestrator) (w : Worker) (a : Answer) : Decidable (o.Slotted w a) := by
  unfold Slotted
  split
  · infer_instance
  · split <;> infer_instance
  · infer_instance

instance (o : Orchestrator) : Decidable o.NoneUnpinned :=
  inferInstanceAs (Decidable (∀ e ∈ o.records.entries, _))

instance (o : Orchestrator) (w : Worker) (a : Answer) : Decidable (o.PinsFirst w a) := by
  unfold PinsFirst
  split
  · infer_instance
  · dsimp only
    split <;> infer_instance
  · infer_instance

instance (w : Worker) (a : Answer) : Decidable (Pathed w a) := by
  unfold Pathed
  split <;> infer_instance

instance (o : Orchestrator) (w : Worker) (a : Answer) : Decidable (o.Silent w a) := by
  unfold Silent
  split <;> infer_instance

/-- What is asked of an answer, under a mode. -/
structure Fits (m : Mode) (o : Orchestrator) (w : Worker) (a : Answer) : Prop where
  honest : Honest w a
  slotted : m.capped → o.Slotted w a
  cap : m.capped → o.definition.limits.maxConcurrentAgents = m.cap
  pinsFirst : m.pinned → o.PinsFirst w a
  pathed : m.paths → Pathed w a
  silent : m.frugal → o.Silent w a

variable {m : Mode} {o : Orchestrator} {t : Token} {serial n : Nat} {w : Worker}

/-! ## Startup -/

/-- Nothing is known before startup. -/
lemma blank_initial (cur daemonInstance) (now : Time) (t) :
    ((initial cur daemonInstance now).tenure t).Blank where
  untouched g := ⟨rfl, rfl, rfl, rfl, rfl, rfl, rfl, rfl, rfl, rfl, rfl, rfl, rfl, fun _ => rfl,
    fun _ => rfl⟩
  awaited := rfl
  prepared g := fun ⟨_, ha, _⟩ => absurd ha not_mem_nil
  live := rfl
  pin := rfl
  approval := rfl
  published := fun ⟨_, ha, _⟩ => absurd ha not_mem_nil
  startedPinned := trivial
  reliedWhenFree := trivial
  publishedCertified _ _ := trivial
  starts := rfl
  startedWithin _ := trivial
  spent := rfl
  overrun _ := id
  startedFrugally _ := trivial
  attached := by simp [tenure, Has, initial]
  exits := by simp [tenure, ExitOwed, initial]

lemma good_initial (cur : Snapshot) (daemonInstance) (now : Time)
    (hlimits : m.rationed ∨ m.frugal → cur.definition.limits = m.limits) :
    Good m (initial cur daemonInstance now).view where
  sound t := (blank_initial cur daemonInstance now t).begin (A := _) (R := _) (E := _)
    ⟨rfl, rfl, rfl, rfl, rfl, rfl, rfl, le_refl _, rfl, .inl rfl,
      fun hu => absurd hu Bool.false_ne_true, rfl, ⟨le_refl _, le_refl _⟩, rfl, rfl⟩
    (fun he => absurd he (blank_initial cur daemonInstance now t).exits)
    (fun ha => absurd ha (blank_initial cur daemonInstance now t).attached) nofun hlimits
  blank t _ := blank_initial cur daemonInstance now t
  keyed _ he := absurd he not_mem_nil
  named _ he := absurd he not_mem_nil

/-- Where no preparation is in the history, nothing is running. -/
lemma idle_of_acted {o0 : Orchestrator} (htrace : o0.trace = [])
    (hacted : Acted (· ≠ .prepares) o0 o) (h : Good m o.view) (t) : (o.tenure t).Idle := by
  refine (h.sound t).idle_of_unprepared fun ⟨a, ha, hprep⟩ => ?_
  obtain ⟨new, heq, hnew⟩ := hacted.grew
  rw [heq, htrace, append_nil] at ha
  refine hnew a ha ?_
  cases a <;> first | rfl | cases hprep | skip
  rename_i w
  cases w <;> first | rfl | simp [Act.prepares] at hprep

/-- Startup keeps the cap if a slot is free whenever a claim is let go ahead. -/
def BootSlotted (cur : Snapshot) (reads : StartupReads) (o : Orchestrator)
    (candidates : List Issue) : Prop :=
  ∀ before issue after, candidates = before ++ issue :: after →
    ∀ v facts, recoveryVerdictOf issue cur (reads.facts issue.identifier) = .ok (v, facts) →
      v.action = .approve →
        ¬ (before.foldl (fun o issue =>
          o.recoverCandidate issue cur (reads.facts issue.identifier)) o).freeSlots
            cur.definition ≤ 0

lemma keeps_recoverCandidates (hq : ¬ m.queued) {o0 : Orchestrator} (htrace : o0.trace = [])
    (hfree : o0.sweepDisposing = []) (cur : Snapshot) (reads : StartupReads)
    (hcap : m.capped → cur.definition.limits.maxConcurrentAgents = m.cap) {candidates : List Issue}
    (hnames : ∀ issue ∈ candidates, issue.identifier ≠ "") (hacted : Acted (· ≠ .prepares) o0 o)
    (h : Good m o.view) (hslot : m.capped → BootSlotted cur reads o candidates) :
    Keeps m o.view (candidates.foldl (fun o issue =>
      o.recoverCandidate issue cur (reads.facts issue.identifier)) o).view := by
  induction candidates generalizing o with
  | nil => exact .refl h
  | cons issue rest ih =>
    have hone :
        Keeps m o.view (o.recoverCandidate issue cur (reads.facts issue.identifier)).view := by
      refine keeps_recoverCandidate hq h issue cur _ (fun t _ => idle_of_acted htrace hacted h t)
        (hnames issue (.head _)) ?_ fun hc v facts hverdict happrove => ?_
      · rw [hacted.reserved, hfree]
        exact not_mem_nil
      · rw [← hcap hc]
        exact slots_lt_of_freeSlots (hslot hc [] issue rest rfl v facts hverdict happrove)
    refine hone.trans (ih (fun i hi => hnames i (.tail _ hi))
      (hacted.trans (acted_recoverCandidate (by decide) (by decide) (by decide) (by decide) _ _ _))
      hone.good fun hc => ?_)
    intro before i after heq
    exact hslot hc (issue :: before) i after (by rw [heq]; rfl)

/-- The ended cycles are read first. -/
def readEndedCycles (o : Orchestrator) (reads : StartupReads) : Orchestrator :=
  if o.cur.runtime.workspaces.endedCycleSource then
    (o.applyCycleScan o.cur.runtime.workspaces reads.endedCycles reads.endedCyclesErr true).1
  else { o with cycleScanFailed := false }

/-- The candidates are recovered one by one, unless the claims or the ended cycles could not be
read. -/
lemma view_recover (o : Orchestrator) (reads : StartupReads) :
    (o.recover reads).view = (o.readEndedCycles reads).view ∨
      ∃ candidates, reads.candidates = .ok candidates ∧
        (o.recover reads).view = (candidates.foldl (fun o' issue =>
          o'.recoverCandidate issue o.cur (reads.facts issue.identifier))
            (o.readEndedCycles reads)).view := by
  unfold recover readEndedCycles
  dsimp only
  cases hcandidates : reads.candidates with
  | error e => exact .inl rfl
  | ok candidates =>
    dsimp only
    split
    · exact .inl rfl
    · exact .inr ⟨_, rfl, rfl⟩

/-- What is asked of the reads of a startup, under a mode: the candidates have names, and, for the
cap, a slot is free for each of them that is let go ahead. -/
structure BootFits (m : Mode) (cur : Snapshot) (o : Orchestrator) (reads : StartupReads) :
    Prop where
  named : ∀ candidates, reads.candidates = .ok candidates →
    ∀ issue ∈ candidates, issue.identifier ≠ ""
  slotted : m.capped → ∀ candidates, reads.candidates = .ok candidates →
    BootSlotted cur reads (o.readEndedCycles reads) candidates
  cap : m.capped → cur.definition.limits.maxConcurrentAgents = m.cap
  limits : m.rationed ∨ m.frugal → cur.definition.limits = m.limits

/-- Startup establishes the invariant. -/
lemma keeps_boot (hq : ¬ m.queued) (cur daemonInstance) (now : Time) (reads)
    (hfits : BootFits m cur (initial cur daemonInstance now) reads) :
    Keeps m (initial cur daemonInstance now).view (boot cur daemonInstance now reads).view := by
  have hgood := good_initial (m := m) cur daemonInstance now hfits.limits
  have hview : ((initial cur daemonInstance now).readEndedCycles reads).view =
      (initial cur daemonInstance now).view := view_ite (fun _ => by simp) fun _ => rfl
  have hacted : Acted (· ≠ .prepares) (initial cur daemonInstance now)
      ((initial cur daemonInstance now).readEndedCycles reads) :=
    .either (acted_applyCycleScan _ _ _ _) <| .of_eq rfl
  obtain hview' | ⟨candidates, hcandidates, hview'⟩ :=
    view_recover (initial cur daemonInstance now) reads
  · show Keeps m _ ((initial cur daemonInstance now).recover reads).view
    rw [hview', hview]
    exact .refl hgood
  · show Keeps m _ ((initial cur daemonInstance now).recover reads).view
    rw [hview']
    have hslotted := fun hc => hfits.slotted hc _ hcandidates
    generalize (initial cur daemonInstance now).readEndedCycles reads = o1
      at hview hacted hslotted ⊢
    rw [← hview] at hgood ⊢
    exact keeps_recoverCandidates hq rfl rfl cur reads hfits.cap (hfits.named _ hcandidates) hacted
      hgood hslotted

/-! ## Answers -/

/-- A verification comes back: the verifier's own answer is in the history before the record hears
of it. -/
lemma keeps_verifyAnswered {tag : Tag} {issue ws principal}
    (hfind : o.found serial = some (n, .verify tag issue ws principal))
    (h : Good m o.view) (s : VerifySignal) :
    Keeps m o.view ((if s.answered then
        (o.dropWorker serial).note (.verifier tag.issue ws s.verify.verdict)
      else o.dropWorker serial).forRecord tag true (·.onVerified · s)).view := by
  have hs := h.sound tag.token
  have hdrop : Keeps m o.view (o.dropWorker serial).view := keeps_dropWorker hfind h nofun
  have hsound := sound_dropWorker_of_duty hfind (d := .verify) rfl hs
  have hnoted : Keeps m (o.dropWorker serial).view (if s.answered then
      (o.dropWorker serial).note (.verifier tag.issue ws s.verify.verdict)
      else o.dropWorker serial).view :=
    keeps_ite (fun _ => keeps_note_verifier hdrop.good _ _ _) fun _ => .refl hdrop.good
  obtain ⟨C, htenure, hcert⟩ : ∃ C, (if s.answered then
      (o.dropWorker serial).note (.verifier tag.issue ws s.verify.verdict)
      else o.dropWorker serial).tenure tag.token =
        { (o.dropWorker serial).tenure tag.token with
          past := { ((o.dropWorker serial).tenure tag.token).past with certified := C } } ∧
      ((∀ id ws', ((o.dropWorker serial).tenure tag.token).past.certified id ws' → C id ws') ∧
        (s.answered → s.verify.verdict = .published → C tag.issue ws)) := by
    by_cases hanswered : s.answered
    · simp only [hanswered, if_true, tenure_note_verifier]
      exact ⟨_, rfl, fun _ _ => .inr, fun _ hpub => .inl (by rw [hpub])⟩
    · simp only [hanswered, if_false, Bool.false_eq_true]
      exact ⟨_, rfl, fun _ _ hc => hc, fun ha => absurd ha (by simp)⟩
  have hkeeps := hdrop.trans hnoted
  refine keeps_forRecord hkeeps fun hhas hgen => hkeeps.trans (keeps_of_moves hkeeps.good
    (attached_of_has hkeeps.good hhas) ?_)
  generalize (if s.answered then
      (o.dropWorker serial).note (.verifier tag.issue ws s.verify.verdict)
      else o.dropWorker serial) = o1 at htenure hkeeps hhas hgen ⊢
  have hphase : (o1.heap tag.token).phase = (o.heap tag.token).phase :=
    congrArg Tenure.phase htenure
  have hgen' : tag.generation = (o1.tenure tag.token).gen := hgen rfl
  refine moves_onVerified ?_ s fun hanswered hpub => ?_
  · rw [Tenure.sent, ← hgen', htenure]
    exact hsound.certify hcert.1
  · have hid : (o1.tenure tag.token).phase.id = tag.issue :=
      hkeeps.good.keyed _ (mem_entries_of_has hhas)
    have hws : ws = (o1.tenure tag.token).phase.workspace := by
      have hstray := (not_stray_of_duty hfind (d := .verify) rfl hs).1
      have hcurrent : (o.heap tag.token).generation = tag.generation :=
        (congrArg Phase.generation hphase).symm.trans hgen'.symm
      have hsame : ws = (o.heap tag.token).workspace := by
        simpa [Worker.strayVerify, hcurrent] using hstray
      exact hsame.trans (congrArg Phase.workspace hphase).symm
    have hcertified : (o1.tenure tag.token).past.certified = C := by rw [htenure]
    rw [hcertified, hid, ← hws]
    exact hcert.2 hanswered hpub

/-- The completion of an owed effect is reported. -/
lemma keeps_effectDone {tag what err} (hfind : o.found serial = some (n, .effectDone tag what err))
    (h : Good m o.view) :
    Keeps m o.view
      ((o.dropWorker serial).forRecord tag false (·.onEffectDone · what err)).view := by
  have hdrop : Keeps m o.view (o.dropWorker serial).view := keeps_dropWorker hfind h nofun
  refine keeps_forRecord hdrop fun hhas _ => hdrop.trans (keeps_onEffectDone hdrop.good
    (attached_of_has hdrop.good hhas) (fun hexit => ?_) err)
  have howed : o.ExitOwed tag.token := exitOwed_of_find hfind (by simp [Worker.exits, hexit])
  have hidle := ((h.sound tag.token).exit howed).1
  have hout := outstanding_dropWorker hfind tag.token
  rw [outstanding_cons_of_other _ _ fun _ _ hd => by simp [Worker.duty] at hd] at hout
  unfold Tenure.Idle at hidle ⊢
  rw [tenure_dropWorker, ← hout]
  exact hidle

/-- The classification of a retained claim comes back. -/
lemma keeps_recoverAnswered (hq : ¬ m.queued) {tag : Tag} {revision : Nat} {cur}
    (hfind : o.found serial = some (n, .recover tag revision cur))
    (h : Good m o.view) {fresh : RefreshResult} (reads)
    (hfresh : ∀ issue ∈ fresh.issue, issue.identifier = tag.issue)
    (hslot : m.capped → ∀ v facts, recoveredSignal cur fresh reads = .verdict v facts →
      v.action = .approve → (o.view.slots : Int) < m.cap) :
    Keeps m o.view (((o.dropWorker serial).noteRecoveryEvidence cur fresh reads).forRecord tag false
      (·.onRecovered · revision (recoveredSignal cur fresh reads))).view := by
  have hdrop : Keeps m o.view (o.dropWorker serial).view := keeps_dropWorker hfind h nofun
  have hnoted := hdrop.trans (keeps_noteRecoveryEvidence hdrop.good cur fresh reads)
  refine keeps_forRecord hnoted fun hhas _ => hnoted.trans (keeps_onRecovered hq hnoted.good
    (attached_of_has hnoted.good hhas) revision _
      (sound_recoveredSignal _ cur reads fun issue hi => ?_)
    fun hc v facts hv happrove => ?_)
  · rw [hfresh issue hi]
    exact (hnoted.good.keyed _ (mem_entries_of_has hhas)).symm
  · rw [slots_noteRecoveryEvidence]
    exact hslot hc v facts hv happrove

/-- Pinning everything that waits makes the stronger invariant hold. -/
lemma good_queued (h : Good m o.view) (hnone : o.NoneUnpinned) :
    Good { m with queued := True } o.view :=
  ⟨fun t => { h.sound t with
    queued := fun _ hatt hstate hver hepoch => by
      have hat : (o.heap t).approvedAt ≠ 0 := hnone _ (mem_entries_of_has hatt) hstate hver hepoch
      cases hpin : (o.tenure t).past.pin with
      | none => exact absurd ((h.sound t).unpinned hpin) hat
      | some a => exact ⟨a, hpin⟩ }, h.blank, h.keyed, h.named⟩

/-- The reads of a reconciliation come back. -/
lemma keeps_reconcileAnswered (hq : ¬ m.queued) (h : Good m o.view)
    (hnone : m.pinned → o.NoneUnpinned) (orders) (refreshed : List (String × RefreshResult))
    (parked sweep) :
    Keeps m o.view (o.onReconciled orders refreshed parked sweep).view := by
  by_cases hp : m.pinned
  · have hkeeps := keeps_onReconciled (m := { m with queued := True }) (fun _ => trivial)
      (good_queued h (hnone hp)) orders refreshed parked sweep
    refine ⟨⟨fun t => ?_, hkeeps.good.blank, hkeeps.good.keyed, hkeeps.good.named⟩, hkeeps.slots⟩
    exact { hkeeps.good.sound t with queued := fun hm => absurd hm hq }
  · exact keeps_onReconciled (fun hm => absurd hm hp) h orders refreshed parked sweep

/-- The answer of any worker keeps the invariant. -/
lemma keeps_answered (hq : ¬ m.queued) (h : Good m o.view)
    (hfind : o.found serial = some (n, w)) {a} (hfits : Fits m o w a)
    (orders) {o' : Orchestrator} (hanswered : (o.dropWorker serial).answered w a orders = some o') :
    Keeps m o.view o'.view := by
  have hside : (∀ tag, w.duty ≠ some (.start, tag)) → Keeps m o.view (o.dropWorker serial).view :=
    keeps_dropWorker hfind h
  have hquiet : (∀ tag, w.duty ≠ some (.start, tag)) → ∀ {o' : Orchestrator},
      o'.view = (o.dropWorker serial).view → Keeps m o.view o'.view := fun hw _ hview =>
    (hside hw).trans (keeps_of_view hview (hside hw).good)
  unfold answered at hanswered
  split at hanswered
  all_goals try obtain rfl := Option.some.inj hanswered
  · -- a claim
    exact keeps_answer hfind rfl (by decide) h rfl fun hgood hatt hs =>
      keeps_onClaimed hgood hatt hs _ _
  · -- the facts of an approval
    exact keeps_answer_moves hfind rfl (by decide) h fun _ _ hs => moves_onApproved hs _ _ _ _ _
  · -- a claim base, with a reading of the directory if it was asked for
    rename_i tag _ _ workspaces cycleSeq err cycles cyclesErr base baseErr
    have hslot : m.capped → (o.heap tag.token).state = .backoff → (o.view.slots : Int) < m.cap :=
      fun hc hstate => hfits.cap hc ▸ slots_lt_of_freeSlots (hfits.slotted hc hstate)
    cases cycleSeq with
    | none =>
      obtain rfl := Option.some.inj hanswered
      exact keeps_answer_moves hfind rfl (by decide) h fun hgood hatt hs =>
        moves_onClaimBaseBegun hs hgood.keyed hatt hslot _ _ _ _
    | some seq =>
      obtain rfl := Option.some.inj hanswered
      have hview := view_claimBaseScan (o.dropWorker serial) workspaces cycles cyclesErr seq
      refine keeps_answer hfind rfl (by decide) h hview fun hgood hatt hs =>
        keeps_of_moves hgood hatt
        (moves_onClaimBaseBegun hs hgood.keyed hatt (fun hc hstate => ?_) _ _ _ _)
      rw [hview]
      refine hslot hc (Eq.trans ?_ hstate)
      exact (congrArg (fun v : Tenure => v.phase.state) (tenure_of_view hview tag.token)).symm
  · -- a preparation
    exact keeps_answer_moves hfind rfl (by decide) h fun _ _ hs =>
      moves_onPrepared hs _ _ _ _ _ hfits.pathed
  · -- a start
    exact keeps_startAnswered hfind h hfits.honest
  · -- a probe
    exact keeps_terminated hfind rfl (by decide)
      (fun id hr => by simpa [Worker.strayRun] using hr) h
      fun o1 hs hfree => moves_onProbed hs hfree
  · -- a stop
    refine keeps_terminated hfind rfl (by decide)
      (fun id hr => by simpa [Worker.strayRun] using hr) h
      fun o1 hs hfree => ?_
    exact moves_onStopped (hs.came (by decide)) hs.came_stop hfree
  · -- the loop's own word that there was nothing to stop
    refine keeps_answer_moves hfind rfl (by decide) h fun _ _ hs => ?_
    obtain ⟨hhandle, hhalted⟩ := hs.came_selfStop
    exact moves_onStopped (hs.came (by decide)) hhalted fun _ =>
      ((hs.came (by decide)).idle_of_handle hhandle hhalted.launches).2.2
  · -- the account of an attempt
    exact keeps_answer_moves hfind rfl (by decide) h fun _ _ hs => moves_onSummarized hs _ _
  · -- a timer
    exact keeps_answer_moves hfind rfl (by decide) h fun _ _ hs => moves_onTimer hs _
  · -- the reads of a fired timer
    refine keeps_answer_moves hfind rfl (by decide) h fun hgood hatt hs =>
      moves_onTimerFetched hs hgood.keyed hfits.cap hatt _ _ _ _ _ fun hp a hcheck => ?_
    have hpins := hfits.pinsFirst hp
    change checkApproval _ o.definition.requiredLabels _ = .ok a at hcheck
    simp only [PinsFirst, hcheck] at hpins
    exact hpins
  · -- a verification
    exact keeps_verifyAnswered hfind h _
  · -- an owed effect
    exact keeps_effectDone hfind h
  · -- whether an effect is still owed
    have hdrop := hside (by rintro _ ⟨⟩)
    exact keeps_forRecord hdrop fun hhas _ => hdrop.trans (keeps_of_moves hdrop.good
      (attached_of_has hdrop.good hhas) (moves_onOwedConfirmed (hdrop.good.sound _) _))
  · -- the epoch a finished record stands under
    have hdrop := hside (by rintro _ ⟨⟩)
    exact keeps_forRecord hdrop fun hhas _ => hdrop.trans (keeps_onClaimAnchor hdrop.good
      (attached_of_has hdrop.good hhas) _ _ _ _ _)
  · -- whether a finished record's claim still stands
    have hdrop := hside (by rintro _ ⟨⟩)
    exact keeps_forRecord hdrop fun hhas _ => hdrop.trans (keeps_onDoneOwnership hdrop.good
      (attached_of_has hdrop.good hhas) _)
  · -- whether a parked record is still parked
    have hdrop := hside (by rintro _ ⟨⟩)
    exact keeps_forRecord hdrop fun hhas _ => hdrop.trans (keeps_of_moves hdrop.good
      (attached_of_has hdrop.good hhas) (moves_onParkedConfirmed (hdrop.good.sound _) _ _))
  · -- the classification of a retained claim
    rename_i cur _ fresh reads _ _
    refine keeps_recoverAnswered hq hfind h _ hfits.honest fun hc v facts hv happrove => ?_
    have hslotted := hfits.slotted hc
    simp only [Slotted, hv] at hslotted
    rw [← hfits.cap hc]
    exact slots_lt_of_freeSlots (hslotted happrove)
  · -- held claims
    exact hquiet (by rintro _ ⟨⟩) (view_onHeldConfirmed _ _ _ _)
  · exact hquiet (by rintro _ ⟨⟩) (view_onHeldHistory _ _ _ _ _ _ _ _ _)
  · exact hquiet (by rintro _ ⟨⟩) (view_onHeldReleased _ _ _ _)
  · -- a reconciliation
    have hdrop := hside (by rintro _ ⟨⟩)
    exact hdrop.trans (keeps_reconcileAnswered hq hdrop.good hfits.pinsFirst _ _ _ _)
  · -- the candidates of a dispatch
    have hdrop := hside (by rintro _ ⟨⟩)
    exact hdrop.trans (keeps_onTickResult _ _ _ hfits.cap hdrop.good hfits.honest)
  · -- ended cycles and markers
    exact hquiet (by rintro _ ⟨⟩) (view_onCycleScan _ _ _ _ _)
  · exact hquiet (by rintro _ ⟨⟩) (view_onCycleDisposed _ _ _)
  · exact hquiet (by rintro _ ⟨⟩) (view_onMarkerCleared _ _ _)
  · -- the claims the principal holds
    have hdrop := hside (by rintro _ ⟨⟩)
    exact hdrop.trans (keeps_onRecoveryScan hdrop.good _ hfits.honest _ _)
  · -- a pass of the sweep
    exact hquiet (by rintro _ ⟨⟩) (view_onSwept _ _)
  · cases hanswered

/-! ## Reports -/

section

variable (hfind : o.found serial = some (n, w))

include hfind

/-- A worker that goes on as before is not seen. -/
lemma view_setWorker {w' : Worker} (hduty : w'.duty = w.duty)
    (hverify : ∀ ws t g, w'.strayVerify ws t g = w.strayVerify ws t g)
    (hrun : ∀ id t g, w'.strayRun id t g = w.strayRun id t g)
    (hexits : ∀ t, w'.exits t = w.exits t) : (o.setWorker serial w').view = o.view := by
  refine view_congr rfl rfl fun t => ?_
  have hout : outstanding t (o.setWorker serial w').workers = outstanding t o.workers := by
    rw [outstanding_dropWorker hfind t]
    change outstanding t ((serial, w') :: (o.dropWorker serial).workers) = _
    simp only [outstanding, countP_cons, Worker.is, Worker.awaits, hduty, hverify, hrun]
  have hexit : (o.setWorker serial w').ExitOwed t = o.ExitOwed t := by
    have hcount := countP_eq_eraseP (p := fun e : Nat × Worker => e.2.exits t) hfind
    have hsame : (∃ e ∈ (o.setWorker serial w').workers, e.2.exits t) ↔
        ∃ e ∈ o.workers, e.2.exits t := by
      rw [← countP_pos_iff (p := fun e : Nat × Worker => e.2.exits t),
        ← countP_pos_iff (p := fun e : Nat × Worker => e.2.exits t), hcount]
      change 0 < List.countP _ ((serial, w') :: o.workers.eraseP _) ↔ _
      rw [countP_cons, hexits]
    unfold ExitOwed
    rw [hsame]
    rfl
  simp only [tenure, hout, hexit]
  rfl

end

/-- The stream of a run is closed, and the record at that attempt is told. -/
lemma keeps_closed {tag handle} {sawTerminal : Bool}
    (hfind : o.found serial = some (n, .pump tag handle sawTerminal false)) (h : Good m o.view) :
    Keeps m o.view ((o.setWorker serial (.pump tag handle sawTerminal true)).forRecord tag true
      (·.onEventsClosed · sawTerminal)).view := by
  have hs := sound_dropWorker_of_duty hfind (d := .pump) rfl (h.sound tag.token)
  have hout : ((o.setWorker serial (.pump tag handle sawTerminal true)).tenure tag.token).out =
      ((o.dropWorker serial).tenure tag.token).out.add .drain tag.generation :=
    outstanding_cons_of_plain _ _ (d := .drain) rfl rfl (fun _ _ => rfl) fun _ _ => rfl
  have hview : (o.setWorker serial (.pump tag handle sawTerminal true)).view =
      (o.dropWorker serial).view.set tag.token
        { (o.dropWorker serial).tenure tag.token with
          out := ((o.dropWorker serial).tenure tag.token).out.add .drain tag.generation } := by
    have hexits : ∀ t, (o.setWorker serial (.pump tag handle sawTerminal true)).ExitOwed t =
        (o.dropWorker serial).ExitOwed t := fun t => by
      simp [ExitOwed, setWorker, dropWorker, Worker.exits]
    refine view_eq_set rfl rfl ?_ fun t ht => ?_
    · rw [← hout]
      simp only [tenure, hexits]
      rfl
    · have hother : outstanding t (o.setWorker serial (.pump tag handle sawTerminal true)).workers =
          outstanding t (o.dropWorker serial).workers :=
        outstanding_cons_of_other _ _ fun d' tag' hd' => by
          cases hd'
          exact Ne.symm ht
      simp only [tenure, hexits, hother]
      rfl
  have hdrop : Keeps m o.view (o.dropWorker serial).view :=
    keeps_dropWorker hfind h fun tag' hd' => by simp [Worker.duty] at hd'
  have hset : Keeps m o.view (o.setWorker serial (.pump tag handle sawTerminal true)).view :=
    hdrop.trans (Moves.keeps (t := tag.token) (.of_set hview hs.close rfl id) hdrop.good
      (born_of_duty (o := o) hfind (d := .pump) rfl h))
  refine keeps_forRecord hset fun hhas hgen => hset.trans (keeps_of_moves hset.good
    (attached_of_has hset.good hhas) ?_)
  have hgen' : tag.generation =
      ((o.setWorker serial (.pump tag handle sawTerminal true)).tenure tag.token).gen := hgen rfl
  refine moves_onEventsClosed ((o.dropWorker serial).tenure tag.token).out ?_ ?_ _
  · rw [← hgen', hout]
  · have htenure := congrArg (fun V : View => V.tenure tag.token) hview
    simp only [View.set_tenure_self, view_tenure] at htenure
    rw [← hgen', htenure]
    exact hs

/-- What the history says of an event. -/
lemma view_note_emitted (o : Orchestrator) (tag : Tag) (e) :
    (o.note (.emitted tag e)).view = o.view.update tag.token fun v =>
      { v with past := { v.past with
        terminal := fun g => (Act.emitted tag e).terminates tag.token g ∨
          v.past.terminal g } } := by
  exact view_note_update (t := tag.token) (f := fun p => { p with
    terminal := fun g => (Act.emitted tag e).terminates tag.token g ∨ p.terminal g }) o
    (fun _ => rfl) (by rw [past_cons]; simp [past])

/-- What a worker says while it stays out keeps the invariant. -/
lemma keeps_reported (h : Good m o.view) (hfind : o.found serial = some (n, w)) {a}
    (hsilent : m.frugal → o.Silent w a) {o' : Orchestrator}
    (hreported : o.reported serial w a = some o') :
    Keeps m o.view o'.view := by
  unfold reported at hreported
  split at hreported
  all_goals try obtain rfl := Option.some.inj hreported
  · -- an event of a run
    rename_i tag handle sawTerminal e
    have hemitted := view_note_emitted o tag e
    have hnoted : Keeps m o.view (o.note (.emitted tag e)).view :=
      Moves.keeps (t := tag.token) (.of_set hemitted ((h.sound _).hear fun _ => .inr) rfl id) h
        (born_of_duty (o := o) hfind (d := .pump) rfl h)
    have hheard : m.frugal → e.type = .usage →
        ¬ ((o.note (.emitted tag e)).tenure tag.token).past.terminal tag.generation := by
      intro hm htype
      rw [tenure_of_update hemitted]
      rintro (hthis | ⟨a, ha, hterm⟩)
      · simp [Act.terminates, htype] at hthis
      · cases (hsilent hm a ha).symm.trans hterm
    have hterm : m.frugal → e.type = .succeeded →
        ((o.note (.emitted tag e)).tenure tag.token).past.terminal tag.generation := by
      intro _ htype
      rw [tenure_of_update hemitted]
      exact .inl (by simp [Act.terminates, htype])
    have hview : ((o.note (.emitted tag e)).setWorker serial (.pump tag handle
        (sawTerminal || e.type == .succeeded || e.type == .failed) false)).view =
        (o.note (.emitted tag e)).view :=
      view_setWorker (o := o.note (.emitted tag e)) hfind rfl (fun _ _ _ => rfl) (fun _ _ _ => rfl)
        fun _ => rfl
    have hpump : 0 < ((o.note (.emitted tag e)).tenure tag.token).out.pumps tag.generation := by
      have hout := outstanding_dropWorker hfind tag.token
      rw [outstanding_cons_of_duty (d := .pump) _ _ rfl rfl] at hout
      change 0 < (outstanding tag.token o.workers).pumps tag.generation
      rw [hout]
      simp [Out.add]
    generalize o.note (.emitted tag e) = o0 at hnoted hheard hterm hview hpump ⊢
    generalize o0.setWorker serial (.pump tag handle _ false) = o1 at hview ⊢
    rw [← tenure_of_view hview] at hheard hterm hpump
    rw [← hview] at hnoted
    refine hnoted.trans (keeps_forRecord (.refl hnoted.good) fun hhas hgen =>
      keeps_of_moves hnoted.good (attached_of_has hnoted.good hhas) ?_)
    have hgen' : tag.generation = (o1.tenure tag.token).gen := hgen rfl
    rw [hgen'] at hheard hterm hpump
    exact moves_onRunEvent (hnoted.good.sound _) hpump e hheard hterm
  · -- the end of a stream
    exact keeps_closed hfind h
  · -- the end of a run
    exact keeps_answer_moves hfind rfl (by decide) h fun hgood _ _ =>
      moves_onHandleDone (hgood.sound _)
  · -- a reservation is asked for
    rename_i plan id
    have hgrant := keeps_grantDisposal h id
    refine keeps_ite (fun _ => ?_) fun _ => hgrant
    have hworkers : (o.grantDisposal id).1.workers = o.workers := by
      unfold grantDisposal
      split <;> rfl
    refine hgrant.trans (keeps_of_view (view_setWorker (n := n) (w := .sweep plan none) ?_ rfl
      (fun _ _ _ => rfl) (fun _ _ _ => rfl) fun _ => rfl) hgrant.good)
    rw [found, hworkers]
    exact hfind
  · -- a reservation is given back
    rename_i plan id
    have hrelease := keeps_onSweepRelease h id
    exact hrelease.trans (keeps_of_view (view_setWorker (o := o.onSweepRelease id) (n := n)
      (w := .sweep plan (some id)) hfind rfl (fun _ _ _ => rfl) (fun _ _ _ => rfl) fun _ => rfl)
      hrelease.good)
  · cases hreported

/-! ## Steps and runs -/

/-- A condition on answers, asked of an input: what it answers is judged by the worker that is
out. -/
def Meets (P : Orchestrator → Worker → Answer → Prop) (o : Orchestrator) : Input → Prop
  | .answer serial a _ => ∀ e ∈ o.workers.find? (fun e => e.1 == serial), P o e.2 a
  | _ => True

instance (P : Orchestrator → Worker → Answer → Prop) [∀ o w a, Decidable (P o w a)]
    (o : Orchestrator) (i : Input) : Decidable (Meets P o i) := by
  unfold Meets
  split <;> infer_instance

lemma Meets.mono {P Q : Orchestrator → Worker → Answer → Prop} (h : ∀ o w a, P o w a → Q o w a) {i}
    (hP : Meets P o i) : Meets Q o i := by
  cases i <;> first | trivial | exact fun e he => h _ _ _ (hP e he)

lemma keeps_deliver (hq : ¬ m.queued) (h : Good m o.view) {a orders}
    (hfits : Meets (Fits m) o (.answer serial a orders)) {o' : Orchestrator}
    (hdeliver : o.deliver serial a orders = some o') : Keeps m o.view o'.view := by
  unfold deliver at hdeliver
  cases hfind : o.workers.find? (fun e => e.1 == serial) with
  | none => simp [hfind] at hdeliver
  | some e =>
    obtain ⟨n, w⟩ := e
    rw [hfind] at hdeliver
    dsimp only at hdeliver
    cases hreported : o.reported serial w a with
    | some o1 =>
      rw [hreported] at hdeliver
      cases hdeliver
      exact keeps_reported h hfind (hfits _ hfind).silent hreported
    | none =>
      rw [hreported] at hdeliver
      exact keeps_answered hq h hfind (hfits _ hfind) orders hdeliver

/-- Another configuration is seen by its limits. -/
lemma keeps_onAdopt (h : Good m o.view) (next : Bundle)
    (hlimits : m.rationed ∨ m.frugal → next.definition.limits = m.limits) :
    Keeps m o.view (o.onAdopt next).view := by
  refine keeps_guard h fun _ => ?_
  exact ⟨⟨fun t => { h.sound t with limits := hlimits }, fun t ht => { h.blank t ht with },
    h.keyed, h.named⟩, fun _ => le_max_left _ _⟩

/-- Every step keeps the invariant. -/
theorem keeps_step (hq : ¬ m.queued) (h : Good m o.view) {i : Input} (hfits : Meets (Fits m) o i)
    (hsteady : m.rationed ∨ m.frugal → i.Steady m.limits) {o' : Orchestrator}
    (hstep : o.step i = some o') : Keeps m o.view o'.view := by
  cases i
  all_goals try cases hstep
  case tick orders =>
    have htick := keeps_onTick h orders
    exact htick.trans (keeps_driveShutdown htick.good _)
  case answer serial a orders =>
    simp only [step, Option.map_eq_some_iff] at hstep
    obtain ⟨o1, hdeliver, rfl⟩ := hstep
    have hkeeps := keeps_deliver hq h hfits hdeliver
    exact hkeeps.trans (keeps_driveShutdown hkeeps.good _)
  case runEffect err => exact keeps_of_view (view_runEffect hstep) h
  case shutdown orders =>
    have hshut := keeps_onShutdown h orders
    exact hshut.trans (keeps_driveShutdown hshut.good _)
  case adopt next orders =>
    have hadopt := keeps_onAdopt h next hsteady
    exact hadopt.trans (keeps_driveShutdown hadopt.good _)
  case block blocked => exact keeps_of_view rfl h
  case pass n => exact keeps_of_view rfl h

/-- The invariant holds, and the slots are within the cap, in every state of a run. -/
theorem good_of_run (hq : ¬ m.queued) {cur : Snapshot} {daemonInstance : String} {now : Time}
    {reads : StartupReads} (hboot : BootFits m cur (initial cur daemonInstance now) reads)
    {inputs : List Input}
    (halong : Runs.Along step (fun o i => Meets (Fits m) o i ∧
      (m.rationed ∨ m.frugal → i.Steady m.limits)) (boot cur daemonInstance now reads) inputs)
    {o' : Orchestrator}
    (hrun : Runs.run step (boot cur daemonInstance now reads) inputs = some o') :
    Good m o'.view ∧ (m.capped → (o'.view.slots : Int) ≤ max 0 m.cap) := by
  have hstart := keeps_boot hq cur daemonInstance now reads hboot
  refine Runs.invariant (P := fun o : Orchestrator => Good m o.view ∧
    (m.capped → (o.view.slots : Int) ≤ max 0 m.cap)) (fun o i o1 ⟨hgood, hslots⟩ hfits hstep => ?_)
    ⟨hstart.good, fun hc => hstart.slots hc⟩ halong hrun
  have hkeeps := keeps_step hq hgood hfits.1 hfits.2 hstep
  exact ⟨hkeeps.good, fun hc => (hkeeps.slots hc).trans
    (max_le (hslots hc) (le_max_right _ _))⟩

end Orchestrator

end Ben
