import Ben.Lib.Runs
import Ben.Orchestrator.WorkingTurns

/-!
# How an input lands

A step of the loop is an input landing, which changes what only the surroundings can change (a
worker leaves the bag, an effect is settled, a disposal is confirmed, a job runs), followed by work.
What holds of every landing and of every stroke holds along every run.
-/

namespace Ben

variable [Platform]

/-- The worker's answer changes the loop before any work is done. -/
def Worker.lands : Worker → Bool
  | .claimBase _ _ _ _ (some _) | .effectDone _ _ _ | .heldReleased _ _ _ => true
  | .cycleDispose _ _ | .markerClear _ | .recoveryScan _ => true
  | _ => false

/-- The worker that reports a job that ran. -/
def Job.report (job : Job) (err : Option Err) : Worker :=
  match job with
  | .owed tag eff => .effectDone tag eff.what err
  | .heldRelease id token _ => .heldReleased id token err

namespace Orchestrator

/-! ## What an input grounds -/

/-- The worker with this serial. -/
def worker (o : Orchestrator) (serial : Nat) : Option Worker :=
  (o.workers.find? fun e => e.1 == serial).map (·.2)

/-- The input carries reads of a tenure's issue that pass the content check. -/
inductive Approves (o : Orchestrator) : Input → Token → ApprovedContent → Prop
  | approval (serial : Nat) (tag : Tag) (issue : Issue) (required : List String)
      (principal : String) (history : List ClaimEvent) (read : ContentApproval) (orders : Orders)
      (a : ApprovedContent)
      (hworker : o.worker serial = some (.approval tag issue required principal))
      (hcheck : checkApproval history required read = .ok a) :
      Approves o (.answer serial (.approval (.ok history) (.ok read)) orders) tag.token a
  | timer (serial : Nat) (tag : Tag) (kind : TimerKind) (revision : Nat) (epoch : Int)
      (fresh : Option Issue) (history : List ClaimEvent) (read : ContentApproval)
      (base : ClaimBase) (baseErr : Option Err) (marker : RunMarker) (markerErr : Option Err)
      (orders : Orders) (a : ApprovedContent)
      (hworker : o.worker serial = some (.timerFetch tag kind revision epoch))
      (hcheck : checkApproval history o.definition.requiredLabels read = .ok a) :
      Approves o (.answer serial (.timerFetch ⟨fresh, none⟩ (.ok history) (.ok read) base baseErr
        marker markerErr) orders) tag.token a

/-- The input carries a history that lets a revision become the baseline of an issue's retained
claim. -/
inductive Accepts (o : Orchestrator) : Input → String → String → Prop
  | converts (serial : Nat) (tag : Tag) (issue : Issue) (principal : String)
      (required : List String) (workspaces : Workspaces) (history : List ClaimEvent)
      (recorded : Int) (recordedErr : Option Err) (orders : Orders)
      (hworker : o.worker serial = some (.claimAnchor tag issue principal required workspaces))
      (hanchor : claimCycleAnchor history principal ≠ 0)
      (hstands : historySuperseded history required workspaces recorded recordedErr =
        (false, none)) :
      Accepts o (.answer serial (.history (.ok history) recorded recordedErr) orders)
        (o.heap tag.token).issue.identifier issue.revision
  | confirms (serial : Nat) (id : String) (token : Token) (issue : Issue) (principal : String)
      (required : List String) (workspaces : Workspaces) (history : List ClaimEvent)
      (recorded : Int) (recordedErr : Option Err) (orders : Orders)
      (hworker : o.worker serial =
        some (.heldHistory id token issue principal required workspaces))
      (hanchor : claimCycleAnchor history principal ≠ 0)
      (hopen : closedInCycle history (claimCycleAnchor history principal) = false)
      (hstands : historySuperseded history required workspaces recorded recordedErr =
        (false, none)) :
      Accepts o (.answer serial (.history (.ok history) recorded recordedErr) orders) id
        issue.revision

/-- What the work of a step rests on. -/
def grounds (o : Orchestrator) (i : Input) : Grounds := ⟨Approves o i, Accepts o i⟩

/-! ## Landings -/

/-- What the loop makes of the report of an owed effect: it is not in flight any more, and it is
owed no longer if it landed, or if it failed and the issue is gone. -/
def settle (o : Orchestrator) (t : Token) (err : Option Err) : Orchestrator :=
  let toTracker := ((o.heap t).owed.head?.map fun eff => eff.target == .tracker).getD false
  if err.isSome then
    if (o.heap t).gone && toTracker then
      o.modify t fun r =>
        { r with owedInFlight := false, owed := r.owed.tail, owedWriteFailed := false }
    else
      o.modify t fun r =>
        { r with owedInFlight := false, owedWriteFailed := toTracker || r.owedWriteFailed }
  else
    o.modify t fun r =>
      { r with owedInFlight := false, owed := r.owed.tail, owedWriteFailed := false }

/-- The confirmation of a disposal. -/
def settleCycle (o : Orchestrator) (address : String) (err : Option Err) : Orchestrator :=
  match o.endedCycles.lookup address with
  | none => o
  | some c =>
    let o := { o with endedCycles := o.endedCycles.insert address { c with inFlight := false } }
    if err.isSome then o else { o with cycleMutationSeq := o.cycleMutationSeq + 1 }

/-- The report of a marker removal. -/
def settleClear (o : Orchestrator) (serial : Nat) (err : Option Err) : Orchestrator :=
  match o.markerClears.find? (fun p => p.serial == serial) with
  | none => o
  | some p =>
    let o := o.setClearInFlight serial false
    if !p.abandoned && err.isSome then o else o.forgetPendingClear serial

/-- How an input changes the loop before any work is done. -/
inductive Lands (o : Orchestrator) : Input → Orchestrator → Prop
  | tick (orders : Orders) : Lands o (.tick orders) o
  | answer (serial : Nat) (w : Worker) (a : Answer) (orders : Orders)
      (hworker : o.worker serial = some w) (hlands : w.lands = false) :
      Lands o (.answer serial a orders) (o.dropWorker serial)
  | stream (serial : Nat) (tag : Tag) (handle : Handle) (saw saw' closed : Bool) (a : Answer)
      (orders : Orders) (hworker : o.worker serial = some (.pump tag handle saw false)) :
      Lands o (.answer serial a orders) (o.setWorker serial (.pump tag handle saw' closed))
  | reserve (serial : Nat) (plan : SweepPlan) (id : String) (orders : Orders)
      (hworker : o.worker serial = some (.sweep plan none))
      (hgranted : (o.grantDisposal id).2 = true) :
      Lands o (.answer serial (.sweepReserve id) orders)
        ((o.grantDisposal id).1.setWorker serial (.sweep plan (some id)))
  | refuse (serial : Nat) (plan : SweepPlan) (id : String) (orders : Orders)
      (hworker : o.worker serial = some (.sweep plan none)) :
      Lands o (.answer serial (.sweepReserve id) orders) o
  | unreserve (serial : Nat) (plan : SweepPlan) (id : String) (orders : Orders)
      (hworker : o.worker serial = some (.sweep plan (some id))) :
      Lands o (.answer serial .sweepRelease orders)
        ((o.onSweepRelease id).setWorker serial (.sweep plan none))
  | claimBase (serial : Nat) (tag : Tag) (issue : Issue) (epoch : Int) (workspaces : Workspaces)
      (seq : Nat) (n : Int) (a : Answer) (orders : Orders)
      (hworker : o.worker serial = some (.claimBase tag issue epoch workspaces (some seq))) :
      Lands o (.answer serial a orders) { o.dropWorker serial with cycleMutationsInFlight := n }
  | undelivered (serial : Nat) (tag : Tag) (what : String) (err : Option Err) (orders : Orders)
      (hworker : o.worker serial = some (.effectDone tag what err))
      (hgone : o.records.lookup tag.issue ≠ some tag.token) :
      Lands o (.answer serial .ack orders) (o.dropWorker serial)
  | effect (serial : Nat) (tag : Tag) (what : String) (err : Option Err) (orders : Orders)
      (hworker : o.worker serial = some (.effectDone tag what err))
      (hlookup : o.records.lookup tag.issue = some tag.token) :
      Lands o (.answer serial .ack orders) ((o.dropWorker serial).settle tag.token err)
  | heldReleased (serial : Nat) (id : String) (token : Token) (err : Option Err) (orders : Orders)
      (hworker : o.worker serial = some (.heldReleased id token err)) :
      Lands o (.answer serial .ack orders) ((o.dropWorker serial).onHeldReleased id token err)
  | disposed (serial : Nat) (address : String) (ws : Workspace) (err : Option Err)
      (orders : Orders) (hworker : o.worker serial = some (.cycleDispose address ws)) :
      Lands o (.answer serial (.outcome err) orders) ((o.dropWorker serial).settleCycle address err)
  | cleared (serial clear : Nat) (err : Option Err) (orders : Orders)
      (hworker : o.worker serial = some (.markerClear clear)) :
      Lands o (.answer serial (.outcome err) orders) ((o.dropWorker serial).settleClear clear err)
  /-- A scan that is not applied owes nothing less. -/
  | unscanned (serial revision : Nat) (a : Answer) (orders : Orders)
      (hworker : o.worker serial = some (.recoveryScan revision)) :
      Lands o (.answer serial a orders) (o.dropWorker serial)
  | scanned (serial revision : Nat) (candidates : List Issue) (orders : Orders)
      (hworker : o.worker serial = some (.recoveryScan revision)) :
      Lands o (.answer serial (.issues candidates none) orders)
        { o.dropWorker serial with scanOwed := false }
  | ran (job : Job) (rest : List Job) (err : Option Err) (heffects : o.effects = job :: rest) :
      Lands o (.runEffect err)
        (({ o with effects := rest }.note (.ran job err)).spawn (job.report err))
  | shutdown (orders : Orders) : Lands o (.shutdown orders) { o with draining := true }
  | adopt (next : Bundle) (orders : Orders) : Lands o (.adopt next orders) (o.onAdopt next)
  | block (blocked : Option Err) : Lands o (.block blocked) (o.publishBlock blocked)
  | pass (n : Nat) : Lands o (.pass n) { o with now := o.now + n }

/-! ## What a landing leaves alone -/

/-- Settling an effect changes nothing but what the record owes and whether it is in flight. -/
lemma settle_eq (o : Orchestrator) (t err) :
    ∃ f : Record → Record, o.settle t err = o.modify t f := by
  unfold settle
  dsimp only
  split
  · split <;> exact ⟨_, rfl⟩
  · exact ⟨_, rfl⟩

/-- The report of a release changes nothing but the retained claims. -/
lemma onHeldReleased_eq (o : Orchestrator) (id token err) :
    ∃ held, o.onHeldReleased id token err = { o with held := held } := by
  unfold onHeldReleased
  split
  · exact ⟨o.held, rfl⟩
  · split
    · exact ⟨o.held, rfl⟩
    · split
      · unfold modifyHeld
        split
        · exact ⟨o.held, rfl⟩
        · exact ⟨_, rfl⟩
      · exact ⟨_, rfl⟩

/-- The report of a disposal changes nothing but the obligations and the count of mutations. -/
lemma settleCycle_eq (o : Orchestrator) (address err) : ∃ cycles seq, o.settleCycle address err =
      { o with endedCycles := cycles, cycleMutationSeq := seq } := by
  unfold settleCycle
  split
  · exact ⟨o.endedCycles, o.cycleMutationSeq, rfl⟩
  · dsimp only
    split
    · exact ⟨_, o.cycleMutationSeq, rfl⟩
    · exact ⟨_, _, rfl⟩

/-- The report of a marker removal changes nothing but the pending removals. -/
lemma settleClear_eq (o : Orchestrator) (serial : Nat) (err) :
    ∃ clears, o.settleClear serial err = { o with markerClears := clears } := by
  unfold settleClear
  split
  · exact ⟨o.markerClears, rfl⟩
  · dsimp only
    split <;> exact ⟨_, rfl⟩

/-- A change of configuration changes nothing else. -/
lemma onAdopt_eq (o : Orchestrator) (next) : ∃ cur, o.onAdopt next = { o with cur := cur } := by
  unfold onAdopt
  split
  · exact ⟨o.cur, rfl⟩
  · exact ⟨_, rfl⟩

/-- A reservation that is granted is added, and was not refused for any reason there is. -/
lemma grantDisposal_eq {o : Orchestrator} {id} (h : (o.grantDisposal id).2) :
    (o.grantDisposal id).1 = { o with sweepDisposing := id :: o.sweepDisposing } ∧
      o.draining = false ∧ (o.records.lookup id).isNone ∧
      (o.held.lookup id).isNone ∧ o.endedCycleOwed id = false ∧
      o.sweepDisposing.contains id = false := by
  unfold grantDisposal at h ⊢
  split at h
  · cases h
  · rename_i hfree
    rw [if_neg hfree]
    simp only [Bool.or_eq_true, not_or, Bool.not_eq_true, Option.isSome_eq_false_iff] at hfree
    exact ⟨rfl, hfree.1.1.1.1, hfree.1.1.1.2, hfree.1.1.2, hfree.1.2, hfree.2⟩

/-! ## Steps -/

section

variable {o o' : Orchestrator} {G : Grounds} {i : Input}

/-- Work on the record a signal is for. -/
lemma work_forRecord {tag : Tag} {attemptMatters : Bool}
    {f : Orchestrator → Token → Orchestrator} (hf : Work G o (f o tag.token)) :
    Work G o (o.forRecord tag attemptMatters f) := by
  unfold forRecord
  split
  · exact .refl _
  · rename_i t _
    refine .guard fun htoken => .maybe ?_
    rw [not_not.1 htoken]
    exact hf

lemma modify_modify (t) (f g : Record → Record) :
    (o.modify t f).modify t g = o.modify t fun r => g (f r) := by
  simp [modify]

/-- After an effect is settled the loop carries on with what it set off. -/
lemma work_settle (t what err) : Work G (o.settle t err) (o.onEffectDone t what err) := by
  unfold settle onEffectDone
  dsimp only
  rw [modify_modify, modify_modify]
  have hsame : ((o.modify t fun r => { r with owedInFlight := false }).heap t).owed =
      (o.heap t).owed := by simp [modify]
  have hgone : ((o.modify t fun r => { r with owedInFlight := false }).heap t).gone =
      (o.heap t).gone := by simp [modify]
  rw [hsame, hgone]
  generalize ((o.heap t).owed.head?.map fun eff => eff.target == .tracker).getD false = toTracker
  split
  · split
    · exact work_driveOwed
    · cases toTracker
      · exact .refl _
      · exact .of_eq (by rw [if_pos rfl]; simp)
  · exact ((work_afterEffect _).trans work_driveOwed).trans work_driveHold

/-- A confirmed disposal lets go whatever waited for it. -/
lemma work_settleCycle (address err) :
    Work G (o.settleCycle address err) (o.onCycleDisposed address err) := by
  unfold settleCycle onCycleDisposed
  cases o.endedCycles.lookup address with
  | none => exact .refl _
  | some c =>
    dsimp only
    cases err with
    | some e => exact .refl _
    | none =>
      simp only [Option.isSome_none, Bool.false_eq_true, if_false]
      refine work_clearEndedCycle address fun c' hlookup => ?_
      rw [AList.lookup_insert, Option.some.injEq] at hlookup
      rw [← hlookup]

lemma work_settleClear (serial : Nat) (err) :
    Work G (o.settleClear serial err) (o.onMarkerCleared serial err) := by
  unfold settleClear onMarkerCleared
  cases o.markerClears.find? fun p => p.serial == serial with
  | none => exact work_driveMarkerClears
  | some p =>
    dsimp only
    cases p.abandoned <;> cases err.isSome
    · exact work_driveMarkerClears
    · exact .refl _
    · exact work_driveMarkerClears
    · exact work_driveMarkerClears

lemma work_onCycleScan (workspaces refs err) (seq : Nat) :
    Work G o (o.onCycleScan workspaces refs err seq) := by
  unfold onCycleScan
  dsimp only
  have hcame : Work G o { o with cycleScanInFlight := false } := .flags (by constructor <;> rfl)
  refine hcame.trans (.trans ?_ work_beginDispatchReads)
  exact .either (work_applyCycleScan _ _ _ _) <| .refl _

/-- A claim base brings a reading of the directory along. -/
lemma work_claimBaseScan (workspaces refs err) (seq : Nat) :
    ∃ n, Work G { o with cycleMutationsInFlight := n }
      (o.claimBaseScan workspaces refs err seq).1 := by
  have hread : ∀ o1 : Orchestrator, Work G o1
      (if err.isSome then o1.applyCycleScan workspaces refs err false
        else if seq = o1.cycleMutationSeq then
          ((o1.applyCycleScan workspaces refs err false).1, true)
        else (o1, true)).1 := by
    intro o1
    split
    · exact work_applyCycleScan _ _ _ _
    · split
      · exact work_applyCycleScan _ _ _ _
      · exact .refl _
  unfold claimBaseScan
  by_cases hcount : o.cycleMutationsInFlight ≤ 0
  · rw [if_pos hcount]
    exact ⟨o.cycleMutationsInFlight, (Work.stroke (.scanFailed o true)).trans (hread _)⟩
  · rw [if_neg hcount]
    exact ⟨o.cycleMutationsInFlight - 1, hread _⟩

lemma work_noteTermination (token handle termination) :
    Work G o (o.noteTermination token handle termination) :=
  .either (.note rfl) <| .refl _

/-- What a worker reports while it stays out lands, and the rest is work. -/
lemma reported_lands {serial : Nat} {w a orders} (hworker : o.worker serial = some w)
    (h : o.reported serial w a = some o') :
    ∃ o1, Lands o (.answer serial a orders) o1 ∧ Work G o1 o' := by
  unfold reported at h
  split at h
  · cases h
    -- the event is noted before the stream takes it in; the order is not seen
    rename_i tag _ _ e
    exact ⟨_, .stream _ _ _ _ _ _ _ _ hworker,
      (Work.note (a := .emitted tag e) rfl).trans (work_forRecord (work_onRunEvent _))⟩
  · cases h
    exact ⟨_, .stream _ _ _ _ _ _ _ _ hworker, work_forRecord (work_onEventsClosed _)⟩
  · cases h
    exact ⟨_, .answer _ _ _ _ hworker rfl, work_forRecord work_onHandleDone⟩
  · rename_i plan id
    dsimp only at h
    split at h
    · rename_i hgranted
      cases h
      exact ⟨_, .reserve _ _ _ _ hworker hgranted, .refl _⟩
    · rename_i hrefused
      cases h
      refine ⟨_, .refuse _ _ _ _ hworker, .of_eq ?_⟩
      unfold grantDisposal at hrefused ⊢
      split
      · rfl
      · rename_i hfree
        rw [if_neg hfree] at hrefused
        exact absurd rfl hrefused
  · cases h
    exact ⟨_, .unreserve _ _ _ _ hworker, .refl _⟩
  · cases h

omit [Platform] in
/-- The two reads behind an approval, when both could be made. -/
lemma approval_reads {history : Except Err (List ClaimEvent)}
    {approval : Except Err ContentApproval}
    (h : (match readErr history with
      | some e => some e
      | none => readErr approval) = none) :
    ∃ events read, history = .ok events ∧ approval = .ok read := by
  cases history with
  | error e => simp [readErr] at h
  | ok events =>
    cases approval with
    | error e => simp [readErr] at h
    | ok read => exact ⟨events, read, rfl, rfl⟩

omit [Platform] in
/-- The reads of a fired timer, when all could be made. -/
lemma timer_reads {expectedEpoch : Int} {fresh : RefreshResult}
    {history approval base baseErr marker markerErr}
    (h : (timerReads expectedEpoch fresh history approval base baseErr marker markerErr).err
      = none) :
    ∃ events read, fresh.err = none ∧ history = .ok events ∧ approval = .ok read ∧
      (timerReads expectedEpoch fresh history approval base baseErr marker markerErr).history =
        events ∧
      (timerReads expectedEpoch fresh history approval base baseErr marker markerErr).approval =
        read := by
  unfold timerReads at h ⊢
  split at h
  · cases h
  · rename_i herr
    split at h
    · cases h
    · rename_i events
      split at h
      · cases h
      · rename_i read
        refine ⟨events, read, herr, rfl, rfl, ?_⟩
        dsimp only
        split
        · exact ⟨rfl, rfl⟩
        · split <;> exact ⟨rfl, rfl⟩

/-- The answer of a worker lands, and the rest is work. -/
lemma answered_lands {serial : Nat} {w : Worker} {a : Answer} {orders : Orders}
    (hworker : o.worker serial = some w) (h : (o.dropWorker serial).answered w a orders = some o') :
    ∃ o1, Lands o (.answer serial a orders) o1 ∧
      Work (grounds o (.answer serial a orders)) o1 o' := by
  have hplain := fun hlands => Lands.answer serial w a orders hworker hlands
  cases w <;> cases a <;> simp only [answered, Option.some.injEq, reduceCtorEq] at h
  case claim.claim => exact ⟨_, hplain rfl, h ▸ work_forRecord (work_onClaimed _ _)⟩
  case approval.approval tag issue required principal history approval =>
    refine ⟨_, hplain rfl, h ▸ work_forRecord (work_onApproved _ _ _ _ _ fun a herr hcheck => ?_)⟩
    obtain ⟨events, read, rfl, rfl⟩ := approval_reads herr
    exact .approval serial tag issue required principal events read orders a hworker hcheck
  case claimBase.claimBase tag issue epoch workspaces cycleSeq err cycles cyclesErr base baseErr =>
    cases cycleSeq with
    | none =>
      exact ⟨_, hplain rfl, Option.some.inj h ▸ work_forRecord (work_onClaimBaseBegun _ _ _ _)⟩
    | some seq =>
      obtain ⟨n, hscan⟩ := work_claimBaseScan (o := o.dropWorker serial)
        (G := grounds o (.answer serial (.claimBase err cycles cyclesErr base baseErr) orders))
        workspaces cycles cyclesErr seq
      exact ⟨_, .claimBase serial tag issue epoch workspaces seq n _ orders hworker,
        Option.some.inj h ▸ hscan.trans (work_forRecord (work_onClaimBaseBegun _ _ _ _))⟩
  case prepare.prepare => exact ⟨_, hplain rfl, h ▸ work_forRecord (work_onPrepared _ _ _ _ _)⟩
  case start.start =>
    exact ⟨_, hplain rfl, h ▸ (Work.note (by rfl)).trans (work_forRecord (work_onStarted _ _))⟩
  case probe.termination =>
    exact ⟨_, hplain rfl, h ▸ (work_noteTermination _ _ _).trans (work_forRecord (work_onProbed _))⟩
  case stop.termination =>
    exact ⟨_, hplain rfl,
      h ▸ (work_noteTermination _ _ _).trans (work_forRecord (work_onStopped _))⟩
  case stopped.ack => exact ⟨_, hplain rfl, h ▸ work_forRecord (work_onStopped _)⟩
  case summary.summary => exact ⟨_, hplain rfl, h ▸ work_forRecord (work_onSummarized _ _)⟩
  case timer.ack => exact ⟨_, hplain rfl, h ▸ work_forRecord (.spawn rfl)⟩
  case timerFetch.timerFetch tag kind revision epoch fresh history approval base baseErr marker
      markerErr =>
    refine ⟨_, hplain rfl,
      h ▸ work_forRecord (work_onTimerFetched _ _ _ _ _ fun a herr hcheck => ?_)⟩
    obtain ⟨events, read, hfresh, rfl, rfl, hhistory, hread⟩ := timer_reads herr
    rw [hhistory, hread] at hcheck
    obtain ⟨issue, err⟩ := fresh
    cases hfresh
    exact .timer serial tag kind revision epoch issue events read base baseErr marker markerErr
      orders
      a hworker hcheck
  case verify.verify =>
    exact ⟨_, hplain rfl, h ▸ (Work.either (.note rfl) <| .refl _).trans
      (work_forRecord (work_onVerified _))⟩
  case effectDone.ack tag what err =>
    by_cases hlookup : o.records.lookup tag.issue = some tag.token
    · refine ⟨_, .effect serial tag what err orders hworker hlookup, h ▸ ?_⟩
      simp only [forRecord, dropWorker, hlookup]
      simp only [ne_eq, not_true_eq_false, if_false, Bool.false_and, Bool.false_eq_true]
      exact work_settle _ _ _
    · refine ⟨_, .undelivered serial tag what err orders hworker hlookup, .of_eq ?_⟩
      rw [← h]
      unfold forRecord
      split
      · rfl
      · rename_i t ht
        rw [if_pos fun heq => hlookup (by rw [← heq]; exact ht)]
  case owedConfirm.refresh => exact ⟨_, hplain rfl, h ▸ work_forRecord (work_onOwedConfirmed _)⟩
  case claimAnchor.history tag issue principal required workspaces history recorded recordedErr =>
    refine ⟨_, hplain rfl, h ▸ work_forRecord (work_onClaimAnchor _ _ _ _ _
      fun herr happroval hsuperseded hanchor => ?_)⟩
    cases history with
    | error e => cases herr
    | ok events =>
      exact .converts serial tag issue principal required workspaces events recorded recordedErr
        orders
        hworker hanchor (Prod.ext hsuperseded happroval)
  case doneOwnership.refresh => exact ⟨_, hplain rfl, h ▸ work_forRecord (work_onDoneOwnership _)⟩
  case parkedConfirm.refresh =>
    exact ⟨_, hplain rfl, h ▸ work_forRecord (work_onParkedConfirmed _ _)⟩
  case recover.recover =>
    exact ⟨_, hplain rfl, h ▸ (work_noteRecoveryEvidence _ _ _).trans
      (work_forRecord (work_onRecovered _ _))⟩
  case heldConfirm.refresh => exact ⟨_, hplain rfl, h ▸ work_onHeldConfirmed _ _ _⟩
  case heldHistory.history id token issue principal required workspaces history recorded
      recordedErr =>
    refine ⟨_, hplain rfl, h ▸ work_onHeldHistory _ _ _ _ _ _ _ _
      fun herr hanchor hopen happroval hsuperseded => ?_⟩
    cases history with
    | error e => cases herr
    | ok events =>
      exact .confirms serial id token issue principal required workspaces events recorded
        recordedErr
        orders hworker hanchor hopen (Prod.ext hsuperseded happroval)
  case heldReleased.ack => exact ⟨_, .heldReleased serial _ _ _ orders hworker, h ▸ .refl _⟩
  case reconcile.reconcile => exact ⟨_, hplain rfl, h ▸ work_onReconciled _ _ _ _⟩
  case dispatch.issues => exact ⟨_, hplain rfl, h ▸ work_onTickResult _ _ _ _⟩
  case cycleScan.cycles => exact ⟨_, hplain rfl, h ▸ work_onCycleScan _ _ _ _⟩
  case cycleDispose.outcome =>
    exact ⟨_, .disposed serial _ _ _ orders hworker, h ▸ work_settleCycle _ _⟩
  case markerClear.outcome =>
    exact ⟨_, .cleared serial _ _ orders hworker, h ▸ work_settleClear _ _⟩
  case recoveryScan.issues revision candidates err =>
    unfold onRecoveryScan at h
    dsimp only at h
    split at h
    · exact ⟨_, .unscanned serial revision _ orders hworker, h ▸ .flags (by constructor <;> rfl)⟩
    · rename_i happlied
      obtain ⟨-, rfl⟩ : _ ∧ err = none := by simpa using happlied
      refine ⟨_, .scanned serial revision candidates orders hworker, h ▸ ?_⟩
      refine .trans ?_ (work_retryRecovery _)
      exact (Work.flags (by constructor <;> rfl)).trans
        (.foldl (fun _ issue => work_scanCandidate issue _) candidates)
  case sweep.swept => exact ⟨_, hplain rfl, h ▸ work_onSwept _⟩

/-- A step is an input landing, and work after it. -/
theorem step_lands (h : o.step i = some o') : ∃ o1, Lands o i o1 ∧ Work (grounds o i) o1 o' := by
  cases i with
  | tick orders =>
    cases h
    exact ⟨o, .tick orders, (work_onTick _).trans (work_driveShutdown _)⟩
  | answer serial a orders =>
    obtain ⟨o2, hdeliver, rfl⟩ := Option.map_eq_some_iff.1 h
    have hlands : ∃ o1, Lands o (.answer serial a orders) o1 ∧
        Work (grounds o (.answer serial a orders)) o1 o2 := by
      unfold deliver at hdeliver
      split at hdeliver
      · cases hdeliver
      · rename_i n w hfind
        have hworker : o.worker serial = some w := by simp [worker, hfind]
        split at hdeliver
        · rename_i o3 hreported
          cases hdeliver
          exact reported_lands hworker hreported
        · exact answered_lands hworker hdeliver
    obtain ⟨o1, hland, hwork⟩ := hlands
    exact ⟨o1, hland, hwork.trans (work_driveShutdown _)⟩
  | runEffect err =>
    have hran : o.runEffect err = some o' := h
    cases heffects : o.effects with
    | nil => simp [runEffect, heffects] at hran
    | cons job rest =>
      refine ⟨_, .ran job rest err heffects, .of_eq ?_⟩
      simp only [runEffect, heffects] at hran
      cases job <;> exact (Option.some.inj hran).symm
  | shutdown orders =>
    cases h
    refine ⟨_, .shutdown orders, ?_⟩
    exact ((Work.flags (by constructor <;> rfl)).trans (work_driveShutdown _)).trans
      (work_driveShutdown _)
  | adopt next orders =>
    cases h
    exact ⟨_, .adopt next orders, work_driveShutdown _⟩
  | block blocked =>
    cases h
    exact ⟨_, .block blocked, .refl _⟩
  | pass n =>
    cases h
    exact ⟨_, .pass n, .refl _⟩

/-- What an input that meets a condition keeps when it lands, and every stroke keeps after it, holds
in every state of a run whose inputs all meet the condition. -/
theorem invariant_along {P : Orchestrator → Prop} {C : Orchestrator → Input → Prop}
    (hland : ∀ o i o1, C o i → Lands o i o1 → P o → P o1)
    (hstroke : ∀ o i o1 o2, C o i → Stroke (grounds o i) o1 o2 → P o1 → P o2) {inputs : List Input}
    (hP : P o) (halong : Runs.Along step C o inputs) (hrun : Runs.run step o inputs = some o') :
    P o' := by
  refine Runs.invariant (fun o i o2 hP hC hstep => ?_) hP halong hrun
  obtain ⟨o1, hlands, hwork⟩ := step_lands hstep
  exact hwork.invariant (fun o1 o2 => hstroke o i o1 o2 hC) (hland o i o1 hC hlands hP)

/-- What every landing and every stroke keeps holds in every state of a run. -/
theorem invariant_of_run {P : Orchestrator → Prop} (hland : ∀ o i o1, Lands o i o1 → P o → P o1)
    (hstroke : ∀ G o1 o2, Stroke G o1 o2 → P o1 → P o2) {inputs : List Input} (hP : P o)
    (hrun : Runs.run step o inputs = some o') : P o' :=
  invariant_along (C := fun _ _ => True) (fun o i o1 _ => hland o i o1)
    (fun o i o1 o2 _ => hstroke (grounds o i) o1 o2) hP (Runs.along_true o inputs) hrun

/-- What holds before startup and every stroke keeps holds after startup. -/
lemma invariant_boot {P : Orchestrator → Prop} {cur daemonInstance} {now : Time} {reads}
    (hP : P (initial cur daemonInstance now))
    (hstroke : ∀ o1 o2, Stroke ⟨fun _ _ => False, fun _ _ => False⟩ o1 o2 → P o1 → P o2) :
    P (boot cur daemonInstance now reads) :=
  (work_recover reads).invariant hstroke hP

end

end Orchestrator

end Ben
