import Mathlib.Logic.Relation
import Ben.Orchestrator.System

/-!
# The loop's work, stroke by stroke

Whatever a turn of the loop does, it does by a few primitive strokes: it edits a record, moves it,
owes an effect, sends the head of what is owed, remembers an ended cycle or a marker to be removed,
sends a worker out.  A stroke carries the guard its place in the code gives it, so what holds along
every stroke holds of every turn.  What a stroke rests on where the code asks for more than the
loop's own state, a passed content check or the history behind a retained claim's revision, is a
parameter.
-/

namespace Ben

variable [Platform]

/-- The worker's leaving marks nothing but the bag. -/
def Worker.plain : Worker → Bool
  | .claim _ _ | .prepare _ _ _ _ | .start _ _ _ _ _ => false
  | .claimBase _ _ _ _ (some _) => false
  | .effectDone _ _ _ | .heldReleased _ _ _ => false
  | .cycleScan _ _ | .cycleDispose _ _ | .markerClear _ => false
  | _ => true

/-- The act is none of those a stroke of its own records. -/
def Act.plain : Act → Bool
  | .spawned _ | .owes _ _ | .entered _ _ | .ran _ _ | .approved _ _ | .pinned _ _ => false
  | _ => true

/-- A change of a record that leaves its name, its state and what it owes alone, and takes back
neither that its issue is gone nor that its claim is lost. -/
def Edits (f : Record → Record) : Prop :=
  ∀ r, (f r).issue.identifier = r.issue.identifier ∧ (f r).state = r.state ∧
    (f r).owed = r.owed ∧ (f r).owedInFlight = r.owedInFlight ∧
    (r.gone = true → (f r).gone = true) ∧ (r.claimLost = true → (f r).claimLost = true)

/-- What edits of a record leave alone. -/
def Record.fixed (r : Record) : String × State × List OwedEffect × Bool × Bool × Bool :=
  (r.issue.identifier, r.state, r.owed, r.owedInFlight, r.gone, r.claimLost)

omit [Platform] in
/-- A change of a retained claim that leaves its tenure and its accepted revision alone. -/
def EditsHeld (f : HeldClaim → HeldClaim) : Prop :=
  ∀ h, (f h).token = h.token ∧ (f h).revision = h.revision

/-- What a stroke may rest on: the content checks that passed, and the revisions a retained claim
may take as its baseline. -/
structure Grounds where
  approved : Token → ApprovedContent → Prop
  baseline : String → String → Prop

namespace Orchestrator

/-- Only flags and cursors that nothing but the pacing of the loop depends on differ. -/
structure Cosmetic (o o' : Orchestrator) : Prop where
  cur : o'.cur = o.cur
  heap : o'.heap = o.heap
  records : o'.records = o.records
  held : o'.held = o.held
  nextToken : o'.nextToken = o.nextToken
  markerClears : o'.markerClears = o.markerClears
  nextClear : o'.nextClear = o.nextClear
  sweepDisposing : o'.sweepDisposing = o.sweepDisposing
  scanOwed : o'.scanOwed = o.scanOwed
  cycleScanFailed : o'.cycleScanFailed = o.cycleScanFailed
  cycleMutationSeq : o'.cycleMutationSeq = o.cycleMutationSeq
  cycleMutationsInFlight : o'.cycleMutationsInFlight = o.cycleMutationsInFlight
  endedCycles : o'.endedCycles = o.endedCycles
  draining : o'.draining = o.draining
  effects : o'.effects = o.effects
  workers : o'.workers = o.workers
  nextWorker : o'.nextWorker = o.nextWorker
  trace : o'.trace = o.trace

/-- Mark the obligation at an address as holding a candidate back, if it is one of the issue. -/
def markDeferred (id : String) (cycles : AList fun _ : String => EndedCycle) (address : String) :
    AList fun _ : String => EndedCycle :=
  match cycles.lookup address with
  | some c =>
    if c.issue = id then cycles.insert address { c with deferredCandidate := true } else cycles
  | none => cycles

/-- The obligations of an issue, each marked as holding a candidate back. -/
def deferCandidate (o : Orchestrator) (id : String) : Orchestrator :=
  { o with endedCycles := o.endedCycles.keys.foldl (markDeferred id) o.endedCycles }

omit [Platform] in
/-- Marking changes nothing but the mark. -/
lemma lookup_markDeferred (id) (cycles : AList fun _ : String => EndedCycle) (key address) :
    (markDeferred id cycles key).lookup address = (cycles.lookup address).map fun c =>
      if c.issue = id ∧ address = key then { c with deferredCandidate := true } else c := by
  unfold markDeferred
  by_cases haddress : address = key
  · subst haddress
    cases hlookup : cycles.lookup address with
    | none => simp [hlookup]
    | some c =>
      by_cases hissue : c.issue = id
      · simp [hissue]
      · simp [hissue, hlookup]
  · cases cycles.lookup key with
    | none => simp [haddress]
    | some c =>
      by_cases hissue : c.issue = id
      · simp [hissue, haddress, AList.lookup_insert_ne haddress]
      · simp [hissue, haddress]

omit [Platform] in
/-- Marking at a list of addresses marks what it finds there of the issue. -/
lemma lookup_foldl_markDeferred (id) (keys : List String)
    (cycles : AList fun _ : String => EndedCycle) (address) :
    (keys.foldl (markDeferred id) cycles).lookup address = (cycles.lookup address).map fun c =>
      if c.issue = id ∧ address ∈ keys then { c with deferredCandidate := true } else c := by
  induction keys generalizing cycles with
  | nil => simp
  | cons key keys ih =>
    rw [List.foldl_cons, ih, lookup_markDeferred, Option.map_map]
    congr 1
    funext c
    by_cases hissue : c.issue = id <;> by_cases hkey : address = key <;>
      by_cases hmem : address ∈ keys <;> simp [hissue, hkey, hmem]

/-- An obligation of the issue is marked, every other is as it was. -/
lemma lookup_deferCandidate (o : Orchestrator) (id address) :
    (o.deferCandidate id).endedCycles.lookup address = (o.endedCycles.lookup address).map fun c =>
      if c.issue = id then { c with deferredCandidate := true } else c := by
  unfold deferCandidate
  rw [lookup_foldl_markDeferred]
  cases hlookup : o.endedCycles.lookup address with
  | none => rfl
  | some c =>
    have hmem : address ∈ o.endedCycles.keys :=
      AList.mem_keys.1 (AList.lookup_isSome.1 (by rw [hlookup]; rfl))
    simp [hmem]

/-- One primitive piece of the loop's work. -/
inductive Stroke (G : Grounds) : Orchestrator → Orchestrator → Prop
  | edit (o : Orchestrator) (t : Token) (f : Record → Record) (hf : Edits f) :
      Stroke G o (o.modify t f)
  | enter (o : Orchestrator) (t : Token) (entry : TransitionEntry)
      (hentry : entry.source = (o.heap t).state) :
      Stroke G o ((o.modify t fun r => { r with state := entry.target }).note (.entered t entry))
  | recovered (o : Orchestrator) (t : Token) (entry : TransitionEntry)
      (hentry : entry.target = (o.heap t).state) : Stroke G o (o.note (.entered t entry))
  | note (o : Orchestrator) (a : Act) (ha : a.plain = true) : Stroke G o (o.note a)
  | approve (o : Orchestrator) (t : Token) (a : ApprovedContent) (ha : G.approved t a) :
      Stroke G o (o.note (.approved t a))
  | pin (o : Orchestrator) (t : Token) (a : ApprovedContent) (ha : G.approved t a) :
      Stroke G o ((o.modify t fun r => r.pin a).note (.pinned t a))
  | spawn (o : Orchestrator) (w : Worker) (hw : w.plain = true) : Stroke G o (o.spawn w)
  | prepare (o : Orchestrator) (tag : Tag) (issue : Issue) (attempt epoch : Int)
      (hdraining : o.draining = false) : Stroke G o (o.spawn (.prepare tag issue attempt epoch))
  /-- A launch drops the pending removals of its marker and waits out the executing ones. -/
  | start (o : Orchestrator) (tag : Tag) (root : String) (issue : Issue) (vars : Vars)
      (spec : RunSpec) (hdraining : o.draining = false) :
      Stroke G o ((o.abandonPendingClears tag.issue root).1.spawn
        (.start tag issue vars spec (o.abandonPendingClears tag.issue root).2))
  | owe (o : Orchestrator) (t : Token) (eff : OwedEffect) :
      Stroke G o ((o.modify t fun r => { r with owed := r.owed ++ [eff] }).note (.owes t eff))
  | send (o : Orchestrator) (t : Token) (eff : OwedEffect) (rest : List OwedEffect)
      (hflight : (o.heap t).owedInFlight = false) (howed : (o.heap t).owed = eff :: rest)
      (hgate : (isExit eff.what && o.endedCycleOwed (o.heap t).issue.identifier) = false) :
      Stroke G o ({ o with effects := o.effects ++ [Job.owed (o.tag t) eff] }.modify t
        fun r => { r with owedInFlight := true })
  | claim (o : Orchestrator) (issue : Issue) (cur : Snapshot) (hdraining : o.draining = false)
      (hheld : (o.held.lookup issue.identifier).isNone = true)
      (hcycle : o.endedCycleOwed issue.identifier = false)
      (hfree : o.sweepDisposing.contains issue.identifier = false) :
      Stroke G o (o.beginClaim issue cur)
  | adopt (o : Orchestrator) (r : Record) (howed : r.owed = []) (hflight : r.owedInFlight = false)
      (hrecovered : r.recovered = true) : Stroke G o (o.adopt r)
  | forget (o : Orchestrator) (id : String) : Stroke G o (o.forget id)
  | convert (o : Orchestrator) (t : Token) (anchor : Int) (revision : String)
      (hready : o.readyToConvert t = true)
      (hground : G.baseline (o.heap t).issue.identifier revision) :
      Stroke G o (o.convertToHeld t anchor revision)
  | editHeld (o : Orchestrator) (id : String) (h : HeldClaim) (f : HeldClaim → HeldClaim)
      (hlookup : o.held.lookup id = some h) (hf : EditsHeld f) :
      Stroke G o { o with held := o.held.insert id (f h) }
  | rebase (o : Orchestrator) (id : String) (h : HeldClaim) (fresh : Issue)
      (hlookup : o.held.lookup id = some h) (hground : G.baseline id fresh.revision) :
      Stroke G o { o with
        held := o.held.insert id { h with issue := fresh, revision := fresh.revision } }
  | dropHeld (o : Orchestrator) (id : String) : Stroke G o (o.dropHeld id)
  | sendHeld (o : Orchestrator) (id : String) (h : HeldClaim)
      (hlookup : o.held.lookup id = some h) (hflight : h.inFlight = false)
      (hgate : o.endedCycleOwed id = false) :
      Stroke G o { o with
        effects := o.effects ++ [.heldRelease id h.token h.issue]
        held := o.held.insert id { h with inFlight := true } }
  | oweCycle (o : Orchestrator) (id : String) (workspaces : Workspaces) (ws : Workspace)
      (why : String) : Stroke G o (o.oweEndedCycle id workspaces ws why)
  | deferCandidate (o : Orchestrator) (id : String) : Stroke G o (o.deferCandidate id)
  | disposeCycle (o : Orchestrator) (address : String) (c : EndedCycle)
      (hlookup : o.endedCycles.lookup address = some c) (hflight : c.inFlight = false) :
      Stroke G o ({ o with
        endedCycles := o.endedCycles.insert address { c with inFlight := true } }.spawn
          (.cycleDispose address c.workspace))
  | dropCycle (o : Orchestrator) (address : String) (c : EndedCycle)
      (hlookup : o.endedCycles.lookup address = some c) (hflight : c.inFlight = false) :
      Stroke G o { o with
        scanOwed := o.scanOwed || c.deferredCandidate
        endedCycles := o.endedCycles.erase address }
  /-- A claim base may change the directory of ended cycles, so its worker is counted. -/
  | mutate (o : Orchestrator) (tag : Tag) (issue : Issue) (epoch : Int) (workspaces : Workspaces) :
      Stroke G o ({ o with
        cycleMutationSeq := o.cycleMutationSeq + 1
        cycleMutationsInFlight := o.cycleMutationsInFlight + 1 }.spawn
          (.claimBase tag issue epoch workspaces (some (o.cycleMutationSeq + 1))))
  | scanCycles (o : Orchestrator) (hflight : o.cycleScanInFlight = false)
      (hdraining : o.draining = false) :
      Stroke G o ({ o with cycleScanInFlight := true }.spawn
        (.cycleScan o.bundle.workspaces o.cycleMutationSeq))
  | scanFailed (o : Orchestrator) (failed : Bool) :
      Stroke G o { o with cycleScanFailed := failed }
  | oweScan (o : Orchestrator) : Stroke G o { o with scanOwed := true }
  | remember (o : Orchestrator) (issue : Issue) (root : String) :
      Stroke G o (o.rememberPendingClear issue root)
  | driveClear (o : Orchestrator) (p : PendingClear) (hp : p ∈ o.markerClears) :
      Stroke G o (o.driveMarkerClear p)
  | flags (o o' : Orchestrator) (h : Cosmetic o o') : Stroke G o o'

/-- The second state comes from the first by the loop's work. -/
def Work (G : Grounds) : Orchestrator → Orchestrator → Prop := Relation.ReflTransGen (Stroke G)

namespace Work

variable {G : Grounds} {o o' o'' : Orchestrator} {t : Token}

lemma refl (o) : Work G o o := Relation.ReflTransGen.refl

lemma of_eq (h : o' = o) : Work G o o' := by
  rw [h]
  exact refl o

lemma trans (h : Work G o o') (h' : Work G o' o'') : Work G o o'' :=
  Relation.ReflTransGen.trans h h'

lemma stroke (h : Stroke G o o') : Work G o o' := Relation.ReflTransGen.single h

lemma edits (t) {f : Record → Record} (hf : Edits f) : Work G o (o.modify t f) :=
  stroke (.edit o t f hf)

lemma edit {f : Record → Record} (hf : Record.fixed ∘ f = Record.fixed) :
    Work G o (o.modify t f) := by
  refine edits t fun r => ?_
  have h := congrFun hf r
  simp only [Function.comp, Record.fixed, Prod.mk.injEq] at h
  exact ⟨h.1, h.2.1, h.2.2.1, h.2.2.2.1, h.2.2.2.2.1.trans, h.2.2.2.2.2.trans⟩

lemma edited {f : Record → Record} (h : Work G (o.modify t f) o')
    (hf : Record.fixed ∘ f = Record.fixed) : Work G o o' :=
  (edit hf).trans h

lemma note {a : Act} (ha : a.plain) : Work G o (o.note a) := stroke (.note o a ha)

lemma spawn {w : Worker} (hw : w.plain) : Work G o (o.spawn w) := stroke (.spawn o w hw)

lemma sent {f : Record → Record} {w : Worker} (hf : Record.fixed ∘ f = Record.fixed)
    (hw : w.plain) : Work G o ((o.modify t f).spawn w) :=
  (edit hf).trans (spawn hw)

lemma flags (h : Cosmetic o o') : Work G o o' := stroke (.flags o o' h)

lemma ite {c : Prop} [Decidable c] {o1 o2} (hpos : c → Work G o o1) (hneg : ¬ c → Work G o o2) :
    Work G o (if c then o1 else o2) := by
  split
  · exact hpos ‹_›
  · exact hneg ‹_›

lemma guard {c : Prop} [Decidable c] (h : ¬ c → Work G o o') : Work G o (if c then o else o') :=
  ite (fun _ => refl o) h

/-- Where both ways are work whatever the test says. -/
lemma either {c : Prop} [Decidable c] {o1 o2} (hpos : Work G o o1) (hneg : Work G o o2) :
    Work G o (if c then o1 else o2) :=
  ite (fun _ => hpos) fun _ => hneg

lemma maybe {c : Prop} [Decidable c] (h : Work G o o') : Work G o (if c then o else o') :=
  either (refl o) h

/-- Work piece by piece. -/
lemma foldl {α : Type} {f : Orchestrator → α → Orchestrator} (hf : ∀ o a, Work G o (f o a))
    (l : List α) : Work G o (l.foldl f o) := by
  induction l generalizing o with
  | nil => exact refl o
  | cons a l ih => exact (hf o a).trans ih

/-- What every stroke keeps, work keeps. -/
lemma invariant {P : Orchestrator → Prop} (hstroke : ∀ o o', Stroke G o o' → P o → P o')
    (h : Work G o o') (ho : P o) : P o' := by
  induction h with
  | refl => exact ho
  | tail _ hs ih => exact hstroke _ _ hs ih

end Work

end Orchestrator

end Ben
