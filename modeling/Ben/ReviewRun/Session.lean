import Ben.Lib.Program
import Ben.ReviewRun.Record

/-!
# Review sessions

A session turns subjects into verdicts over an executor and a durable store.  Each of its calls is
a program over the requests below.  The store and the executor may answer as they like, within
what the store's contract says about records, and a crash may cut a call off at any request.

`consume` reads output until the run is over.  How often it may ask again is the number of polls
that fit before the deadline, which is part of the session.
-/

namespace Ben.ReviewRun

open Ben.Review

/-- How a start is not acknowledged: by a definite refusal or by anything else. -/
inductive StartErr where
  | refused (refusal : Refusal)
  | other
  deriving DecidableEq

/-- What loading a record finds. -/
inductive Loaded where
  | record (r : Record)
  | absent
  | failed
  deriving DecidableEq

/-- What a session asks of its surroundings. -/
inductive Op where
  | compose (sub : Subject)
  | checkRequest (req : Request)
  | placement (sub : Subject)
  | digest (ref : Ref) (req : Request)
  | load (run : Text)
  | save (r : Record)
  | delete (run : Text)
  | records
  | start (ref : Ref) (req : Request)
  | replayStart (ref : Ref) (req : Request)
  | attach (ref : Ref) (backendRunID : Text)
  | status (ref : Ref)
  | events (ref : Ref) (after : Int)
  | sleep

/-- The answers to a request; `none` and `false` are errors. -/
abbrev Ans : Op → Type
  | .compose _ => Option Request
  | .checkRequest _ => Bool
  | .placement _ => Option Placement
  | .digest _ _ => Option Text
  | .load _ => Loaded
  | .save _ => Bool
  | .delete _ => Bool
  | .records => Option (List Record)
  | .start _ _ => Except StartErr State
  | .replayStart _ _ => Except StartErr State
  | .attach _ _ => Option State
  | .status _ => Option State
  | .events _ _ => Option (List Chunk)
  | .sleep => Bool

abbrev Prog := Program Ans Err

/-- What a session is constructed from. -/
structure Session where
  /-- There is a source of sandboxes, so requests cross to a backend. -/
  remote : Bool
  /-- The executor can replay a start across a process boundary. -/
  replays : Bool
  /-- The polls that fit before the deadline. -/
  polls : Nat

/-- One request. -/
abbrev ask (op : Op) : Prog (Ans op) := Program.call op

def save (r : Record) : Prog Unit := do
  if ← ask (.save r) then pure () else .fail .store

def delete (run : Text) : Prog Unit := do
  if ← ask (.delete run) then pure () else .fail .store

def Session.resolveSandbox (s : Session) (sub : Subject) : Prog Placement :=
  if !s.remote then pure {}
  else do
    match ← ask (.placement sub) with
    | none => .fail .sandbox
    | some place => if place.complete then pure place else .fail .sandboxMismatch

/-- The comparison a resumed record must pass. -/
def reopen (r : Record) (subject digest sandbox profile : Text) : Except Err Record :=
  if r.digest ≠ digest then .error (.runMismatch r.run)
  else if r.subject ≠ subject then .error (.runMismatch r.run)
  else if sandbox ≠ [] && r.sandbox ≠ sandbox then .error .sandboxMismatch
  else if profile ≠ [] && r.profile ≠ profile then .error (.profileDrift r.run)
  else .ok r

/-- Observe whether anything still executes under a record, and retain that nothing does. -/
def refreshQuiet (r : Record) : Prog Record :=
  if !r.dispatched || r.refused then do
    save { r with quiet := true }
    pure { r with quiet := true }
  else do
    match ← ask (.status r.ref) with
    | none => .fail (.unobserved r.run)
    | some st =>
      if !st.reachable || !st.quiet then pure r
      else do
        save { r with quiet := true, sealed := r.sealed || st.sealed }
        pure { r with quiet := true, sealed := r.sealed || st.sealed }

def refreshUnless (settled : Bool) (r : Record) : Prog Record :=
  if settled then pure r else refreshQuiet r

/-- The record of another run of the cycle, with a fresh observation if it has none. -/
def observeOther (other : Record) : Prog Record :=
  if other.dispatched && !other.quiet then do
    match ← (refreshQuiet other).attempt with
    | .ok refreshed => pure refreshed
    | .error _ => .fail (.notQuiet other.run)
  else pure other

/-- Go through the records: refuse while another run of the cycle may be executing, and remove the
ones that are not. -/
def gateFrom (cycle run : Text) : List Record → Prog Unit
  | [] => pure ()
  | other :: rest =>
    if other.run = run || other.cycle ≠ cycle then gateFrom cycle run rest
    else do
      let other ← observeOther other
      if other.dispatched && !other.quiet then .fail (.notQuiet other.run)
      else do
        delete other.run
        gateFrom cycle run rest

def gate (cycle run : Text) : Prog Unit := do
  match ← ask .records with
  | none => .fail .store
  | some records => gateFrom cycle run records

/-- The record of a run that nothing was dispatched for. -/
def reserved (sub : Subject) (run subject digest : Text) (place : Placement) : Record where
  run := run
  cycle := sub.cycleAddress
  repository := sub.repository
  issue := sub.issue
  approval := sub.cycle
  occurrence := sub.occurrence
  claim := sub.claim
  pr := sub.pr
  base := sub.base
  head := sub.head
  reviewerProfile := sub.reviewerProfile
  branch := place.branch
  baseSHA := place.baseSHA
  targetBranch := place.targetBranch
  sandbox := place.sandbox
  profile := place.profile
  digest := digest
  subject := subject

/-- Reserve the record of a run behind the gate. -/
def reserve (sub : Subject) (run subject digest : Text) (place : Placement) : Prog Record := do
  gate sub.cycleAddress run
  save (reserved sub run subject digest place)
  pure (reserved sub run subject digest place)

/-- Read or reserve the durable record, an existing one held to what it was minted for.  A refused
record holds no run, so a mismatch supersedes it. -/
def openRecord (sub : Subject) (run subject digest : Text) (place : Placement) : Prog Record := do
  match ← ask (.load run) with
  | .failed => .fail .store
  | .absent => reserve sub run subject digest place
  | .record r =>
    match reopen r subject digest place.sandbox place.profile with
    | .ok r => pure r
    | .error e =>
      if !r.refused then .fail e
      else do
        delete r.run
        reserve sub run subject digest place

/-- The record with the resource a state names.  If the dispatch had been refused, the quiet that
this implied is no longer a fact: a run exists now. -/
def named (r : Record) (st : State) : Record :=
  { r with
    backendRunID := st.backendRunID
    refusal := none
    quiet := if r.refused then false else r.quiet }

/-- Retain what a fresh state told, and refuse a world that has moved. -/
def observe (r : Record) (st : State) : Prog (Record × State) :=
  if st.profile ≠ [] && r.profile ≠ [] && st.profile ≠ r.profile then .fail (.profileDrift r.run)
  else if st.sandbox ≠ [] && r.sandbox ≠ [] && st.sandbox ≠ r.sandbox then .fail .sandboxMismatch
  else if st.backendRunID ≠ [] && (st.backendRunID ≠ r.backendRunID || r.refused) then do
    save (named r st)
    pure (named r st, st)
  else pure (r, st)

def Session.replayStart (s : Session) (r : Record) (req : Request) : Prog (Except StartErr State) :=
  if s.replays then ask (.replayStart r.ref req) else pure (.error .other)

/-- Turn the answer of a start into the record's next state. -/
def settle (r : Record) : Except StartErr State → Prog (Record × State)
  | .ok st => observe r st
  | .error (.refused refusal) =>
    if refusal.reason = [] then .fail (.runUnresolved r.run)
    else do
      save { r with refusal := some refusal, quiet := true }
      .fail (.runRefused r.run refusal)
  | .error .other => .fail (.runUnresolved r.run)

/-- Dispatch or resolve the run, in the one order that cannot produce two of them. -/
def Session.resolveRun (s : Session) (r : Record) (req : Request) : Prog (Record × State) :=
  if !r.dispatched then do
    let r := { r with dispatched := true }
    save r
    match ← ask (.start r.ref req) with
    | .error .other => do settle r (← s.replayStart r req)
    | answer => settle r answer
  else if r.backendRunID ≠ [] then do
    match ← ask (.attach r.ref r.backendRunID) with
    | none => .fail (.runUnresolved r.run)
    | some st => observe r st
  else do settle r (← s.replayStart r req)

section Calls

variable [Sha256]

/-- What a call hands back. -/
inductive Reply where
  | report (verdict findings : Text)
  | retired
  | records (rs : List Record)
  deriving DecidableEq

/-- The verdict of a run that is over. -/
def conclude (r : Record) (st : State) : Prog Reply :=
  match extractVerdict r.output with
  | .error e => do
    save { r with sealed := true, quiet := st.reachable && st.quiet }
    .fail (.verdict e)
  | .ok report => do
    save { r with
      sealed := true, quiet := true, verdict := report.verdict.text, findings := report.findings }
    pure (.report report.verdict.text report.findings)

/-- The record after some events, with the state they were read under. -/
def advance (r : Record) (st : State) : Record :=
  { r with quiet := st.reachable && st.quiet, sealed := st.reachable && st.sealed }

/-- Save the next record if it says anything new. -/
def commit (r next : Record) : Prog Unit :=
  if next.cursor ≠ r.cursor || next.quiet ≠ r.quiet || next.sealed ≠ r.sealed then save next
  else pure ()

/-- Read the events after the cursor once, and go on with the record they leave unless the run was
over before. -/
def readEvents (r : Record) (st : State) (again : Record → Prog Reply) : Prog Reply := do
  match ← ask (.events r.ref r.cursor) with
  | none => .fail (.unreadable r.run)
  | some chunks =>
    match admitChunks r chunks with
    | .error e => .fail e
    | .ok r' => do
      let next := advance r' st
      commit r next
      if st.over then conclude next st else again next

/-- Read the durable events forward from the cursor until the run is over. -/
def consume : Nat → Record → State → Prog Reply
  | 0, r, st => readEvents r st fun next => .fail (.runIncomplete next.run)
  | polls + 1, r, st => readEvents r st fun next => do
    if ← ask .sleep then do
      match ← ask (.status next.ref) with
      | none => .fail (.unobserved next.run)
      | some st => do
        let (r, st) ← observe next st
        consume polls r st
    else .fail (.runIncomplete next.run)

/-- The invocation for a subject, where it is to run and its digest there.  The invocation is
checked for credentials before anything else can see it. -/
def Session.prepare (s : Session) (sub : Subject) : Prog (Request × Placement × Text) := do
  match ← ask (.compose sub) with
  | none => .fail .compose
  | some req =>
    if ← ask (.checkRequest req) then do
      let place ← s.resolveSandbox sub
      let ref : Ref :=
        { run := sub.runID, repository := sub.repository, issue := sub.issue, cycle := sub.cycle
          branch := place.branch, baseSHA := place.baseSHA, targetBranch := place.targetBranch
          sandbox := place.sandbox, profile := place.profile, digest := [] }
      match ← ask (.digest ref req) with
      | none => .fail .digest
      | some digest => pure (req, place, digest)
    else .fail .credentialLeak

/-- The verdict of a record that holds one, once nothing executes any more. -/
def restate (r : Record) : Prog Reply := do
  let r ← refreshUnless r.quiet r
  if r.quiet then pure (.report r.verdict r.findings) else .fail (.runIncomplete r.run)

/-- Drive one review run for a subject to a validated verdict. -/
def Session.review (s : Session) (sub : Subject) : Prog Reply :=
  if sub.missing ≠ [] then .fail (.subject sub.missing)
  else do
    let (req, place, digest) ← s.prepare sub
    let r ← openRecord sub sub.runID sub.subjectDigest digest place
    if r.terminal then restate r
    else do
      let (r, st) ← s.resolveRun r req
      consume s.polls r st

/-- Remove the durable record of a subject once its route is complete. -/
def retire (sub : Subject) : Prog Reply :=
  if sub.missing ≠ [] then .fail (.subject sub.missing)
  else do
    match ← ask (.load sub.runID) with
    | .failed => .fail .store
    | .absent => pure .retired
    | .record r => do
      let r ← refreshUnless (r.sealed && r.quiet) r
      if r.sealed && r.quiet then do
        delete r.run
        pure .retired
      else .fail (.notQuiet r.run)

/-- One retained run, with a fresh quiet observation if it has none and one can be made. -/
def survey (r : Record) : Prog Record :=
  if !r.dispatched || r.quiet then pure r
  else do
    match ← (refreshQuiet r).attempt with
    | .ok refreshed => pure refreshed
    | .error _ => pure r

/-- The retained runs one after the other. -/
def reconcileFrom : List Record → Prog (List Record)
  | [] => pure []
  | r :: rest => do
    let r' ← survey r
    let rest' ← reconcileFrom rest
    pure (r' :: rest')

/-- The startup survey. -/
def reconcile : Prog Reply := do
  match ← ask .records with
  | none => .fail .store
  | some records => do
    let rs ← reconcileFrom records
    pure (.records rs)

/-- The calls a daemon makes. -/
inductive Call where
  | review (sub : Subject)
  | retire (sub : Subject)
  | reconcile

def Session.body (s : Session) : Call → Prog Reply
  | .review sub => s.review sub
  | .retire sub => ReviewRun.retire sub
  | .reconcile => ReviewRun.reconcile

end Calls

end Ben.ReviewRun
