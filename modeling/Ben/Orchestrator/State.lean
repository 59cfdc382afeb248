import Ben.Core

/-!
# Run states and their legal transitions

The states a run record moves through, the map of legal moves with the reason each one is
logged with, and the label every state is projected as.
-/

namespace Ben

/-- The state of a run record. -/
inductive State where
  | queued
  | claimed
  | preparing
  | running
  | verifying
  | backoff
  | done
  | needsReview
  | failed
  deriving DecidableEq, Repr

/-- States a record can still leave. -/
def State.nonTerminal : State → Bool
  | .done | .failed => false
  | _ => true

/-- The legal moves, each with the reason it is logged with. -/
def legalTransitions : State → State → Option String
  | .queued, .claimed => some "selected by dispatch; claim verified by read-back"
  | .claimed, .preparing => some "claim verified"
  | .preparing, .running => some "worktree ready, before_run passed, agent started"
  | .preparing, .backoff => some "retryable prep or hook failure, attempts remain"
  | .preparing, .failed => some "non-retryable prep failure or attempts exhausted"
  | .running, .verifying => some "runner reported succeeded"
  | .running, .backoff => some "retryable failure, attempts remain"
  | .running, .failed => some "non-retryable failure or attempts exhausted"
  | .running, .needsReview => some "budget exceeded"
  | .verifying, .done => some "publish evidence complete"
  | .verifying, .preparing =>
    some "clean exit without publish evidence; continuation re-dispatch"
  | .verifying, .needsReview => some "evidence contradicts the claim, or max_turns exhausted"
  | .backoff, .preparing => some "backoff fired; issue active and routable; slot free"
  | .backoff, .backoff => some "backoff fired; no free slot; requeued"
  | .needsReview, .backoff => some "human removed the state label; re-queued"
  | .queued, .needsReview => some "content changed after the approving label; parked for reapproval"
  | .backoff, .needsReview =>
    some "content changed after the approving label; parked for reapproval"
  | .preparing, .needsReview =>
    some ("unknown or permanent credential failure preparing the workspace or minting the " ++
      "publish credential")
  | _, _ => none

/-- The reason a legal move is logged with; empty for any other pair, as a map read is. -/
def transitionReason (a b : State) : String := (legalTransitions a b).getD ""

/-- A move is allowed when the map has it, and to `failed` from every nonterminal state. -/
def allowed (a b : State) : Bool := (b == .failed && a.nonTerminal) || (legalTransitions a b).isSome

/-- The label a state is projected as. -/
def stateLabel : State → StateLabel
  | .claimed | .preparing | .verifying | .backoff => .claimed
  | .running => .running
  | .needsReview => .needsReview
  | .failed => .failed
  | .queued | .done => .none

/-- A label as the tracker shows it. -/
def labelName : StateLabel → String
  | .none => "no state label"
  | l => "ben:" ++ l.name

end Ben
