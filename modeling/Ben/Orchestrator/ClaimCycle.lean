import Ben.Core

/-!
# Claim cycles

A claim cycle is the stretch of the change log since the assignment the principal holds now; the
identity of that assignment is the claim epoch.  The predicates here relate an epoch to the
provider's durable claim base and to the workspace prepared under it.
-/

namespace Ben

section

variable [CaseFold]

/-- The entry that established the principal's current assignment, or zero. -/
def claimCycleAnchor (events : List ClaimEvent) (principal : String) : Int :=
  events.foldl (fun anchor ev =>
    if !equalFold ev.subject principal then anchor
    else match ev.kind with
      | .assigned => ev.id
      | .unassigned => 0
      | _ => anchor) 0

/-- When that entry happened, or the zero instant. -/
def claimCycleAnchorAt (events : List ClaimEvent) (principal : String) : Time :=
  events.foldl (fun at_ ev =>
    if !equalFold ev.subject principal then at_
    else match ev.kind with
      | .assigned => ev.at_
      | .unassigned => 0
      | _ => at_) 0

end

/-- The issue was closed since the anchor. -/
def closedInCycle (events : List ClaimEvent) (anchor : Int) : Bool :=
  if anchor ≤ 0 then false
  else events.any fun ev => ev.kind == .closed && decide (ev.id ≥ anchor)

/-- The claim base is pinned, completely, for this epoch. -/
def claimBasePinsEpoch (state : ClaimBase) (epoch : Int) : Bool :=
  decide (epoch > 0) && state.state == .pinned && state.epoch == epoch &&
    state.baseSHA != "" && state.targetBranch != ""

/-- A preparation under this epoch may be tried again. -/
def claimBaseAllowsPrepare (state : ClaimBase) (epoch : Int) (readErr : Option Err) : Bool :=
  if readErr.isSome || decide (epoch ≤ 0) || state.epoch != epoch then false
  else state.state == .pending || claimBasePinsEpoch state epoch

/-- The claim base pins exactly the epoch, base and target the workspace carries. -/
def claimBaseAuthorizesWorkspace (state : ClaimBase) (ws : Workspace) : Bool :=
  decide (ws.claimEpoch > 0) && ws.baseSHA != "" && ws.targetBranch != "" &&
    claimBasePinsEpoch state ws.claimEpoch &&
    state.baseSHA == ws.baseSHA && state.targetBranch == ws.targetBranch

/-- A pin of another epoch that predates recorded targets and can still be upgraded. -/
def legacyClaimBaseCanUpgrade (state : ClaimBase) (epoch : Int) : Bool :=
  decide (epoch > 0) && state.state == .pinned && decide (state.epoch > 0) &&
    state.epoch != epoch && state.baseSHA != "" && state.targetBranch == ""

/-- A base that pins an epoch pins it alone. -/
lemma claimBasePinsEpoch_epoch {state : ClaimBase} {epoch : Int}
    (h : claimBasePinsEpoch state epoch) : state.epoch = epoch := by
  simp only [claimBasePinsEpoch, Bool.and_eq_true, beq_iff_eq] at h
  exact h.1.1.2

/-- An authorised workspace carries the epoch the base pins. -/
lemma claimBaseAuthorizesWorkspace_epoch {state : ClaimBase} {ws : Workspace}
    (h : claimBaseAuthorizesWorkspace state ws) : state.epoch = ws.claimEpoch := by
  simp only [claimBaseAuthorizesWorkspace, Bool.and_eq_true] at h
  exact claimBasePinsEpoch_epoch h.1.1.2

end Ben
