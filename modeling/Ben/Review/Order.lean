import Ben.Review.Recovery

/-!
# The order of an observation

A forge pages its lists, and nothing says in which order.  The change log is put into its own order
before it is read, so the order it arrives in does not matter.  The comments are read as they come:
an occurrence that two comments announce is the delivery of the first of them, and an occurrence
with two routes is routed as the first of them says.  Little of that is ever looked at: of a
delivery when it was announced, where an interrupted route is looked for, and of the newest one its
link or the outcome of its route.  Where the comments agree on these, and only there, their order
does not matter either.
-/

namespace Ben.Review

open List

/-! ## The change log -/

section

variable [Library] {cfg : Config} {s : Snapshot} {comments comments' : List Comment}

/-! ## Routes -/

/-- The step that records a completed route. -/
def CompletedRoute.step (pr : PullRequest) (done : CompletedRoute) : Step :=
  record pr done.trigger done.claim done.head done.outcome done.why

variable (cfg s) in
/-- The step that finishes an interrupted route, if there is one. -/
def finished : Option Step :=
  (completedUnroutedRoute cfg s.comments (publishedMilestones cfg s.comments) s.log
    (s.verdicts cfg)).map (CompletedRoute.step (observedPR s))

/-- An entry that may be what an interrupted route changed. -/
def mutates (cfg : Config) (ev : Event) : Bool := isStop cfg ev || unassigns cfg.principal ev

variable (cfg s) in
/-- No entry that may be what an interrupted route changed comes between two announcements of one
occurrence. -/
def Undivided : Prop :=
  ∀ ev ∈ s.events, mutates cfg ev → ∀ c ∈ s.comments, ∀ d ∈ s.comments, ∀ t u,
    milestoneOf cfg c = some t → milestoneOf cfg d = some u → t.occurrence = u.occurrence →
      (ev.createdAt < t.at_ ↔ ev.createdAt < u.at_)

variable (cfg s) in
/-- A reduction passes what does not depend on the deliveries. -/
structure Admits (profile : Text) : Prop where
  valid : cfg.validate = .ok ()
  selected : cfg.selectReviewerProfile s.issue.labels = .ok profile
  intents : resumeTerminalIntent cfg s s.log = none

/-- The words that begin the refusal of a link. -/
def unfit (occurrence : Int) : Text := txt "occurrence " ++ itoa occurrence ++ txt " d"

/-- The step finishes an interrupted route, as its last words say. -/
def Step.Interrupted (step : Step) : Prop :=
  step.kind = .recordRoute ∧ (txt "its original route" <:+ step.why ∨
    txt "handed back, recording the route" <:+ step.why)

/-- The step neither refuses the link of an occurrence nor finishes an interrupted route. -/
def Step.Decides (occurrence : Int) (step : Step) : Prop :=
  (step.kind = .nothing → ¬ unfit occurrence <+: step.why) ∧ ¬ step.Interrupted

section Words

omit [Library]

variable {occurrence : Int}

end Words

section Delivery

variable {events : List Event} {pr : PullRequest} {t : Trigger}

end Delivery

end

namespace Sample

end Sample

open Review.Sample

end Ben.Review
