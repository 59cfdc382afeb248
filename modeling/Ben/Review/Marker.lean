import Ben.Review.Config

/-!
# The controller's durable vocabulary

Markers are HTML comments in bodies the controller signs: the identity of a review, of a completed
route, of a terminal decision taken before its mutation, and of a review that could not be started.
Each kind is rendered, parsed back, and placed in a body beside prose the controller did not write.
-/

namespace Ben.Review

/-! ## Kinds -/

def markerReview : Text := txt "ben:review"

def markerRoute : Text := txt "ben:route"

def markerRouteIntent : Text := txt "ben:route-intent"

def markerReviewBlocked : Text := txt "ben:review-blocked"

def markerMilestone : Text := txt "ben:milestone"

/-- Why a body yields no marker. -/
inductive MarkerErr where
  /-- The body is not one of ours. -/
  | noMarker
  /-- The body carries two markers of one kind. -/
  | ambiguous (name : Text)
  /-- The fields of a marker of ours do not parse. -/
  | malformed (detail : Text)
  deriving DecidableEq, Repr

/-- The fields of a marker, each key once. -/
abbrev Fields := List (Text × Text)

/-- A commit in full: forty hexadecimal digits. -/
def isFullSHA (s : Text) : Bool :=
  s.length == 40 && s.all fun b => (48 ≤ b && b ≤ 57) || (97 ≤ b && b ≤ 102)

/-- The reason is one a marker field can carry. -/
def validBlockReason (reason : Text) : Bool :=
  reason != [] && reason.length ≤ 64 &&
    reason.all fun b => (97 ≤ b && b ≤ 122) || (48 ≤ b && b ≤ 57) || b == 95 || b == 45

/-! ## Rendering -/

/-- One field. -/
def renderField (f : Text × Text) : Text := f.1 ++ txt "=" ++ f.2

/-- A marker of a kind with its fields. -/
def renderMarker (name : Text) (fs : Fields) : Text :=
  txt "<!-- " ++ name ++ txt " " ++ join (txt " ") (fs.map renderField) ++ txt " -->"

/-- The identity of one published controller review. -/
structure ReviewMarker where
  occurrence : Int := 0
  claim : Int := 0
  /-- Zero only when read from a marker that predates the field. -/
  approval : Int := 0
  head : Text := []
  base : Text := []
  verdict : Verdict := .clean
  /-- Empty where there is one reviewer only. -/
  reviewerProfile : Text := []
  deriving DecidableEq, Repr

def ReviewMarker.fields (m : ReviewMarker) : Fields :=
  [(txt "occurrence", itoa m.occurrence), (txt "claim", itoa m.claim),
    (txt "approval", itoa m.approval), (txt "head", m.head), (txt "base", m.base),
    (txt "verdict", m.verdict.text)] ++
  if m.reviewerProfile ≠ [] then [(txt "profile", m.reviewerProfile)] else []

def ReviewMarker.string (m : ReviewMarker) : Text := renderMarker markerReview m.fields

/-- The identity of one completed route. -/
structure RouteMarker where
  occurrence : Int
  claim : Int
  head : Text
  outcome : Outcome
  deriving DecidableEq, Repr

def RouteMarker.fields (m : RouteMarker) : Fields :=
  [(txt "occurrence", itoa m.occurrence), (txt "claim", itoa m.claim), (txt "head", m.head),
    (txt "outcome", m.outcome.text)]

def RouteMarker.string (m : RouteMarker) : Text := renderMarker markerRoute m.fields

/-- A terminal decision recorded before its mutation. -/
structure RouteIntentMarker where
  occurrence : Int
  claim : Int
  approval : Int
  head : Text
  outcome : Outcome
  deriving DecidableEq, Repr

def RouteIntentMarker.fields (m : RouteIntentMarker) : Fields :=
  [(txt "occurrence", itoa m.occurrence), (txt "claim", itoa m.claim),
    (txt "approval", itoa m.approval), (txt "head", m.head), (txt "outcome", m.outcome.text)]

def RouteIntentMarker.string (m : RouteIntentMarker) : Text :=
  renderMarker markerRouteIntent m.fields

/-- The identity of one statement that a review could not be started. -/
structure ReviewBlockedMarker where
  occurrence : Int
  claim : Int
  approval : Int
  head : Text
  reason : Text
  deriving DecidableEq, Repr

def ReviewBlockedMarker.fields (m : ReviewBlockedMarker) : Fields :=
  [(txt "occurrence", itoa m.occurrence), (txt "claim", itoa m.claim),
    (txt "approval", itoa m.approval), (txt "head", m.head), (txt "reason", m.reason)]

def ReviewBlockedMarker.string (m : ReviewBlockedMarker) : Text :=
  renderMarker markerReviewBlocked m.fields

/-! ## Parsing -/

section

variable [Library]

/-- Read the words of a marker as fields, each key once. -/
def parseFields (name : Text) : List Text → Fields → Except MarkerErr Fields
  | [], f => .ok f
  | tok :: toks, f =>
    match Scan.cut (txt "=") tok with
    | none => .error (.malformed (name ++ txt " carries " ++ quote tok ++
        txt ", which is not key=value"))
    | some (k, v) =>
      if (f.lookup k).isSome then
        .error (.malformed (name ++ txt " repeats " ++ quote k))
      else parseFields name toks (f ++ [(k, v)])

/-- Find the single marker of a kind in a body and split its fields. -/
def parseMarker (body name : Text) : Except MarkerErr Fields :=
  let opening := txt "<!-- " ++ name ++ txt " "
  match Scan.cut opening body with
  | none => .error .noMarker
  | some (_, rest) =>
    if contains rest opening then .error (.ambiguous name)
    else match Scan.cut (txt "-->") rest with
      | none => .error (.malformed (name ++ txt " is unterminated"))
      | some (inside, _) => parseFields name (fields inside) []

/-- A positive event id among the fields. -/
def Fields.id (f : Fields) (key : Text) : Except MarkerErr Int :=
  match f.lookup key with
  | none => .error (.malformed (txt "no " ++ key ++ txt " field"))
  | some raw =>
    match Decimal.readInt raw with
    | some v =>
      if v ≤ 0 then .error (.malformed (key ++ txt "=" ++ quote raw ++
        txt " is not a tracker event id"))
      else .ok v
    | none => .error (.malformed (key ++ txt "=" ++ quote raw ++ txt " is not a tracker event id"))

/-- A full commit among the fields. -/
def Fields.sha (f : Fields) (key : Text) : Except MarkerErr Text :=
  let raw := (f.lookup key).getD []
  if isFullSHA raw then .ok raw
  else .error (.malformed (key ++ txt "=" ++ quote raw ++ txt " is not a full commit sha"))

/-- A verdict by its spelling. -/
def Verdict.parse (raw : Text) : Option Verdict :=
  if raw = Verdict.clean.text then some .clean
  else if raw = Verdict.changesRequested.text then some .changesRequested
  else none

/-- An outcome by its spelling, among those allowed. -/
def Outcome.parse (allowed : List Outcome) (raw : Text) : Option Outcome :=
  allowed.find? fun o => o.text = raw

/-- The reviewer profile among the fields; there need not be one. -/
def Fields.profile (f : Fields) : Except MarkerErr Text :=
  match f.lookup (txt "profile") with
  | none => .ok []
  | some profile =>
    if validReviewerProfile profile then .ok profile
    else .error (.malformed (txt "profile " ++ quote profile ++
      txt " is not a valid reviewer profile"))

/-- Read a controller review's marker out of its body. -/
def parseReviewMarker (body : Text) : Except MarkerErr ReviewMarker := do
  let f ← parseMarker body markerReview
  let occurrence ← f.id (txt "occurrence")
  let claim ← f.id (txt "claim")
  let approval ← if (f.lookup (txt "approval")).isSome then f.id (txt "approval") else .ok 0
  let head ← f.sha (txt "head")
  let base ← f.sha (txt "base")
  let profile ← f.profile
  match Verdict.parse ((f.lookup (txt "verdict")).getD []) with
  | some verdict =>
    .ok { occurrence := occurrence, claim := claim, approval := approval, head := head
          base := base, verdict := verdict, reviewerProfile := profile }
  | none => .error (.malformed (txt "verdict " ++ quote ((f.lookup (txt "verdict")).getD []) ++
      txt " is outside the closed set"))

/-- Read a completed route's marker out of a comment body. -/
def parseRouteMarker (body : Text) : Except MarkerErr RouteMarker := do
  let f ← parseMarker body markerRoute
  let occurrence ← f.id (txt "occurrence")
  let claim ← f.id (txt "claim")
  let head ← f.sha (txt "head")
  match Outcome.parse [.revise, .humanReview, .roundCap, .noProgress]
      ((f.lookup (txt "outcome")).getD []) with
  | some outcome =>
    .ok { occurrence := occurrence, claim := claim, head := head, outcome := outcome }
  | none => .error (.malformed (txt "outcome " ++ quote ((f.lookup (txt "outcome")).getD []) ++
      txt " is outside the closed set"))

/-- Read a terminal decision out of a comment body.  A revision is never one. -/
def parseRouteIntentMarker (body : Text) : Except MarkerErr RouteIntentMarker := do
  let f ← parseMarker body markerRouteIntent
  let occurrence ← f.id (txt "occurrence")
  let claim ← f.id (txt "claim")
  let approval ← f.id (txt "approval")
  let head ← f.sha (txt "head")
  match Outcome.parse [.humanReview, .roundCap, .noProgress]
      ((f.lookup (txt "outcome")).getD []) with
  | some outcome =>
    .ok { occurrence := occurrence, claim := claim, approval := approval, head := head
          outcome := outcome }
  | none => .error (.malformed (txt "terminal outcome " ++
      quote ((f.lookup (txt "outcome")).getD []) ++ txt " is outside the closed set"))

/-- Read a blocked-review statement's marker out of a comment body. -/
def parseReviewBlockedMarker (body : Text) : Except MarkerErr ReviewBlockedMarker := do
  let f ← parseMarker body markerReviewBlocked
  let occurrence ← f.id (txt "occurrence")
  let claim ← f.id (txt "claim")
  let approval ← f.id (txt "approval")
  let head ← f.sha (txt "head")
  let reason := (f.lookup (txt "reason")).getD []
  if validBlockReason reason then
    .ok { occurrence := occurrence, claim := claim, approval := approval, head := head
          reason := reason }
  else .error (.malformed (txt "reason " ++ quote reason ++ txt " is not a reason token"))

/-- Read the occurrence out of a `published` milestone. -/
def publishedOccurrence (body : Text) : Except MarkerErr Int := do
  let f ← parseMarker body markerMilestone
  if (f.lookup (txt "kind")).getD [] ≠ txt "published" then .error .noMarker
  else f.id (txt "occurrence")

end

/-! ## Bodies -/

/-- Break every comment opener in prose the controller did not write. -/
def sanitizeFindings (s : Text) : Text := Scan.replaceAll (txt "<!--") (txt "< !--") s

/-- How much of a reviewer's prose is republished. -/
def maxFindings : Nat := 60000

/-- The prose of a review body. -/
def reviewProse (findings : Text) : Text :=
  let findings := trimSpace (sanitizeFindings findings)
  let findings :=
    if maxFindings < findings.length then findings.take maxFindings ++ txt "\n\n_(truncated)_"
    else findings
  if findings = [] then txt "_The reviewer returned no findings._" else findings

/-- What the controller publishes as a review. -/
def reviewBody (m : ReviewMarker) (findings : Text) : Text :=
  txt "**Automated review** — advisory only. This is a `COMMENT` review by BEN's review " ++
  txt "controller; it is not an approval, and a human code owner's review is still required.\n\n" ++
  txt "- verdict: `" ++ m.verdict.text ++ txt "`\n" ++
  txt "- head: `" ++ m.head ++ txt "`\n" ++
  (if m.reviewerProfile ≠ [] then txt "- reviewer profile: `" ++ m.reviewerProfile ++ txt "`\n"
    else []) ++
  txt "\n" ++ reviewProse findings ++ txt "\n\n" ++ m.string ++ txt "\n"

/-- The comment that records a completed route. -/
def routeBody (m : RouteMarker) (why : Text) : Text :=
  txt "**Review controller** routed occurrence `" ++ itoa m.occurrence ++ txt "` to `" ++
  m.outcome.text ++ txt "`.\n\n" ++
  txt "- head: `" ++ m.head ++ txt "`\n" ++
  txt "- reason: " ++ trimSpace (sanitizeFindings why) ++ txt "\n\n" ++ m.string ++ txt "\n"

/-- The comment that records a terminal decision before its mutation. -/
def routeIntentBody (m : RouteIntentMarker) (why : Text) : Text :=
  txt "**Review controller** prepared terminal route `" ++ m.outcome.text ++
  txt "` for occurrence `" ++ itoa m.occurrence ++ txt "`.\n\n" ++
  txt "- head: `" ++ m.head ++ txt "`\n" ++
  txt "- approval event: `" ++ itoa m.approval ++ txt "`\n" ++
  txt "- reason: " ++ trimSpace (sanitizeFindings why) ++ txt "\n\n" ++ m.string ++ txt "\n"

/-- The comment posted when the reviewer could not be started. -/
def reviewBlockedBody (m : ReviewBlockedMarker) (detail : Text) : Text :=
  let d := trimSpace (sanitizeFindings detail)
  txt "**Review controller** could not start the independent review of head `" ++ m.head ++
  txt "`.\n\n" ++
  txt "The execution substrate refused to admit the reviewer run (`" ++ m.reason ++
  txt "`), so no review was produced and none will be until the request or the substrate's " ++
  txt "limits change. " ++
  txt "This is not a verdict on the change: the pull request still needs a human code owner's " ++
  txt "review, and BEN's assignment and the approval label are untouched.\n\n" ++
  (if d ≠ [] then txt "- detail: " ++ d ++ txt "\n" else []) ++
  txt "- occurrence: `" ++ itoa m.occurrence ++ txt "`\n\n" ++ m.string ++ txt "\n"

end Ben.Review
