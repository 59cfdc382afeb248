import Mathlib.Data.List.Sort
import Ben.Review.Marker

/-!
# Published milestones and their subject

A delivery is a `published` milestone comment by the tracker identity, with a link to the pull
request.  The pull request it links is the subject only if the link, the branch and the closing
keyword of its body all name the issue.
-/

namespace Ben.Review

/-- One delivery. -/
structure Trigger where
  occurrence : Int
  prURL : Text := []
  at_ : Time := 0
  commentID : Int := 0
  deriving DecidableEq, Repr

/-- The one structured line read out of a milestone body. -/
def prLinkField : Text := txt "- pull request: "

/-- The link a milestone body carries. -/
def publishedPRLink (body : Text) : Option Text :=
  (body.splitOn 10).findSome? fun line =>
    (cutPrefix (trimSpace line) prLinkField).bind fun rest =>
      if trimSpace rest = [] then none else some (trimSpace rest)

variable [Library]

/-- The trusted milestones of the comments, the first comment of each occurrence. -/
def readMilestones (cfg : Config) : List Int → List Comment → List Trigger
  | _, [] => []
  | seen, c :: comments =>
    if !eqFold c.author cfg.trackerAuthor then readMilestones cfg seen comments
    else match publishedOccurrence c.body with
      | .error _ => readMilestones cfg seen comments
      | .ok occ =>
        match publishedPRLink c.body with
        | none => readMilestones cfg seen comments
        | some url =>
          if seen.contains occ then readMilestones cfg seen comments
          else { occurrence := occ, prURL := url, at_ := c.createdAt, commentID := c.id } ::
            readMilestones cfg (occ :: seen) comments

/-- One trusted delivery per occurrence, in the order of occurrences. -/
def publishedMilestones (cfg : Config) (comments : List Comment) : List Trigger :=
  (readMilestones cfg [] comments).insertionSort fun a b => a.occurrence ≤ b.occurrence

/-- The newest delivery. -/
def latestPublished (cfg : Config) (comments : List Comment) : Option Trigger :=
  (publishedMilestones cfg comments).getLast?

/-! ## Links -/

/-- A byte of an owner's or a repository's name. -/
def pathNameByte (b : UInt8) : Bool :=
  (65 ≤ b && b ≤ 90) || (97 ≤ b && b ≤ 122) || (48 ≤ b && b ≤ 57) || b == 46 || b == 95 || b == 45

/-- An owner's or a repository's name. -/
def pathName (s : Text) : Bool := s != [] && s.all pathNameByte

/-- Split the canonical shape of a pull request's web URL into owner, repository and number. -/
def parsePRURL (raw : Text) : Except Text (Text × Text × Int) :=
  match parseURL (trimSpace raw) with
  | none => .error (quote raw ++ txt " is not a pull request URL")
  | some u =>
    if u.scheme ≠ txt "https" || u.host = [] || u.hasUser || u.opaquePart ≠ [] ||
        u.rawQuery ≠ [] || u.forceQuery || u.fragment ≠ [] || u.rawPath ≠ [] then
      .error (quote raw ++ txt " is not a pull request URL")
    else match u.path.splitOn 47 with
      | [first, owner, repo, pull, number] =>
        if first ≠ [] || pull ≠ txt "pull" || !pathName owner || !pathName repo then
          .error (quote raw ++ txt " is not a pull request URL")
        else match Decimal.readInt number with
          | none => .error (quote raw ++ txt " carries no pull request number")
          | some n =>
            if n ≤ 0 then .error (quote raw ++ txt " carries no pull request number")
            else .ok (owner, repo, n)
      | _ => .error (quote raw ++ txt " is not a pull request URL")

/-! ## Closing keywords -/

/-- Read a letter in either case; an `s` may also be the long one. -/
def readLetter (letter : UInt8) : Text → Option Text
  | 0xC5 :: 0xBF :: s => if letter = 115 then some s else none
  | b :: s => if b = letter ∨ b + 32 = letter then some s else none
  | [] => none

/-- Read a word in either case. -/
def readWord : Text → Text → Option Text
  | [], s => some s
  | letter :: word, s => (readLetter letter s).bind (readWord word)

/-- A byte of a word in the sense of a word boundary. -/
def wordByte (b : UInt8) : Bool :=
  (65 ≤ b && b ≤ 90) || (97 ≤ b && b ≤ 122) || (48 ≤ b && b ≤ 57) || b == 95

/-- Read one of the closing keywords, with its ending if it has one. -/
def readKeyword (s : Text) : Option Text :=
  let ending (s : Text) : Text := ((readLetter 115 s).or (readLetter 100 s)).getD s
  ((readWord (txt "close") s).map ending).or
    (((readWord (txt "fix") s).map fun s => ((readWord (txt "es") s).or
        (readWord (txt "ed") s)).getD s).or
      ((readWord (txt "resolve") s).map ending))

/-- Split off the longest run of name bytes; the folded class has two letters beyond the plain
ones. -/
def spanName : Text → Text × Text
  | [] => ([], [])
  | 0xC5 :: 0xBF :: s => (0xC5 :: 0xBF :: (spanName s).1, (spanName s).2)
  | 0xE2 :: 0x84 :: 0xAA :: s => (0xE2 :: 0x84 :: 0xAA :: (spanName s).1, (spanName s).2)
  | b :: s => if pathNameByte b then (b :: (spanName s).1, (spanName s).2) else ([], b :: s)

/-- A closing reference: the repository it names, if it names one, and the issue's digits. -/
structure ClosingReference where
  owner : Text
  repo : Text
  number : Text
  deriving DecidableEq, Repr

/-- Read the number of a closing reference, which ends at a word boundary. -/
def readReferenceNumber (owner repo : Text) : Text → Option (ClosingReference × Text)
  | 35 :: s =>
    let digits := s.takeWhile fun b => 48 ≤ b && b ≤ 57
    let rest := s.drop digits.length
    if digits = [] || rest.head?.any wordByte then none
    else some ({ owner := owner, repo := repo, number := digits }, rest)
  | _ => none

/-- Read a closing reference at the head of a text. -/
def readReference (s : Text) : Option (ClosingReference × Text) :=
  (readKeyword s).bind fun s =>
    let blank (b : UInt8) : Bool := b == 9 || b == 10 || b == 12 || b == 13 || b == 32
    let rest := s.dropWhile blank
    if rest.length = s.length then none
    else match spanName rest with
      | ([], _) => readReferenceNumber [] [] rest
      | (owner, 47 :: rest) =>
        match spanName rest with
        | ([], _) => none
        | (repo, rest) => readReferenceNumber owner repo rest
      | _ => none

/-- Every closing reference of a text, from the left, after letting some bytes go; the flag tells
whether the byte before is one of a word. -/
def closingReferences : Nat → Bool → Text → List ClosingReference
  | _, _, [] => []
  | k + 1, _, b :: s => closingReferences k (wordByte b) s
  | 0, inWord, b :: s =>
    match if inWord then none else readReference (b :: s) with
    | none => closingReferences 0 (wordByte b) s
    | some (ref, rest) => ref :: closingReferences (s.length - rest.length) (wordByte b) s

/-- The distinct issues a body promises to close, and whether it names another repository. -/
def readClosing (cfg : Config) : List ClosingReference → List Int → Bool → List Int × Bool
  | [], issues, foreign => (issues, foreign)
  | ref :: refs, issues, foreign =>
    if ref.owner ≠ [] && !(eqFold ref.owner cfg.owner && eqFold ref.repo cfg.repo) then
      readClosing cfg refs issues true
    else match Decimal.readInt ref.number with
      | none => readClosing cfg refs issues foreign
      | some n =>
        if issues.contains n then readClosing cfg refs issues foreign
        else readClosing cfg refs (issues ++ [n]) foreign

def closingIssues (cfg : Config) (body : Text) : List Int × Bool :=
  readClosing cfg (closingReferences 0 false body) [] false

/-! ## The subject -/

/-- The issue number of a canonical branch. -/
def branchIssue (branch : Text) : Option Int :=
  (cutPrefix branch (txt "ben/")).bind fun rest =>
    (Decimal.readInt rest).bind fun n => if n ≤ 0 then none else some n

/-- Refuse a pull request that is not the issue's work. -/
def validateSubject (cfg : Config) (t : Trigger) (pr : Option PullRequest) : Except Text Unit :=
  match pr with
  | none => .error (txt "the milestone's pull request " ++ t.prURL ++ txt " could not be read")
  | some pr =>
    match parsePRURL t.prURL with
    | .error e => .error (txt "the milestone's link is not usable: " ++ e)
    | .ok (owner, repo, number) =>
      if !eqFold owner cfg.owner || !eqFold repo cfg.repo then
        .error (txt "the milestone links " ++ owner ++ txt "/" ++ repo ++ txt ", which is not " ++
          cfg.owner ++ txt "/" ++ cfg.repo)
      else if number ≠ pr.number then
        .error (txt "the milestone links pull request #" ++ itoa number ++ txt " but #" ++
          itoa pr.number ++ txt " was read")
      else match parsePRURL pr.url with
        | .error e => .error (txt "pull request #" ++ itoa pr.number ++
            txt " reports no canonical web URL: " ++ e)
        | .ok (apiOwner, apiRepo, apiNumber) =>
          if !eqFold apiOwner cfg.owner || !eqFold apiRepo cfg.repo ||
              apiNumber ≠ pr.number then
            .error (txt "pull request #" ++ itoa pr.number ++ txt " reports URL " ++
              quote pr.url ++ txt " outside " ++ cfg.owner ++ txt "/" ++ cfg.repo)
          else if trimSpace t.prURL ≠ trimSpace pr.url then
            .error (txt "the milestone's link " ++ quote t.prURL ++
              txt " does not exactly match the forge's canonical " ++ quote pr.url)
          else if pr.closed || pr.merged then
            .error (txt "pull request #" ++ itoa pr.number ++ txt " is not open")
          else if pr.branch ≠ cfg.branch then
            .error (txt "pull request #" ++ itoa pr.number ++ txt " is from " ++
              quote pr.branch ++ txt ", not the canonical " ++ quote cfg.branch)
          else if branchIssue pr.branch ≠ some cfg.issue then
            .error (txt "branch " ++ quote pr.branch ++ txt " does not resolve to issue #" ++
              itoa cfg.issue)
          else if !isFullSHA pr.head then
            .error (txt "pull request #" ++ itoa pr.number ++ txt " reports head " ++
              quote pr.head ++ txt ", which is not a commit sha")
          else if trimSpace pr.base = [] then
            .error (txt "pull request #" ++ itoa pr.number ++ txt " reports no base ref")
          else if !isFullSHA pr.baseSHA then
            .error (txt "pull request #" ++ itoa pr.number ++ txt " reports base " ++
              quote pr.baseSHA ++ txt ", which is not a commit sha")
          else match closingIssues cfg pr.body with
            | (_ :: _, true) => .error (txt "pull request #" ++ itoa pr.number ++
                txt " also closes an issue in another repository; one branch may close only #" ++
                itoa cfg.issue)
            | ([], true) => .error (txt "pull request #" ++ itoa pr.number ++
                txt " closes an issue in another repository, not #" ++ itoa cfg.issue)
            | ([], false) => .error (txt "pull request #" ++ itoa pr.number ++
                txt " names no issue to close, so it cannot be confirmed as #" ++
                itoa cfg.issue ++ txt "'s work")
            | ([n], false) =>
              if n ≠ cfg.issue then .error (txt "pull request #" ++ itoa pr.number ++
                txt " closes issue #" ++ itoa n ++ txt ", not #" ++ itoa cfg.issue)
              else .ok ()
            | (issues, false) => .error (txt "pull request #" ++ itoa pr.number ++
                txt " closes " ++ itoa issues.length ++
                txt " issues; one branch, one issue, one pull request")

end Ben.Review
