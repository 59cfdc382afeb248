import Ben.ReviewRun.Verdict

/-!
# Review runs and their records

A review run is addressed by a digest of its subject and kept in one durable record: who it is
for, whether a start was attempted, how far its output was read, and the verdict it stated.  The
record is replaced whole, so the cursor and the bytes up to it are never apart.

Hashing comes from a class; everything it is applied to is spelled out.
-/

namespace Ben.ReviewRun

open Ben.Review

/-- The hash that identities and digests are made of, in hexadecimal. -/
class Sha256 where
  sha256Hex : Text → Text

export Sha256 (sha256Hex)

/-- What a run in a workspace cycle's sandbox is for. -/
def role : Text := txt "codex-review"

/-- The exact review subject. -/
structure Subject where
  repository : Text
  issue : Text
  /-- The approval event that the workspace cycle is keyed by. -/
  cycle : Int
  occurrence : Int
  claim : Int
  pr : Int
  targetBranch : Text
  base : Text
  head : Text
  diff : Text
  reviewerProfile : Text
  deriving DecidableEq

/-- The names of the fields that a subject lacks. -/
def Subject.missing (s : Subject) : List Text :=
  (if s.repository = [] then [txt "repository"] else []) ++
  (if s.issue = [] then [txt "issue"] else []) ++
  (if s.cycle ≤ 0 then [txt "workspace cycle"] else []) ++
  (if s.occurrence ≤ 0 then [txt "occurrence"] else []) ++
  (if s.claim ≤ 0 then [txt "claim epoch"] else []) ++
  (if s.pr ≤ 0 then [txt "pull request"] else []) ++
  (if s.targetBranch = [] then [txt "target branch"] else []) ++
  (if isFullSHA s.base then [] else [txt "base sha"]) ++
  (if isFullSHA s.head then [] else [txt "head sha"]) ++
  (if s.reviewerProfile ≠ [] && !validReviewerProfile s.reviewerProfile then
    [txt "reviewer profile"] else [])

/-- The opaque name of the workspace cycle a subject belongs to. -/
def Subject.cycleAddress (s : Subject) : Text :=
  s.repository ++ txt "#" ++ s.issue ++ txt "@" ++ itoa s.cycle

/-- The parts with their lengths before them, so that no two lists of parts spell one text. -/
def lengthPrefixed (parts : List Text) : Text :=
  parts.flatMap fun part => itoa part.length ++ txt ":" ++ part ++ txt "\n"

/-- The identity of the run that reviews a subject. -/
def Subject.runID [Sha256] (s : Subject) : Text :=
  txt "review-" ++ (sha256Hex (lengthPrefixed
    ([role, s.repository, s.issue, itoa s.cycle, itoa s.occurrence, s.targetBranch, s.base,
      s.head] ++ if s.reviewerProfile = [] then [] else [s.reviewerProfile]))).take 32

/-- The digest of the whole subject, with the bytes that the model is given. -/
def Subject.subjectDigest [Sha256] (s : Subject) : Text :=
  txt "sha256:" ++ sha256Hex (lengthPrefixed
    ([role, s.repository, s.issue, itoa s.cycle, itoa s.occurrence, itoa s.claim, itoa s.pr,
      s.targetBranch, s.base, s.head, s.diff] ++
      if s.reviewerProfile = [] then [] else [s.reviewerProfile]))

/-- The durable address of one exact reviewer dispatch. -/
structure Ref where
  run : Text
  repository : Text
  issue : Text
  cycle : Int
  branch : Text
  baseSHA : Text
  targetBranch : Text
  sandbox : Text
  profile : Text
  digest : Text
  deriving DecidableEq

/-- Where one review runs; nothing of it is named under an executor without sandboxes. -/
structure Placement where
  branch : Text := []
  baseSHA : Text := []
  targetBranch : Text := []
  sandbox : Text := []
  profile : Text := []
  deriving DecidableEq

/-- A placement that can address a backend run. -/
def Placement.complete (p : Placement) : Bool :=
  p.branch ≠ [] && p.baseSHA ≠ [] && p.targetBranch ≠ [] && p.sandbox ≠ [] && p.profile ≠ []

/-- The immutable reviewer invocation. -/
structure Request where
  argv : List Text
  env : List (Text × Text)
  stdin : Text
  deriving DecidableEq

inductive ChunkStream where
  | stdout
  | stderr
  | control
  deriving DecidableEq

/-- The byte a stream is hashed as. -/
def ChunkStream.byte : ChunkStream → UInt8
  | .stdout => 0
  | .stderr => 1
  | .control => 2

/-- One durable process event. -/
structure Chunk where
  seq : Int
  stream : ChunkStream
  payload : Text
  truncated : Bool
  deriving DecidableEq

/-- One fresh observation of a run.  Unless it was reachable the rest means nothing. -/
structure State where
  backendRunID : Text := []
  reachable : Bool := false
  sealed : Bool := false
  quiet : Bool := false
  profile : Text := []
  sandbox : Text := []
  deriving DecidableEq

/-- The output is complete and nothing executes any more. -/
def State.over (st : State) : Bool := st.reachable && st.sealed && st.quiet

/-- An executor's definite statement that a dispatch was not admitted. -/
structure Refusal where
  reason : Text
  detail : Text
  deriving DecidableEq

def recordVersion : Int := 2

/-- The most output one record may retain. -/
def maxOutput : Nat := 4194304

/-- One review run's durable execution state. -/
structure Record where
  version : Int := recordVersion
  run : Text
  cycle : Text
  role : Text := ReviewRun.role
  repository : Text
  issue : Text
  approval : Int
  occurrence : Int
  claim : Int
  pr : Int
  base : Text
  head : Text
  reviewerProfile : Text
  branch : Text
  baseSHA : Text
  targetBranch : Text
  sandbox : Text
  profile : Text
  digest : Text
  subject : Text
  /-- Written before a start is attempted. -/
  dispatched : Bool := false
  backendRunID : Text := []
  /-- The highest admitted sequence number. -/
  cursor : Int := 0
  /-- Every byte of standard output up to the cursor. -/
  output : Text := []
  /-- The digests of the admitted events. -/
  admitted : List (Int × Text) := []
  sealed : Bool := false
  verdict : Text := []
  findings : Text := []
  quiet : Bool := false
  refusal : Option Refusal := none
  deriving DecidableEq

/-- The durable address a record names. -/
def Record.ref (r : Record) : Ref where
  run := r.run
  repository := r.repository
  issue := r.issue
  cycle := r.approval
  branch := r.branch
  baseSHA := r.baseSHA
  targetBranch := r.targetBranch
  sandbox := r.sandbox
  profile := r.profile
  digest := r.digest

/-- The run has stated a verdict. -/
def Record.terminal (r : Record) : Bool := r.verdict ≠ []

/-- The executor declined the dispatch. -/
def Record.refused (r : Record) : Bool := r.refusal.isSome

/-- The shapes of a record that are acted on; the store refuses any other. -/
def Record.valid (r : Record) : Bool :=
  r.version = recordVersion &&
  !(r.run = [] || r.cycle = [] || r.role = [] || r.digest = [] || r.subject = []) &&
  !(r.repository = [] || r.issue = []) &&
  !(r.approval ≤ 0 || r.occurrence ≤ 0 || r.claim ≤ 0 || r.pr ≤ 0) &&
  (isFullSHA r.base && isFullSHA r.head) &&
  !(r.reviewerProfile ≠ [] && !validReviewerProfile r.reviewerProfile) &&
  !(r.sandbox ≠ [] && r.targetBranch = []) &&
  !(r.cursor < 0) &&
  !(r.backendRunID ≠ [] && !r.dispatched) &&
  !(r.verdict ≠ [] && !r.sealed) &&
  !(r.verdict ≠ [] && !r.quiet) &&
  !(r.refusal.isSome && !r.dispatched) &&
  !(r.refusal.isSome && (r.backendRunID ≠ [] || r.verdict ≠ [])) &&
  !(r.refusal.any fun x => x.reason = []) &&
  !(maxOutput < r.output.length)

lemma Record.sealed_of_terminal {r : Record} (hvalid : r.valid) (h : r.terminal) :
    r.sealed ∧ r.quiet ∧ r.refusal = none := by
  simp only [Record.terminal, decide_eq_true_eq] at h
  simp only [Record.valid, Bool.and_eq_true, Bool.not_eq_true', Bool.and_eq_false_iff,
    Bool.or_eq_false_iff, decide_eq_false_iff_not, ne_eq, not_not, Bool.not_eq_false',
    Option.isSome_eq_false_iff, Option.isNone_iff_eq_none] at hvalid
  obtain ⟨⟨⟨⟨⟨⟨-, hsealed⟩, hquiet⟩, -⟩, hrefusal⟩, -⟩, -⟩ := hvalid
  exact ⟨hsealed.resolve_left h, hquiet.resolve_left h, hrefusal.resolve_right fun hx => h hx.2⟩

/-- What a session reports when it stops without a verdict. -/
inductive Err where
  | subject (missing : List Text)
  | compose
  | credentialLeak
  | sandbox
  | sandboxMismatch
  | digest
  | store
  | runMismatch (run : Text)
  | profileDrift (run : Text)
  | notQuiet (run : Text)
  | runUnresolved (run : Text)
  | runRefused (run : Text) (refusal : Refusal)
  | runIncomplete (run : Text)
  | unreadable (run : Text)
  | unobserved (run : Text)
  | outputTruncated (run : Text) (seq : Int)
  | eventConflict (run : Text) (seq : Int)
  | eventGap (run : Text) (expected offered : Int)
  | outputOverflow (run : Text) (seq : Int)
  | verdict (e : VerdictErr)
  deriving DecidableEq

/-- The identity that a replayed event is compared with. -/
def chunkDigest [Sha256] (c : Chunk) : Text :=
  txt "sha256:" ++ sha256Hex (c.stream.byte :: (if c.truncated then 1 else 0) :: c.payload)

section Admission

variable [Sha256]

/-- The record with one more event.  Only standard output is kept; the others move the cursor. -/
def Record.grow (r : Record) (c : Chunk) : Record :=
  { r with
    output := if c.stream = .stdout then r.output ++ c.payload else r.output
    admitted := (c.seq, chunkDigest c) :: r.admitted
    cursor := c.seq }

/-- One event folded into a record: a replay is compared and dropped, the next one is taken, and
anything further ahead is a gap. -/
def admitChunk (r : Record) (c : Chunk) : Except Err Record :=
  if c.truncated then .error (.outputTruncated r.run c.seq)
  else if c.seq ≤ r.cursor then
    match r.admitted.lookup c.seq with
    | some prior =>
      if prior ≠ chunkDigest c then .error (.eventConflict r.run c.seq) else .ok r
    | none => .ok r
  else if c.seq ≠ r.cursor + 1 then .error (.eventGap r.run (r.cursor + 1) c.seq)
  else if c.stream = .stdout && maxOutput < r.output.length + c.payload.length then
    .error (.outputOverflow r.run c.seq)
  else .ok (r.grow c)

/-- New events folded into a record, all of them or none. -/
def admitChunks (r : Record) (chunks : List Chunk) : Except Err Record := chunks.foldlM admitChunk r

end Admission

/-- The standard output among some events. -/
def stdout (chunks : List Chunk) : Text :=
  chunks.flatMap fun c => if c.stream = .stdout then c.payload else []

end Ben.ReviewRun
