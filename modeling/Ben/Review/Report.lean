import Ben.Lib.Json
import Ben.Review.Marker

/-!
# The reviewer's report

What the reviewer model writes and the controller validates: one JSON object with a verdict and
findings, bare or in one fenced block.  Unknown fields, other types and anything after the object
are refused, and so is a verdict outside the closed set.

Member names are matched as the decoder matches them, exactly or under case folding.  Of the
folding only what can meet an ASCII name is reproduced: letters, the long s and the Kelvin sign.
-/

namespace Ben.Review

open List

/-- A member name under case folding, as far as it can equal an ASCII name. -/
def foldName : Text → Text
  | [] => []
  | [c] => [upper c]
  | [c, d] => if c = 0xC5 && d = 0xBF then [0x53] else [upper c, upper d]
  | c :: d :: e :: t =>
    if c = 0xC5 && d = 0xBF then 0x53 :: foldName (e :: t)
    else if c = 0xE2 && d = 0x84 && e = 0xAA then 0x4B :: foldName t
    else upper c :: foldName (d :: e :: t)
where
  upper (c : UInt8) : UInt8 := if 0x61 ≤ c && c ≤ 0x7A then c - 0x20 else c

/-- The key names a field, exactly or under case folding. -/
def names (key field : Text) : Bool := foldName key = foldName field

/-- A report as it is decoded, before its verdict is looked at. -/
structure RawReport where
  verdict : Text := []
  findings : Text := []

/-- A text field takes a text; nothing leaves it as it is, and anything else does not fit. -/
def decodeText (old : Text) : Json.Value → Option Text
  | .string s => some s
  | .null => some old
  | _ => none

/-- One member decoded into a report.  A field the report does not have is refused. -/
def RawReport.set (r : RawReport) (m : Text × Json.Value) : Option RawReport :=
  if names m.1 (txt "verdict") then
    (decodeText r.verdict m.2).map fun s => { r with verdict := s }
  else if names m.1 (txt "findings") then
    (decodeText r.findings m.2).map fun s => { r with findings := s }
  else none

/-- A value decoded into a report; later members win. -/
def decodeReport : Json.Value → Option RawReport
  | .object ms => ms.foldlM RawReport.set {}
  | .null => some {}
  | _ => none

/-- What the reviewer states. -/
structure Report where
  verdict : Verdict
  findings : Text
  deriving DecidableEq

/-- Why a report is not one of the closed set. -/
inductive Unknown where
  /-- It does not decode, or something follows it. -/
  | malformed
  /-- The reply carries several fenced objects. -/
  | objects (n : Nat)
  /-- The verdict is another word. -/
  | word (raw : Text)
  deriving DecidableEq

/-- The refusals of a report. -/
inductive ReportErr where
  | noVerdict
  | unknownVerdict (why : Unknown)
  deriving DecidableEq

/-- The text begins with a brace. -/
def opensObject (s : Text) : Bool := s.head? = some 0x7B

/-- The marker around fenced blocks. -/
def fence : Text := txt "```"

/-- Fenced content stands at the odd places of a split on the fence marker. -/
def oddParts : List Text → List Text
  | _ :: part :: parts => part :: oddParts parts
  | _ => []

/-- The block without the info string on its opening fence. -/
def dropInfo (part : Text) : Text :=
  match Scan.cut (txt "\n") part with
  | some (_, rest) => if opensObject (trimSpace part) then part else rest
  | none => part

/-- The object a fenced part holds. -/
def fencedObject (part : Text) : Option Text :=
  let block := trimSpace (dropInfo part)
  if opensObject block then some block else none

/-- The one fenced object of a reply. -/
def soleFencedObject (body : Text) : Except ReportErr Text :=
  match (oddParts (Scan.split fence body)).filterMap fencedObject with
  | [] => .error .noVerdict
  | [object] => .ok object
  | found => .error (.unknownVerdict (.objects found.length))

/-- The verdict of a decoded report. -/
def RawReport.check (r : RawReport) : Except ReportErr Report :=
  if r.verdict = [] then .error .noVerdict
  else
    match Verdict.parse r.verdict with
    | some v => .ok { verdict := v, findings := r.findings }
    | none => .error (.unknownVerdict (.word r.verdict))

/-- The report an object's text spells; nothing but white space may follow the object. -/
def readReport (body : Text) : Except ReportErr Report :=
  match (Json.document body).bind decodeReport with
  | some r => r.check
  | none => .error (.unknownVerdict .malformed)

/-- Read the reviewer's verdict. -/
def parseReport (data : Text) : Except ReportErr Report :=
  let body := trimSpace data
  if body = [] then .error .noVerdict
  else if opensObject body then readReport body
  else
    match soleFencedObject body with
    | .ok object => readReport object
    | .error e => .error e

/-! ## Reports inside a text -/

end Ben.Review
