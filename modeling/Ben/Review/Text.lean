import Ben.Lib.Scan
import Ben.Lib.Decimal

/-!
# Texts of the forge

Everything the review controller reads off the forge is a text: bodies, logins, labels, commits.
Texts are bytes, because bodies are cut at byte positions and nothing makes them spell whole
characters.  White space is the Unicode one, recognised by its encodings.  What rests on tables or
grammars that are not reproduced here comes from a class: equality under case folding, quoting for
a message, and the parsing of a URL.
-/

namespace Ben.Review

/-- A text, as bytes. -/
abbrev Text := List UInt8

/-- The bytes of a literal. -/
def txt (s : String) : Text := s.toList.flatMap String.utf8EncodeChar

/-- A number in decimal. -/
def itoa (n : Int) : Text := Decimal.ofInt n

/-- The encodings of the white space characters. -/
def spaces : List Text :=
  [[0x09], [0x0A], [0x0B], [0x0C], [0x0D], [0x20], [0xC2, 0x85], [0xC2, 0xA0], [0xE1, 0x9A, 0x80],
    [0xE2, 0x80, 0x80], [0xE2, 0x80, 0x81], [0xE2, 0x80, 0x82], [0xE2, 0x80, 0x83],
    [0xE2, 0x80, 0x84], [0xE2, 0x80, 0x85], [0xE2, 0x80, 0x86], [0xE2, 0x80, 0x87],
    [0xE2, 0x80, 0x88], [0xE2, 0x80, 0x89], [0xE2, 0x80, 0x8A], [0xE2, 0x80, 0xA8],
    [0xE2, 0x80, 0xA9], [0xE2, 0x80, 0xAF], [0xE2, 0x81, 0x9F], [0xE3, 0x80, 0x80]]

/-- How many bytes of white space a text begins with, for one character of it. -/
def spaceWidth (l : Text) : Nat := ((spaces.find? fun s => s.isPrefixOf l).map List.length).getD 0

/-- The same of a reversed text, for one character of white space it ends with. -/
def spaceWidthBack (l : Text) : Nat :=
  ((spaces.find? fun s => s.reverse.isPrefixOf l).map List.length).getD 0

/-- The text without the white space around it. -/
def trimSpace (s : Text) : Text := Scan.trimRight spaceWidthBack (Scan.trimLeft spaceWidth s)

/-- The words of a text. -/
def fields (s : Text) : List Text := Scan.fields spaceWidth s

/-- Some place of the text reads `sub`. -/
def contains (s sub : Text) : Bool := (Scan.cut sub s).isSome

/-- The rest of a text that begins with `pre`. -/
def cutPrefix (s pre : Text) : Option Text :=
  if pre.isPrefixOf s then some (s.drop pre.length) else none

/-- The texts joined by a separator. -/
def join (sep : Text) : List Text → Text
  | [] => []
  | [t] => t
  | t :: ts => t ++ sep ++ join sep ts

/-- A parsed URL, as far as its parts are asked for. -/
structure URL where
  scheme : Text := []
  host : Text := []
  hasUser : Bool := false
  opaquePart : Text := []
  rawQuery : Text := []
  forceQuery : Bool := false
  fragment : Text := []
  path : Text := []
  rawPath : Text := []
  deriving DecidableEq, Repr

/-- What the controller takes from its library that rests on tables and grammars. -/
class Library where
  /-- Equality under simple case folding. -/
  equalFold : Text → Text → Bool
  /-- The text between quotes, with what cannot be printed escaped. -/
  quote : Text → Text
  /-- The parts of a URL, if the text is one. -/
  parseURL : Text → Option URL
  equalFold_self (a : Text) : equalFold a a = true
  equalFold_comm (a b : Text) : equalFold a b = equalFold b a
  equalFold_trans (a b c : Text) :
    equalFold a b = true → equalFold b c = true → equalFold a c = true

export Library (equalFold quote parseURL)

/-! ## Infixes -/

lemma trimSpace_isInfix (s) : trimSpace s <:+: s :=
  (Scan.trimRight_isPrefix _).isInfix.trans (Scan.trimLeft_isSuffix _ s).isInfix

lemma contains_eq_false {s sub} : contains s sub = false ↔ ¬ sub <:+: s := by
  rw [← Scan.cut_eq_none_iff, contains, Option.isSome_eq_false_iff, Option.isNone_iff_eq_none]

/-! ## Comparing without regard to case -/

section

variable [Library] {a b c : Text}

/-- Equality without regard to case and to the white space around. -/
def eqFold (a b : Text) : Bool := equalFold (trimSpace a) (trimSpace b)

@[simp] lemma eqFold_self (a) : eqFold a a := Library.equalFold_self _

lemma eqFold_comm (a b) : eqFold a b = eqFold b a := Library.equalFold_comm _ _

lemma eqFold_trans (hab : eqFold a b) (hbc : eqFold b c) : eqFold a c :=
  Library.equalFold_trans _ _ _ hab hbc

end

/-! ## A plain library -/

/-- Lower the plain letters. -/
def asciiLower (s : Text) : Text := s.map fun b => if 65 ≤ b ∧ b ≤ 90 then b + 32 else b

/-- A plain `https` URL: a host and a path, with nothing that would have to be decoded. -/
def plainURL (s : Text) : Option URL := do
  let rest ← cutPrefix s (txt "https://")
  let (host, path) ← Scan.cut (txt "/") rest
  if (rest.any fun b => b = 35 ∨ b = 37 ∨ b = 58 ∨ b = 63 ∨ b = 64) then none
  else some { scheme := txt "https", host := host, path := txt "/" ++ path }

/-- The library restricted to plain text, for evaluating definitions. -/
@[reducible] def plainLibrary : Library where
  equalFold a b := asciiLower a == asciiLower b
  quote a := txt "\"" ++ a ++ txt "\""
  parseURL := plainURL
  equalFold_self a := by simp
  equalFold_comm _ _ := BEq.comm
  equalFold_trans _ _ _ := BEq.trans

end Ben.Review
