import Mathlib.Data.List.Basic
import Mathlib.Tactic.Common

/-!
# JSON read from bytes

A recogniser for JSON texts in the strict grammar: a value is read off the front of a text and
what is left is returned.  Strings are scanned first and unquoted afterwards, as decoders over
byte slices do, so that where a string ends does not depend on what its escapes spell.  Nesting is
bounded, and the recursion is on a fuel that twice the length of the text exhausts.
-/

namespace Json

open List

/-- Texts are bytes; nothing makes them spell whole characters. -/
abbrev Bytes := List UInt8

/-- A JSON value.  Numbers are kept as they are written. -/
inductive Value where
  | null
  | bool (b : Bool)
  | number (raw : Bytes)
  | string (s : Bytes)
  | array (elems : List Value)
  | object (members : List (Bytes × Value))

/-- The white space of the grammar. -/
def isSpace (c : UInt8) : Bool := c = 0x20 || c = 0x09 || c = 0x0A || c = 0x0D

/-- Drop the white space a text begins with. -/
def skipSpace (t : Bytes) : Bytes := t.dropWhile isSpace

/-! ## Strings -/

def isHex (c : UInt8) : Bool :=
  (0x30 ≤ c && c ≤ 0x39) || (0x41 ≤ c && c ≤ 0x46) || (0x61 ≤ c && c ≤ 0x66)

/-- The letters that may follow a backslash, the one for a code unit apart. -/
def isEscape (c : UInt8) : Bool :=
  c = 0x22 || c = 0x5C || c = 0x2F || c = 0x62 || c = 0x66 || c = 0x6E || c = 0x72 || c = 0x74

/-- Where the scan of a string stands: between characters, after a backslash, or with some digits
of a code unit still to come. -/
inductive Scanning where
  | plain
  | escaped
  | digits (more : Nat)

/-- The string up to its closing quote, as it is written, and what follows the quote. -/
def stringFrom : Scanning → Bytes → Option (Bytes × Bytes)
  | _, [] => none
  | .plain, c :: t =>
    if c = 0x22 then some ([], t)
    else if c = 0x5C then (stringFrom .escaped t).map fun p => (c :: p.1, p.2)
    else if c < 0x20 then none
    else (stringFrom .plain t).map fun p => (c :: p.1, p.2)
  | .escaped, c :: t =>
    if c = 0x75 then (stringFrom (.digits 3) t).map fun p => (c :: p.1, p.2)
    else if isEscape c then (stringFrom .plain t).map fun p => (c :: p.1, p.2)
    else none
  | .digits more, c :: t =>
    if isHex c then
      (stringFrom (if more = 0 then .plain else .digits (more - 1)) t).map fun p => (c :: p.1, p.2)
    else none

/-- The number a hexadecimal digit stands for. -/
def hexDigit (c : UInt8) : Nat :=
  if c ≤ 0x39 then c.toNat - 0x30 else if c ≤ 0x46 then c.toNat - 0x37 else c.toNat - 0x57

/-- The code unit four hexadecimal digits spell. -/
def codeUnit (t : Bytes) : Nat := (t.take 4).foldl (fun n c => 16 * n + hexDigit c) 0

/-- The encoding of a code point. -/
def encodeRune (r : Nat) : Bytes :=
  if r < 0x80 then [r.toUInt8]
  else if r < 0x800 then [(0xC0 + r / 0x40).toUInt8, (0x80 + r % 0x40).toUInt8]
  else if r < 0x10000 then
    [(0xE0 + r / 0x1000).toUInt8, (0x80 + r / 0x40 % 0x40).toUInt8, (0x80 + r % 0x40).toUInt8]
  else
    [(0xF0 + r / 0x40000).toUInt8, (0x80 + r / 0x1000 % 0x40).toUInt8,
      (0x80 + r / 0x40 % 0x40).toUInt8, (0x80 + r % 0x40).toUInt8]

/-- What stands for a character that cannot be read. -/
def replacement : Bytes := encodeRune 0xFFFD

/-- The bytes an escape stands for and how many bytes of it follow the backslash. -/
def unescape : Bytes → Bytes × Nat
  | 0x75 :: t =>
    let r := codeUnit t
    if 0xD800 ≤ r && r < 0xE000 then
      -- half of a pair: the other half must follow as a second escape
      match t.drop 4 with
      | 0x5C :: 0x75 :: t' =>
        let r' := codeUnit t'
        if r < 0xDC00 && (0xDC00 ≤ r' && r' < 0xE000) && (t'.take 4).all isHex &&
            (t'.take 4).length = 4 then
          (encodeRune (0x10000 + (r - 0xD800) * 0x400 + (r' - 0xDC00)), 11)
        else (replacement, 5)
      | _ => (replacement, 5)
    else (encodeRune r, 5)
  | 0x62 :: _ => ([0x08], 1)
  | 0x66 :: _ => ([0x0C], 1)
  | 0x6E :: _ => ([0x0A], 1)
  | 0x72 :: _ => ([0x0D], 1)
  | 0x74 :: _ => ([0x09], 1)
  | c :: _ => ([c], 1)
  | [] => ([], 0)

/-- A byte that continues the encoding of a character. -/
def isTail (c : UInt8) : Bool := 0x80 ≤ c && c ≤ 0xBF

/-- How many bytes the encoding of a character takes that a text begins with; none when it begins
with no such encoding. -/
def runeWidth : Bytes → Nat
  | c :: d :: t =>
    if c < 0xC2 then 0
    else if c < 0xE0 then if isTail d then 2 else 0
    else
      let low := if c = 0xE0 then 0xA0 else if c = 0xF0 then 0x90 else 0x80
      let high := if c = 0xED then 0x9F else if c = 0xF4 then 0x8F else 0xBF
      if 0xF4 < c || d < low || high < d then 0
      else if c < 0xF0 then
        match t with
        | e :: _ => if isTail e then 3 else 0
        | [] => 0
      else
        match t with
        | e :: f :: _ => if isTail e && isTail f then 4 else 0
        | _ => 0
  | _ => 0

/-- The bytes a scanned string stands for, after letting some of them go.  What is not the
encoding of a character is replaced. -/
def unquoteFrom : Nat → Bytes → Bytes
  | _, [] => []
  | k + 1, _ :: t => unquoteFrom k t
  | 0, c :: t =>
    if c = 0x5C then (unescape t).1 ++ unquoteFrom (unescape t).2 t
    else if c < 0x80 then c :: unquoteFrom 0 t
    else
      match runeWidth (c :: t) with
      | 0 => replacement ++ unquoteFrom 0 t
      | k + 1 => (c :: t.take k) ++ unquoteFrom k t

/-- The bytes a scanned string stands for. -/
def unquote (raw : Bytes) : Bytes := unquoteFrom 0 raw

/-! ## Numbers and words -/

def isDigit (c : UInt8) : Bool := 0x30 ≤ c && c ≤ 0x39

/-- One digit or more, and what follows. -/
def digits (t : Bytes) : Option (Bytes × Bytes) :=
  match t.span isDigit with
  | ([], _) => none
  | p => some p

/-- The whole part of a number: no zero before other digits. -/
def whole : Bytes → Option (Bytes × Bytes)
  | 0x30 :: t => some ([0x30], t)
  | t => digits t

/-- The part of a number after its point, if there is one. -/
def fraction : Bytes → Option (Bytes × Bytes)
  | 0x2E :: t => (digits t).map fun p => (0x2E :: p.1, p.2)
  | t => some ([], t)

/-- The exponent of a number, if there is one. -/
def exponent : Bytes → Option (Bytes × Bytes)
  | c :: t =>
    if c = 0x65 || c = 0x45 then
      match t with
      | s :: t' =>
        if s = 0x2B || s = 0x2D then (digits t').map fun p => (c :: s :: p.1, p.2)
        else (digits t).map fun p => (c :: p.1, p.2)
      | [] => none
    else some ([], c :: t)
  | [] => some ([], [])

/-- A number without its sign. -/
def unsigned (t : Bytes) : Option (Bytes × Bytes) := do
  let (i, t) ← whole t
  let (f, t) ← fraction t
  let (e, t) ← exponent t
  some (i ++ f ++ e, t)

/-- A number and what follows it. -/
def number : Bytes → Option (Bytes × Bytes)
  | 0x2D :: t => (unsigned t).map fun p => (0x2D :: p.1, p.2)
  | t => unsigned t

/-- The words of the grammar. -/
def words : List (Bytes × Value) :=
  [([0x6E, 0x75, 0x6C, 0x6C], .null), ([0x74, 0x72, 0x75, 0x65], .bool true),
    ([0x66, 0x61, 0x6C, 0x73, 0x65], .bool false)]

/-! ## Values -/

/-- A string, a word or a number, and what follows it. -/
def scalar : Bytes → Option (Value × Bytes)
  | [] => none
  | c :: t =>
    if c = 0x22 then (stringFrom .plain t).map fun p => (.string (unquote p.1), p.2)
    else
      match words.find? fun w => w.1.isPrefixOf (c :: t) with
      | some w => some (w.2, (c :: t).drop w.1.length)
      | none => (number (c :: t)).map fun p => (.number p.1, p.2)

mutual

/-- A value and what follows it, with `depth` levels of nesting left. -/
def value : Nat → Nat → Bytes → Option (Value × Bytes)
  | 0, _, _ => none
  | _ + 1, _, [] => none
  | n + 1, depth, c :: t =>
    if c = 0x7B then
      match depth with
      | 0 => none
      | depth + 1 =>
        match skipSpace t with
        | 0x7D :: rest => some (.object [], rest)
        | t => (members n depth t).map fun p => (.object p.1, p.2)
    else if c = 0x5B then
      match depth with
      | 0 => none
      | depth + 1 =>
        match skipSpace t with
        | 0x5D :: rest => some (.array [], rest)
        | t => (elements n depth t).map fun p => (.array p.1, p.2)
    else scalar (c :: t)

/-- The members of an object up to its closing brace. -/
def members : Nat → Nat → Bytes → Option (List (Bytes × Value) × Bytes)
  | 0, _, _ => none
  | _ + 1, _, [] => none
  | n + 1, depth, q :: t =>
    if q = 0x22 then do
      let (key, t) ← stringFrom .plain t
      match skipSpace t with
      | 0x3A :: t =>
        let (v, t) ← value n depth (skipSpace t)
        match skipSpace t with
        | 0x7D :: t => some ([(unquote key, v)], t)
        | 0x2C :: t => (members n depth (skipSpace t)).map fun p => ((unquote key, v) :: p.1, p.2)
        | _ => none
      | _ => none
    else none

/-- The elements of an array up to its closing bracket. -/
def elements : Nat → Nat → Bytes → Option (List Value × Bytes)
  | 0, _, _ => none
  | n + 1, depth, t => do
    let (v, t) ← value n depth t
    match skipSpace t with
    | 0x5D :: t => some ([v], t)
    | 0x2C :: t => (elements n depth (skipSpace t)).map fun p => (v :: p.1, p.2)
    | _ => none

end

/-- The levels of nesting that are read. -/
def maxDepth : Nat := 10000

/-- The one value a text spells, with white space around it and nothing else. -/
def document (t : Bytes) : Option Value := do
  let (v, rest) ← value (2 * t.length + 2) maxDepth (skipSpace t)
  if skipSpace rest = [] then some v else none

end Json
