import Mathlib.Data.List.Basic

/-!
# Arguments of a shell command

A rendered value that stands in a command is quoted always.  How a POSIX shell reads the line is
followed byte by byte: between words, in a word outside quotes, and inside either kind of quotes.
-/

namespace Ben.Template

/-- One POSIX shell argument: every quote of the value stands in double quotes, everything else in
single quotes. -/
def shellEscape (value : List UInt8) : List UInt8 :=
  39 :: value.flatMap (fun b => if b = 39 then [39, 34, 39, 34, 39] else [b]) ++ [39]

inductive Quoting
  | bare | escaped | single | double | doubleEscaped

/-- Where a shell is in a line: the words it has read, the one it is in, and how that is quoted. -/
structure Reading where
  quoting : Quoting
  word : Option (List UInt8)
  words : List (List UInt8)

namespace Reading

def quote (r : Reading) (quoting : Quoting) : Reading :=
  { r with quoting, word := some (r.word.getD []) }

def add (r : Reading) (quoting : Quoting) (b : UInt8) : Reading :=
  { r with quoting, word := some (r.word.getD [] ++ [b]) }

/-- The next byte.  Operators, expansions, patterns, comments and the end of the line outside
quotes make something else than a word of their own text. -/
def read (r : Reading) (b : UInt8) : Option Reading :=
  if b = 0 then none else
  match r.quoting with
  | .bare =>
    if b = 32 ∨ b = 9 then some { r with word := none, words := r.words ++ r.word.toList }
    else if b = 39 then some (r.quote .single)
    else if b = 34 then some (r.quote .double)
    else if b = 92 then some { r with quoting := .escaped }
    else if "\n|&;<>()$`*?[]#~=%!\x7b\x7d".toUTF8.toList.contains b then none
    else some (r.add .bare b)
  | .escaped => some (if b = 10 then { r with quoting := .bare } else r.add .bare b)
  | .single => some (if b = 39 then { r with quoting := .bare } else r.add .single b)
  | .double =>
    if b = 34 then some { r with quoting := .bare }
    else if b = 92 then some { r with quoting := .doubleEscaped }
    else if b = 36 ∨ b = 96 then none
    else some (r.add .double b)
  | .doubleEscaped =>
    if b = 10 then some { r with quoting := .double }
    else if b = 34 ∨ b = 36 ∨ b = 92 ∨ b = 96 then some (r.add .double b)
    else some ((r.add .double 92).add .double b)

/-- Inside the quotes the value is read as it is, through every change of quotes. -/
lemma read_value (words) (value : List UInt8) (hvalue : 0 ∉ value) (w : List UInt8) :
    (value.flatMap fun b => if b = 39 then [39, 34, 39, 34, 39] else [b]).foldlM read
      ⟨.single, some w, words⟩ = some ⟨.single, some (w ++ value), words⟩ := by
  induction value generalizing w with
  | nil => simp
  | cons b value ih =>
    obtain ⟨hb, hrest⟩ := not_or.1 (mt List.mem_cons.2 hvalue)
    have hbyte : (if b = 39 then [39, 34, 39, 34, 39] else [b]).foldlM read
        ⟨.single, some w, words⟩ = some ⟨.single, some (w ++ [b]), words⟩ := by
      split
      · subst b
        rfl
      · simp [read, add, *, Ne.symm hb]
    rw [List.flatMap_cons, List.foldlM_append, hbyte]
    simpa using ih hrest (w ++ [b])

end Reading

/-- A shell that is between words reads an escaped value and a blank as one word, the value, and
goes on with the rest of the line between words. -/
theorem shellEscape_one_word (words) (value : List UInt8) (hvalue : 0 ∉ value) (blank : UInt8)
    (hblank : blank = 32 ∨ blank = 9) (rest : List UInt8) :
    (shellEscape value ++ blank :: rest).foldlM Reading.read ⟨.bare, none, words⟩ =
      rest.foldlM Reading.read ⟨.bare, none, words ++ [value]⟩ := by
  have hopen : Reading.read ⟨.bare, none, words⟩ 39 = some ⟨.single, some [], words⟩ := rfl
  have hclose : Reading.read ⟨.single, some value, words⟩ 39 =
      some ⟨.bare, some value, words⟩ := rfl
  have hend : Reading.read ⟨.bare, some value, words⟩ blank =
      some ⟨.bare, none, words ++ [value]⟩ := by
    rcases hblank with rfl | rfl <;> rfl
  simp [shellEscape, hopen, Reading.read_value words value hvalue, hclose, hend]

theorem shellEscape_one_word_quotes :
    (shellEscape [39, 59, 39, 10] ++ [32]).foldlM Reading.read ⟨.bare, none, []⟩ =
      some ⟨.bare, none, [[39, 59, 39, 10]]⟩ :=
  shellEscape_one_word [] [39, 59, 39, 10] (by decide) 32 (.inl rfl) []

end Ben.Template
