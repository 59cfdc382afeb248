import Mathlib.Data.List.Basic

/-!
# Lines of a provider's stream

The output of a run comes in chunks, and what a chunk leaves unfinished is carried to the next
one.  However the stream is cut, the lines are those of the whole.
-/

namespace Ben.Remote

open List

def maxProviderLine : Nat := 10 <<< 20

/-- A line without the carriage return at its end. -/
def stripReturn (line : List UInt8) : List UInt8 :=
  if line.getLast? = some 13 then line.dropLast else line

/-- The finished lines of a buffer and what is left over, from a position in a line on. -/
def frames (line : List UInt8) : List UInt8 → Option (List (List UInt8) × List UInt8)
  | [] => if maxProviderLine < line.length then none else some ([], line)
  | b :: buf =>
    if b = 10 then
      if maxProviderLine < line.length then none
      else (frames [] buf).map fun p => (stripReturn line :: p.1, p.2)
    else frames (line ++ [b]) buf

/-- The lines a chunk finishes and the tail to carry on, unless a line is too long.  At the seal an
unfinished line is a line. -/
def frameProvider (tail chunk : List UInt8) (isSealed : Bool) :
    Option (List (List UInt8) × List UInt8) :=
  (frames [] (tail ++ chunk)).map fun p =>
    if isSealed ∧ p.2 ≠ [] then (p.1 ++ [stripReturn p.2], []) else p

/-- All lines of a stream that comes in chunks and is sealed then. -/
def feed (tail : List UInt8) : List (List UInt8) → Option (List (List UInt8))
  | [] => (frameProvider tail [] true).map (·.1)
  | chunk :: chunks => do
    let (lines, tail) ← frameProvider tail chunk false
    let rest ← feed tail chunks
    return lines ++ rest

/-- The lines of a stream, from a position in a line on; after the last newline there is one only
if something follows. -/
def lines (line : List UInt8) : List UInt8 → List (List UInt8)
  | [] => if line = [] then [] else [line]
  | b :: stream => if b = 10 then line :: lines [] stream else lines (line ++ [b]) stream

lemma frames_of_long {line : List UInt8} (h : maxProviderLine < line.length) (buf) :
    frames line buf = none := by
  induction buf generalizing line with
  | nil => rw [frames, if_pos h]
  | cons b buf ih =>
    rw [frames, if_pos h]
    split
    · rfl
    · exact ih (by rw [length_append]; omega)

/-- A buffer may be framed piece by piece. -/
lemma frames_append (line x y) : frames line (x ++ y) =
    (frames line x).bind fun p => (frames p.2 y).map fun q => (p.1 ++ q.1, q.2) := by
  induction x generalizing line with
  | nil =>
    rw [nil_append, frames]
    split
    · rename_i hlong
      exact frames_of_long hlong y
    · simp
  | cons b x ih =>
    rw [cons_append, frames, frames]
    split
    · split
      · rfl
      · rw [ih]
        cases frames [] x <;> simp [Function.comp_def]
    · exact ih _

/-- What is carried on is an unfinished line, so that it may be scanned again. -/
lemma frames_tail {line buf : List UInt8} {ls t} (h : frames line buf = some (ls, t))
    (hline : 10 ∉ line) : 10 ∉ t := by
  induction buf generalizing line ls with
  | nil =>
    rw [frames] at h
    split at h <;> cases h
    exact hline
  | cons b buf ih =>
    rw [frames] at h
    split at h
    · split at h
      · cases h
      · obtain ⟨q, hq, heq⟩ := Option.map_eq_some_iff.1 h
        cases heq
        exact ih hq not_mem_nil
    · rename_i hb
      exact ih h (by simp [hline, Ne.symm hb])

lemma frames_line {x : List UInt8} (hx : 10 ∉ x) (line y) :
    frames line (x ++ y) = frames (line ++ x) y := by
  induction x generalizing line with
  | nil => rw [nil_append, append_nil]
  | cons b x ih =>
    rw [mem_cons, not_or] at hx
    rw [cons_append, frames, if_neg (Ne.symm hx.1), ih hx.2, append_assoc, singleton_append]

/-- The lines of a framed stream that ends there. -/
def ended (p : List (List UInt8) × List UInt8) : List (List UInt8) :=
  p.1 ++ if p.2 = [] then [] else [stripReturn p.2]

/-- The chunks are framed as the whole. -/
lemma feed_eq {tail : List UInt8} (chunks) (htail : 10 ∉ tail) :
    feed tail chunks = (frames tail chunks.flatten).map ended := by
  induction chunks generalizing tail with
  | nil =>
    rw [feed, frameProvider, frames_line htail, nil_append, flatten_nil, Option.map_map]
    congr 1
    funext p
    by_cases hp : p.2 = [] <;> simp [ended, hp]
  | cons chunk chunks ih =>
    rw [feed, frameProvider, frames_line htail, nil_append, flatten_cons, frames_append]
    cases hframes : frames tail chunk with
    | none => rfl
    | some p =>
      simp only [Option.bind_eq_bind, Option.map_some, Option.bind_some, Bool.false_eq_true,
        false_and, if_false, ih (frames_tail hframes htail)]
      cases frames p.2 chunks.flatten <;> simp [ended]

lemma frames_ended (line buf) : (frames line buf).map ended =
    if ∀ l ∈ lines line buf, l.length ≤ maxProviderLine then
      some ((lines line buf).map stripReturn) else none := by
  induction buf generalizing line with
  | nil =>
    rw [frames, lines]
    by_cases hline : line = []
    · simp [hline, ended]
    · by_cases hlong : maxProviderLine < line.length <;> simp [hline, hlong, ended]
  | cons b buf ih =>
    rw [frames, lines]
    split
    · have hmap : ((frames [] buf).map fun p => (stripReturn line :: p.1, p.2)).map ended =
          ((frames [] buf).map ended).map (stripReturn line :: ·) := by
        cases frames [] buf <;> rfl
      by_cases hlong : maxProviderLine < line.length
      · simp [hlong, Nat.not_le.2 hlong]
      · rw [if_neg hlong, hmap, ih]
        simp only [forall_mem_cons, Nat.not_lt.1 hlong, true_and, map_cons]
        split <;> rfl
    · exact ih _

/-- However a stream is cut into chunks, its lines come out, each without a carriage return at its
end, or it fails because one of them is too long. -/
theorem feed_lines (chunks : List (List UInt8)) :
    feed [] chunks =
      if ∀ l ∈ lines [] chunks.flatten, l.length ≤ maxProviderLine then
        some ((lines [] chunks.flatten).map stripReturn)
      else none := by
  rw [feed_eq chunks not_mem_nil, frames_ended]

end Ben.Remote
