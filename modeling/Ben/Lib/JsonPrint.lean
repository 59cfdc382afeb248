import Ben.Lib.Json

/-!
# Strings printed as JSON

The text that a printer of JSON puts between the quotes of a string.  Quotes, backslashes and
control characters are escaped, and so are the characters that mean something to a browser and the
two line separators of Unicode; what is not the encoding of a character is printed as the
replacement character.  The result is at least as long as the string, and it is one line.
-/

namespace Json

open List

/-- A hexadecimal digit, in lower case. -/
def hexLower (n : UInt8) : UInt8 := if n < 10 then 0x30 + n else 0x57 + n

/-- The escape of a single byte below `0x80`, or the byte itself. -/
def escapeByte (c : UInt8) : Bytes :=
  if c = 0x22 || c = 0x5C then [0x5C, c]
  else if c = 0x08 then [0x5C, 0x62]
  else if c = 0x0C then [0x5C, 0x66]
  else if c = 0x0A then [0x5C, 0x6E]
  else if c = 0x0D then [0x5C, 0x72]
  else if c = 0x09 then [0x5C, 0x74]
  else if c < 0x20 || c = 0x3C || c = 0x3E || c = 0x26 then
    [0x5C, 0x75, 0x30, 0x30, hexLower (c >>> 4), hexLower (c &&& 0xF)]
  else [c]

/-- The escape of the replacement character. -/
def escapedReplacement : Bytes := [0x5C, 0x75, 0x66, 0x66, 0x66, 0x64]

/-- The escape of the line separator and of the paragraph separator, by their last byte. -/
def escapedSeparator (c : UInt8) : Bytes := [0x5C, 0x75, 0x32, 0x30, 0x32, hexLower (c &&& 0xF)]

/-- The last byte of a separator of Unicode a text begins with. -/
def separator? : Bytes → Option UInt8
  | 0xE2 :: 0x80 :: c :: _ => if c = 0xA8 || c = 0xA9 then some c else none
  | _ => none

/-- Print a string, after letting some of its bytes go. -/
def escapeFrom : Nat → Bytes → Bytes
  | _, [] => []
  | k + 1, _ :: t => escapeFrom k t
  | 0, c :: t =>
    if c < 0x80 then escapeByte c ++ escapeFrom 0 t
    else
      match separator? (c :: t), runeWidth (c :: t) with
      | some d, _ => escapedSeparator d ++ escapeFrom 2 t
      | none, 0 => escapedReplacement ++ escapeFrom 0 t
      | none, k + 1 => (c :: t.take k) ++ escapeFrom k t

/-- Print a string, without the quotes around it. -/
def escape (s : Bytes) : Bytes := escapeFrom 0 s

/-- A byte that is printed as it is. -/
abbrev Plain (c : UInt8) : Prop := c < 0x80 ∧ escapeByte c = [c]

lemma escape_append_of_plain {s : Bytes} (h : ∀ c ∈ s, Plain c) (t : Bytes) :
    escape (s ++ t) = s ++ escape t := by
  induction s with
  | nil => rfl
  | cons c s ih =>
    obtain ⟨hc, hs⟩ := forall_mem_cons.1 h
    rw [escape, cons_append, escapeFrom, if_pos hc.1, hc.2, ← escape, ih hs]
    rfl

lemma one_le_length_escapeByte (c) : 1 ≤ (escapeByte c).length := by
  unfold escapeByte
  split_ifs
  all_goals
    simp only [length_cons, length_nil]
    omega

lemma newline_not_mem_escapeByte (c) : 0x0A ∉ escapeByte c := by
  obtain ⟨c⟩ := c
  revert c
  decide

lemma newline_not_mem_escapedSeparator (c) : 0x0A ∉ escapedSeparator c := by
  obtain ⟨c⟩ := c
  revert c
  decide

/-- The bytes after the first of an encoding are not below `0x80`. -/
lemma le_of_mem_take_runeWidth {c b} {t : Bytes} {k : Nat} (h : runeWidth (c :: t) = k + 1)
    (hb : b ∈ t.take k) : 0x80 ≤ b := by
  have htail : ∀ {x : UInt8}, isTail x → 0x80 ≤ x := by
    intro x hx
    rw [isTail, Bool.and_eq_true, decide_eq_true_eq] at hx
    exact hx.1
  obtain _ | ⟨d, t⟩ := t
  · cases h
  simp only [runeWidth] at h
  split at h
  · cases h
  split at h
  · split at h
    · next hd =>
      obtain rfl := Nat.succ.inj h
      obtain rfl := mem_singleton.1 hb
      exact htail hd
    · cases h
  -- the second byte of a longer encoding lies in a range that begins at `0x80` or later
  simp only [Bool.or_eq_true, decide_eq_true_eq] at h
  have hlow : 0x80 ≤ (if c = 0xE0 then 0xA0 else if c = 0xF0 then 0x90 else 0x80 : UInt8) := by
    split_ifs
    · decide
    · decide
    · decide
  revert h hlow
  generalize (if c = 0xE0 then 0xA0 else if c = 0xF0 then 0x90 else 0x80 : UInt8) = low
  generalize (if c = 0xED then 0x9F else if c = 0xF4 then 0x8F else 0xBF : UInt8) = high
  intro h hlow
  split at h
  · cases h
  next hrange =>
  rw [not_or, not_or, UInt8.not_lt, UInt8.not_lt] at hrange
  have hd : 0x80 ≤ d := UInt8.le_trans hlow hrange.1.2
  split at h
  · obtain _ | ⟨e, t⟩ := t
    · cases h
    · simp only at h
      split at h
      · next he =>
        obtain rfl := Nat.succ.inj h
        simp only [take_succ_cons, take_zero, mem_cons, not_mem_nil, or_false] at hb
        obtain rfl | rfl := hb
        · exact hd
        · exact htail he
      · cases h
  · obtain _ | ⟨e, _ | ⟨f, t⟩⟩ := t
    · cases h
    · cases h
    · simp only [Bool.and_eq_true] at h
      split at h
      · next hef =>
        obtain rfl := Nat.succ.inj h
        simp only [take_succ_cons, take_zero, mem_cons, not_mem_nil, or_false] at hb
        obtain rfl | rfl | rfl := hb
        · exact hd
        · exact htail hef.1
        · exact htail hef.2
      · cases h

/-- Printing does not shorten a string. -/
lemma length_le_escapeFrom (k : Nat) (s : Bytes) : (s.drop k).length ≤ (escapeFrom k s).length := by
  induction s generalizing k with
  | nil =>
    rw [drop_nil]
    exact Nat.zero_le _
  | cons c t ih =>
    cases k with
    | succ k => exact ih k
    | zero =>
      have hzero := ih 0
      rw [drop_zero] at hzero ⊢
      rw [escapeFrom]
      split
      · have hone := one_le_length_escapeByte c
        rw [length_append, length_cons]
        omega
      · split
        · have htwo := ih 2
          rw [length_drop] at htwo
          rw [length_append, length_cons, escapedSeparator]
          simp only [length_cons, length_nil]
          omega
        · rw [length_append, length_cons, escapedReplacement]
          simp only [length_cons, length_nil]
          omega
        · next k _ _ =>
          have hrest := ih k
          rw [length_drop] at hrest
          rw [length_append, length_cons, length_cons, length_take]
          omega

theorem length_le_escape (s : Bytes) : s.length ≤ (escape s).length := length_le_escapeFrom 0 s

/-- What is printed is one line. -/
lemma newline_not_mem_escapeFrom (k : Nat) (s) : 0x0A ∉ escapeFrom k s := by
  induction s generalizing k with
  | nil =>
    rw [escapeFrom.eq_def]
    exact not_mem_nil
  | cons c t ih =>
    cases k with
    | succ k => exact ih k
    | zero =>
      rw [escapeFrom]
      split
      · rw [mem_append, not_or]
        exact ⟨newline_not_mem_escapeByte c, ih 0⟩
      · next hc =>
        split
        · rw [mem_append, not_or]
          exact ⟨newline_not_mem_escapedSeparator _, ih 2⟩
        · rw [mem_append, not_or]
          exact ⟨by decide, ih 0⟩
        · next k _ hwidth =>
          rw [mem_append, not_or, mem_cons, not_or]
          refine ⟨⟨fun heq => hc (heq ▸ by decide), fun hmem => ?_⟩, ih k⟩
          exact absurd (le_of_mem_take_runeWidth hwidth hmem) (by decide)

theorem newline_not_mem_escape (s : Bytes) : 0x0A ∉ escape s := newline_not_mem_escapeFrom 0 s

end Json
