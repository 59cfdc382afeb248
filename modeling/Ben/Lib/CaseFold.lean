import Mathlib.Data.List.Basic
import Mathlib.Logic.Function.Basic

/-!
# Case-insensitive text

Labels and logins are compared without regard to letter case, by two operations of a standard
library: an equality that folds case and a lowering of a whole text.  Both follow Unicode tables
that are not reproduced here, and beyond the plain letters they disagree with each other: there
are texts equal under folding whose lowered forms differ, and texts with one lowered form that
folding tells apart.  `CaseFold` carries what does hold: folding is an equivalence, and on plain
text both operations are the lowering of the twenty-six letters.
-/

namespace Ben

/-- Lowering of the twenty-six plain letters, leaving every other character alone. -/
def asciiLower (s : String) : String := String.ofList (s.toList.map Char.toLower)

/-- A text with no character beyond the seven-bit range. -/
def IsAscii (s : String) : Prop := ∀ c ∈ s.toList, c.val < 128

instance (s : String) : Decidable (IsAscii s) :=
  decidable_of_iff (s.toList.all fun c => decide (c.val < 128)) (by simp [IsAscii])

/-- Case-insensitive comparison and lowering of text, with the laws that hold of them. -/
class CaseFold where
  /-- Equality under simple case folding. -/
  equalFold : String → String → Bool
  /-- All letters mapped to their lower case. -/
  toLower : String → String
  /-- Folding is reflexive. -/
  equalFold_self (a : String) : equalFold a a = true
  /-- Folding is symmetric. -/
  equalFold_comm (a b : String) : equalFold a b = equalFold b a
  /-- Folding is transitive. -/
  equalFold_trans (a b c : String) :
    equalFold a b = true → equalFold b c = true → equalFold a c = true
  /-- On plain text folding compares the lowered letters. -/
  equalFold_ascii (a b : String) :
    IsAscii a → IsAscii b → equalFold a b = (asciiLower a == asciiLower b)
  /-- On plain text lowering lowers the letters. -/
  toLower_ascii (a : String) : IsAscii a → toLower a = asciiLower a

export CaseFold (equalFold toLower)

attribute [simp] CaseFold.equalFold_self

/-- The two operations restricted to plain letters, for evaluating definitions. -/
@[reducible] def asciiFold : CaseFold where
  equalFold a b := asciiLower a == asciiLower b
  toLower := asciiLower
  equalFold_self _ := beq_self_eq_true _
  equalFold_comm _ _ := BEq.comm
  equalFold_trans _ _ _ := BEq.trans
  equalFold_ascii _ _ _ _ := rfl
  toLower_ascii _ _ := rfl

variable [CaseFold]

/-- Some element of the list equals `needle` under folding. -/
def containsFold (haystack : List String) (needle : String) : Bool :=
  haystack.any fun h => equalFold h needle

/-- On plain text equality under folding is equality of the lowered forms. -/
lemma equalFold_iff_toLower {a b} (ha : IsAscii a) (hb : IsAscii b) :
    equalFold a b ↔ toLower a = toLower b := by
  rw [CaseFold.equalFold_ascii a b ha hb, CaseFold.toLower_ascii a ha,
    CaseFold.toLower_ascii b hb, beq_iff_eq]

end Ben
