import Mathlib.Data.List.Infix
import Mathlib.Tactic.Lemma
import Mathlib.Tactic.TypeStar

/-!
# Scanning sequences

The searching operations of a string library over an arbitrary alphabet: cutting at the first
occurrence of a separator, replacing every occurrence of a pattern, splitting into fields and
trimming.  What separates fields may be several symbols wide, so the last two are told by a
function how many symbols of a separator stand at the head of a sequence.  Each operation walks
the sequence once, by structural recursion; where it has to jump ahead it counts down instead.
-/

namespace Scan

open List

variable {α : Type*}

/-! ## Occurrences -/

section Occurrences

variable {c x : α} {w a b r m : List α}

/-- A text does not begin inside one that has not its first symbol. -/
lemma infix_of_infix_append (hm : c ∉ m) (h : c :: w <:+: m ++ r) : c :: w <:+: r := by
  induction m with
  | nil => exact h
  | cons x m ih =>
    rw [mem_cons, not_or] at hm
    rw [cons_append, infix_cons_iff, cons_prefix_cons] at h
    obtain h | h := h
    · exact absurd h.1 hm.1
    · exact ih hm.2 h

/-- A symbol that a text has not separates its occurrences. -/
lemma infix_or_of_infix_append_cons (hx : x ∉ w) (h : w <:+: a ++ x :: b) :
    w <:+: a ∨ w <:+: b := by
  induction a with
  | nil =>
    obtain h | h := infix_cons_iff.1 h
    · cases w with
      | nil => exact .inl nil_infix
      | cons y w =>
        rw [cons_prefix_cons] at h
        exact absurd (mem_cons.2 (.inl h.1.symm)) hx
    · exact .inr h
  | cons y a ih =>
    obtain h | h := infix_cons_iff.1 h
    · -- an occurrence at the head ends before the symbol
      refine .inl (List.IsPrefix.isInfix ?_)
      obtain h | ⟨t, ht⟩ := prefix_or_prefix_of_prefix h (prefix_append (y :: a) (x :: b))
      · exact h
      · cases t with
        | nil =>
          rw [append_nil] at ht
          rw [ht]
        | cons z t =>
          rw [← ht] at h hx
          have hz := (prefix_append_right_inj (y :: a)).1 h
          rw [cons_prefix_cons] at hz
          refine absurd ?_ hx
          rw [← hz.1]
          simp
    · obtain h | h := ih h
      · exact .inl (h.trans (suffix_cons y a).isInfix)
      · exact .inr h

/-- Where a text's first symbol comes once more after a stretch it does not occur in, it can only
begin there. -/
lemma prefix_of_infix_append_cons (hw : c ∉ w) (hb : c ∉ b) (ha : ¬ c :: w <:+: a)
    (h : c :: w <:+: a ++ c :: b) : w <+: b := by
  induction a with
  | nil =>
    rw [nil_append, infix_cons_iff, cons_prefix_cons] at h
    obtain h | h := h
    · exact h.2
    · exact absurd (h.subset (by simp)) hb
  | cons y a ih =>
    rw [infix_cons_iff, not_or] at ha
    rw [cons_append, infix_cons_iff] at h
    obtain h | h := h
    · rw [cons_prefix_cons] at h ha
      obtain hin | ⟨t, ht⟩ := prefix_or_prefix_of_prefix h.2 (prefix_append a (c :: b))
      · exact absurd ⟨h.1, hin⟩ ha.1
      · cases t with
        | nil =>
          rw [append_nil] at ht
          exact absurd ⟨h.1, ht ▸ prefix_rfl⟩ ha.1
        | cons z t =>
          have hz := h.2
          rw [← ht, prefix_append_right_inj, cons_prefix_cons] at hz
          refine absurd ?_ hw
          rw [← ht, ← hz.1]
          simp
    · exact ih ha.2 h

/-- Two words that one symbol ends are the same if one continues the other. -/
lemma eq_of_append_cons_prefix {v : List α} (hw : x ∉ w) (hv : x ∉ v)
    (h : w ++ [x] <+: v ++ x :: b) : w = v := by
  induction w generalizing v with
  | nil =>
    cases v with
    | nil => rfl
    | cons y v =>
      rw [nil_append, cons_append, cons_prefix_cons] at h
      exact absurd (mem_cons.2 (.inl h.1)) hv
  | cons z w ih =>
    rw [mem_cons, not_or] at hw
    cases v with
    | nil =>
      rw [cons_append, nil_append, cons_prefix_cons] at h
      exact absurd h.1.symm hw.1
    | cons y v =>
      rw [mem_cons, not_or] at hv
      rw [cons_append, cons_append, cons_prefix_cons] at h
      rw [h.1, ih hw.2 hv.2 h.2]

end Occurrences

/-! ## Cutting -/

section Cut

variable [DecidableEq α]

/-- What stands before and after the first occurrence of a separator. -/
def cut (sep : List α) : List α → Option (List α × List α)
  | [] => if sep = [] then some ([], []) else none
  | a :: l =>
    if sep.isPrefixOf (a :: l) then some ([], (a :: l).drop sep.length)
    else (cut sep l).map fun p => (a :: p.1, p.2)

/-- There is no cut exactly if the separator occurs nowhere. -/
lemma cut_eq_none_iff {sep l : List α} : cut sep l = none ↔ ¬ sep <:+: l := by
  induction l with
  | nil => simp [cut]
  | cons a l ih =>
    rw [cut, infix_cons_iff]
    by_cases hpre : sep <+: a :: l
    · simp [hpre, isPrefixOf_iff_prefix.2 hpre]
    · have hbool : sep.isPrefixOf (a :: l) = false := by
        simpa [← isPrefixOf_iff_prefix] using hpre
      simp [hbool, hpre, ih]

/-- A cut is at an occurrence, and at the first one. -/
lemma cut_eq_some {sep l a b : List α} (h : cut sep l = some (a, b)) :
    l = a ++ sep ++ b ∧ ∀ a' b', l = a' ++ sep ++ b' → a.length ≤ a'.length := by
  induction l generalizing a with
  | nil =>
    rw [cut] at h
    split_ifs at h with hsep
    cases h
    exact ⟨by simp [hsep], fun _ _ _ => Nat.zero_le _⟩
  | cons x l ih =>
    rw [cut] at h
    split_ifs at h with hpre
    · cases h
      obtain ⟨r, hr⟩ := isPrefixOf_iff_prefix.1 hpre
      exact ⟨by rw [← hr, drop_left, nil_append], fun _ _ _ => Nat.zero_le _⟩
    · obtain ⟨⟨a1, b1⟩, hcut, heq⟩ := Option.map_eq_some_iff.1 h
      cases heq
      obtain ⟨hl, hfirst⟩ := ih hcut
      refine ⟨congrArg (x :: ·) hl, fun a' b' hl' => ?_⟩
      cases a' with
      | nil =>
        refine (hpre <| isPrefixOf_iff_prefix.2 ?_).elim
        rw [hl', nil_append]
        exact prefix_append sep b'
      | cons y a' =>
        have htail : l = a' ++ sep ++ b' := (List.cons.inj hl').2
        exact Nat.succ_le_succ (hfirst a' b' htail)

/-- A separator that begins nowhere inside a text is cut right after it. -/
lemma cut_append {sep a b : List α} (h : ∀ s, s ≠ [] → s <:+ a → ¬ sep <+: s ++ (sep ++ b)) :
    cut sep (a ++ (sep ++ b)) = some (a, b) := by
  induction a with
  | nil =>
    cases hl : sep ++ b with
    | nil =>
      obtain ⟨rfl, rfl⟩ := append_eq_nil_iff.1 hl
      rfl
    | cons x l =>
      have hpre : sep.isPrefixOf (x :: l) := by
        rw [← hl, isPrefixOf_iff_prefix]
        exact prefix_append sep b
      rw [nil_append, cut, if_pos hpre, ← hl, drop_left]
  | cons x a ih =>
    have hpre : sep.isPrefixOf (x :: (a ++ (sep ++ b))) = false := by
      rw [Bool.eq_false_iff, ne_eq, isPrefixOf_iff_prefix]
      exact h (x :: a) (cons_ne_nil x a) suffix_rfl
    rw [cons_append, cut, hpre, ih fun s hs hsuf => h s hs (hsuf.trans (suffix_cons x a))]
    rfl

/-- A separator whose first symbol does not come back in it is cut right after any text it does
not occur in. -/
lemma cut_of_head {c : α} {sep a : List α} (b : List α) (hc : c ∉ sep) (ha : ¬ c :: sep <:+: a) :
    cut (c :: sep) (a ++ (c :: sep ++ b)) = some (a, b) := by
  refine cut_append fun s hs hsuf hpre => ?_
  obtain hin | ⟨t, ht⟩ := prefix_or_prefix_of_prefix hpre (prefix_append s _)
  · exact ha (hin.isInfix.trans hsuf.isInfix)
  · -- the occurrence would reach into the separator, whose first symbol it would then repeat
    cases t with
    | nil =>
      rw [append_nil] at ht
      exact ha (ht ▸ hsuf.isInfix)
    | cons y t =>
      rw [← ht, prefix_append_right_inj, ht, cons_append, cons_prefix_cons] at hpre
      cases s with
      | nil => exact hs rfl
      | cons x s =>
        rw [cons_append, List.cons.injEq] at ht
        refine hc ?_
        rw [← ht.2, hpre.1]
        simp

/-- A separator is cut right after a text without its last symbol. -/
lemma cut_of_last {d : α} {sep a : List α} (b : List α) (hsep : d ∉ sep) (ha : d ∉ a) :
    cut (sep ++ [d]) (a ++ (sep ++ [d] ++ b)) = some (a, b) := by
  refine cut_append fun s hs hsuf hpre => ?_
  -- an earlier occurrence would end inside the text or inside what stands before the last symbol
  have hlong : (sep ++ [d]).length ≤ (s ++ sep).length := by
    have := length_pos_iff.2 hs
    simp only [length_append, length_singleton]
    omega
  have hpre' : sep ++ [d] <+: s ++ sep := by
    refine prefix_of_prefix_length_le hpre ?_ hlong
    rw [append_assoc sep, ← append_assoc s]
    exact prefix_append _ _
  have hmem : d ∈ s ++ sep := hpre'.subset (by simp)
  rcases mem_append.1 hmem with hd | hd
  · exact ha (hsuf.subset hd)
  · exact hsep hd

end Cut

/-! ## Replacing -/

section Replace

variable [DecidableEq α]

/-- Replace every occurrence of a pattern, from the left, after letting some symbols go. -/
def replaceFrom (old new : List α) : Nat → List α → List α
  | _, [] => []
  | k + 1, _ :: l => replaceFrom old new k l
  | 0, a :: l =>
    if old.isPrefixOf (a :: l) then new ++ replaceFrom old new (old.length - 1) l
    else a :: replaceFrom old new 0 l

/-- Replace every occurrence of a pattern, from the left and never overlapping. -/
def replaceAll (old new l : List α) : List α := replaceFrom old new 0 l

variable {c d e : α} {old new w l : List α}

/-- A text without the first symbol of the pattern and of its replacement can only begin a result
that it began before. -/
lemma prefix_of_prefix_replaceFrom (hw : c ∉ w) (h : w <+: replaceFrom (c :: old) (c :: new) 0 l) :
    w <+: l := by
  induction w generalizing l with
  | nil => exact nil_prefix
  | cons x w ih =>
    cases l with
    | nil => exact h
    | cons a l =>
      rw [replaceFrom] at h
      split at h
      · rw [cons_append, cons_prefix_cons] at h
        exact absurd (mem_cons.2 (.inl h.1.symm)) hw
      · rw [cons_prefix_cons] at h ⊢
        exact ⟨h.1, ih (fun hmem => hw (.tail x hmem)) h.2⟩

/-- If the replacement differs from the pattern in the second symbol, and neither has its first
symbol twice, the pattern is gone from the result. -/
lemma not_infix_replaceFrom (hold : c ∉ d :: old) (hnew : c ∉ e :: new) (hne : d ≠ e) (k : Nat)
    (l : List α) : ¬ c :: d :: old <:+: replaceFrom (c :: d :: old) (c :: e :: new) k l := by
  induction l generalizing k with
  | nil => simp [replaceFrom]
  | cons a l ih =>
    cases k with
    | succ k => exact ih k
    | zero =>
      rw [replaceFrom]
      split
      · rw [cons_append, infix_cons_iff, not_or]
        refine ⟨fun hhead => ?_, fun hlater => ih _ (infix_of_infix_append hnew hlater)⟩
        rw [cons_prefix_cons, cons_append, cons_prefix_cons] at hhead
        exact hne hhead.2.1
      · rename_i hpre
        rw [infix_cons_iff, not_or]
        refine ⟨fun hhead => hpre ?_, ih 0⟩
        rw [cons_prefix_cons] at hhead
        refine isPrefixOf_iff_prefix.2 <| cons_prefix_cons.2 ⟨hhead.1, ?_⟩
        exact prefix_of_prefix_replaceFrom hold hhead.2

end Replace

/-! ## Fields and trimming -/

section Fields

variable (width : List α → Nat)

/-- Split into the words between separators, after letting some symbols go and with the part of a
word already read. -/
def fieldsFrom : Nat → List α → List α → List (List α)
  | _, word, [] => if word.isEmpty then [] else [word]
  | k + 1, word, _ :: l => fieldsFrom k word l
  | 0, word, a :: l =>
    match width (a :: l) with
    | 0 => fieldsFrom 0 (word ++ [a]) l
    | k + 1 => (if word.isEmpty then [] else [word]) ++ fieldsFrom k [] l

/-- The words between separators. -/
def fields (l : List α) : List (List α) := fieldsFrom width 0 [] l

/-- Drop the separators a text begins with, after letting some symbols go. -/
def trimLeftFrom : Nat → List α → List α
  | _, [] => []
  | k + 1, _ :: l => trimLeftFrom k l
  | 0, a :: l =>
    match width (a :: l) with
    | 0 => a :: l
    | k + 1 => trimLeftFrom k l

/-- Drop the separators a text begins with. -/
def trimLeft (l : List α) : List α := trimLeftFrom width 0 l

/-- Drop the separators a text ends with, their width being told of the reversed text. -/
def trimRight (l : List α) : List α := (trimLeft width l.reverse).reverse

variable {width}

/-- A word is read up to its end. -/
lemma fieldsFrom_append {w : List α} (hw : ∀ a ∈ w, ∀ l, width (a :: l) = 0) (word l : List α) :
    fieldsFrom width 0 word (w ++ l) = fieldsFrom width 0 (word ++ w) l := by
  induction w generalizing word with
  | nil => simp
  | cons a w ih =>
    rw [cons_append, fieldsFrom, hw a (by simp)]
    dsimp only
    rw [ih fun b hb => hw b (.tail a hb), append_assoc]
    rfl

/-- A word and the single separator after it. -/
lemma fields_append_cons {w : List α} {s : α} (hw : ∀ a ∈ w, ∀ l, width (a :: l) = 0)
    (hne : w ≠ []) (hs : ∀ l, width (s :: l) = 1) (l : List α) :
    fields width (w ++ s :: l) = w :: fields width l := by
  rw [fields, fieldsFrom_append hw, nil_append, fieldsFrom, hs]
  simp [hne, fields]

lemma trimLeftFrom_isSuffix (k : Nat) (l : List α) : trimLeftFrom width k l <:+ l := by
  induction l generalizing k with
  | nil => exact suffix_rfl
  | cons a l ih =>
    cases k with
    | succ k => exact (ih k).trans (suffix_cons a l)
    | zero =>
      rw [trimLeftFrom]
      split
      · exact suffix_rfl
      · exact (ih _).trans (suffix_cons a l)

lemma trimLeft_isSuffix (width : List α → Nat) (l : List α) : trimLeft width l <:+ l :=
  trimLeftFrom_isSuffix 0 l

lemma trimRight_isPrefix (l : List α) : trimRight width l <+: l := by
  have h := reverse_prefix.2 (trimLeft_isSuffix width l.reverse)
  rwa [reverse_reverse] at h

/-- A trimmed text is empty or begins with no separator. -/
lemma width_trimLeftFrom (width : List α → Nat) (k : Nat) (l : List α) :
    trimLeftFrom width k l = [] ∨ width (trimLeftFrom width k l) = 0 := by
  induction l generalizing k with
  | nil => exact .inl rfl
  | cons a l ih =>
    cases k with
    | succ k => exact ih k
    | zero =>
      rw [trimLeftFrom]
      split
      · exact .inr ‹_›
      · exact ih _

lemma trimLeft_of_width {l : List α} (h : width l = 0) : trimLeft width l = l := by
  cases l with
  | nil => rfl
  | cons a l => rw [trimLeft, trimLeftFrom, h]

end Fields

/-! ## Splitting -/

section Split

variable [DecidableEq α] (sep : List α)

/-- Split at every occurrence of the separator, after letting some symbols go and with a part
already read. -/
def splitFrom : Nat → List α → List α → List (List α)
  | _, part, [] => [part]
  | k + 1, part, _ :: l => splitFrom k part l
  | 0, part, a :: l =>
    if sep.isPrefixOf (a :: l) then part :: splitFrom (sep.length - 1) [] l
    else splitFrom 0 (part ++ [a]) l

/-- Split at every occurrence of the separator; the separator is not empty. -/
def split (l : List α) : List (List α) := splitFrom sep 0 [] l

variable {sep} {l : List α}

/-- Every part stands in the text. -/
lemma infix_of_mem_splitFrom {k : Nat} {part p : List α} (h : p ∈ splitFrom sep k part l) :
    p <:+: part ++ l.drop k := by
  induction l generalizing k part with
  | nil =>
    have hone : p = part := by
      rw [splitFrom.eq_def] at h
      exact mem_singleton.1 h
    exact hone ▸ (prefix_append _ _).isInfix
  | cons a l ih =>
    cases k with
    | succ k => exact ih h
    | zero =>
      rw [splitFrom] at h
      split at h
      · obtain rfl | h := mem_cons.1 h
        · exact (prefix_append _ _).isInfix
        · have hrest : l.drop (sep.length - 1) <:+ part ++ a :: l :=
            (drop_suffix _ l).trans ((suffix_cons a l).trans (suffix_append part _))
          exact (ih h).trans hrest.isInfix
      · simpa using ih h

end Split

end Scan
