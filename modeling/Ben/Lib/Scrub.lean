import Ben.Lib.Scan

/-!
# Scrubbing words out of a text

Each of some words is replaced by a mark, one word after the other, and the whole pass is repeated
until it changes nothing.  Repeating is not idle: a mark and what stands beside it can spell a word
whose turn has passed.  When the mark is shorter than every word, each pass that changes the text
shortens it, so the passes come to an end, and the text they end with has none of the words.

A text may be scrubbed line by line.  A symbol that no word has is left where it stands, and what
has no such symbol occurs in lines put together only inside of one of them or across a mark that
has taken the end of a line.
-/

namespace Scan

open List

variable {α : Type*} [DecidableEq α] {c : α} {old new l : List α}

/-! ## One word -/

lemma replaceFrom_of_not_infix (h : ¬ old <:+: l) : replaceFrom old new 0 l = l := by
  induction l with
  | nil => rfl
  | cons a l ih =>
    rw [infix_cons_iff, not_or] at h
    have hpre : old.isPrefixOf (a :: l) ≠ true := fun hp =>
      h.1 <| isPrefixOf_iff_prefix.1 hp
    rw [replaceFrom, if_neg hpre, ih h.2]

lemma replaceFrom_drop (k : Nat) (l : List α) :
    replaceFrom old new k l = replaceFrom old new 0 (l.drop k) := by
  induction l generalizing k with
  | nil =>
    rw [drop_nil]
    cases k with
    | zero => rfl
    | succ k => rfl
  | cons a l ih =>
    cases k with
    | zero => rfl
    | succ k => exact ih k

/-- What replacing leaves unchanged ends a text in which it has changed something. -/
lemma replaceFrom_tail (l : List α) : replaceFrom old new 0 l = l ∨
    ∃ r u, replaceFrom old new 0 l = r ++ new ++ u ∧ u <:+ l := by
  induction hn : l.length using Nat.strong_induction_on generalizing l with
  | _ n ih =>
    subst hn
    cases l with
    | nil => exact .inl rfl
    | cons a l =>
      rw [replaceFrom]
      split
      · have hsuffix := (drop_suffix (old.length - 1) l).trans (suffix_cons a l)
        rw [replaceFrom_drop]
        obtain h | ⟨r, u, h, hu⟩ := ih (l.drop (old.length - 1)).length
          (by rw [length_drop, length_cons]; omega) _ rfl
        · exact .inr ⟨[], _, by rw [h, nil_append], hsuffix⟩
        · exact .inr ⟨new ++ r, u, by rw [h]; simp only [append_assoc], hu.trans hsuffix⟩
      · obtain h | ⟨r, u, h, hu⟩ := ih l.length (Nat.lt_succ_self _) l rfl
        · exact .inl (by rw [h])
        · exact .inr ⟨a :: r, u, by rw [h]; rfl, hu.trans (suffix_cons a l)⟩

lemma replaceFrom_self (hne : old ≠ []) : replaceFrom old new 0 old = new := by
  cases old with
  | nil => exact absurd rfl hne
  | cons a l =>
    rw [replaceFrom, if_pos (by simp), replaceFrom_drop, length_cons, Nat.add_sub_cancel,
      drop_length, replaceFrom, append_nil]

/-- Replacing by a shorter word does not lengthen a text, and shortens one that has the word. -/
lemma length_replaceFrom (hnew : new.length < old.length) (l : List α) :
    (replaceFrom old new 0 l).length ≤ l.length ∧
      (old <:+: l → (replaceFrom old new 0 l).length < l.length) := by
  induction hn : l.length using Nat.strong_induction_on generalizing l with
  | _ n ih =>
    subst hn
    cases l with
    | nil =>
      refine ⟨le_rfl, fun h => ?_⟩
      rw [infix_nil] at h
      rw [h] at hnew
      exact absurd hnew (Nat.not_lt_zero _)
    | cons a l =>
      rw [replaceFrom]
      split
      · next hpre =>
        have hle := IsPrefix.length_le <| isPrefixOf_iff_prefix.1 hpre
        rw [length_cons] at hle
        have hrest := (ih (l.drop (old.length - 1)).length
          (by rw [length_drop, length_cons]; omega) _ rfl).1
        rw [replaceFrom_drop, length_append, length_cons]
        rw [length_drop] at hrest
        constructor
        · omega
        · intro _
          omega
      · next hpre =>
        obtain ⟨hle, hlt⟩ := ih l.length (Nat.lt_succ_self _) l rfl
        rw [length_cons, length_cons]
        refine ⟨Nat.succ_le_succ hle, fun h => Nat.succ_lt_succ (hlt ?_)⟩
        obtain hhead | htail := infix_cons_iff.1 h
        · exact (hpre <| isPrefixOf_iff_prefix.2 hhead).elim
        · exact htail

lemma mem_of_mem_replaceFrom {k : Nat} (h : c ∈ replaceFrom old new k l) : c ∈ new ∨ c ∈ l := by
  induction l generalizing k with
  | nil =>
    rw [replaceFrom.eq_def] at h
    exact .inr h
  | cons a l ih =>
    have hrest : ∀ k, c ∈ replaceFrom old new k l → c ∈ new ∨ c ∈ a :: l := by
      intro k hk
      exact (ih hk).imp_right (.tail a)
    cases k with
    | succ k => exact hrest k h
    | zero =>
      rw [replaceFrom] at h
      split at h
      · obtain h | h := mem_append.1 h
        · exact .inl h
        · exact hrest _ h
      · obtain rfl | h := List.mem_cons.1 h
        · exact .inr (.head _)
        · exact hrest _ h

omit [DecidableEq α] in
/-- A word without a symbol begins a text that ends with the symbol if it begins what is before. -/
lemma prefix_concat_iff (hc : c ∉ old) : old <+: l ++ [c] ↔ old <+: l := by
  rw [List.prefix_concat_iff]
  refine or_iff_right ?_
  rintro rfl
  exact hc (mem_append_right _ (mem_singleton_self c))

/-- A last symbol the word does not have stays where it is. -/
lemma replaceFrom_concat (hne : old ≠ []) (hc : c ∉ old) {k : Nat} (hk : k ≤ l.length) :
    replaceFrom old new k (l ++ [c]) = replaceFrom old new k l ++ [c] := by
  induction l generalizing k with
  | nil =>
    obtain rfl : k = 0 := Nat.le_zero.1 hk
    rw [nil_append, replaceFrom_of_not_infix, replaceFrom, nil_append]
    intro h
    obtain h | h := (infix_singleton_iff old c).1 h
    · exact hne h
    · exact hc (h ▸ mem_singleton_self c)
  | cons a l ih =>
    cases k with
    | succ k => exact ih (Nat.le_of_succ_le_succ hk)
    | zero =>
      have hsame : old.isPrefixOf (a :: l ++ [c]) = old.isPrefixOf (a :: l) := by
        rw [Bool.eq_iff_iff, isPrefixOf_iff_prefix, isPrefixOf_iff_prefix, prefix_concat_iff hc]
      rw [cons_append, replaceFrom, replaceFrom, ← cons_append, hsame]
      split
      · next hpre =>
        have hle := IsPrefix.length_le <| isPrefixOf_iff_prefix.1 hpre
        rw [length_cons] at hle
        rw [ih (by omega), append_assoc]
      · rw [ih (Nat.zero_le _), cons_append]

/-! ## Passes over all words -/

/-- One pass: every word is replaced, one after the other. -/
def scrubOnce (words : List (List α)) (mark l : List α) : List α :=
  words.foldl (fun s word => replaceAll word mark s) l

/-- Passes until one changes nothing, as far as the fuel reaches. -/
def scrubFrom (words : List (List α)) (mark : List α) : Nat → List α → Option (List α)
  | 0, _ => none
  | fuel + 1, l =>
    if scrubOnce words mark l = l then some l
    else scrubFrom words mark fuel (scrubOnce words mark l)

variable {words : List (List α)} {mark : List α}

/-- The mark is shorter than every word. -/
def Shorter (mark : List α) (words : List (List α)) : Prop :=
  ∀ word ∈ words, mark.length < word.length

/-- A pass does not lengthen a text, and one that keeps its length has found none of the words. -/
lemma length_scrubOnce (hmark : Shorter mark words) (l : List α) :
    (scrubOnce words mark l).length ≤ l.length ∧
      ((scrubOnce words mark l).length = l.length → ∀ word ∈ words, ¬ word <:+: l) := by
  induction words generalizing l with
  | nil => exact ⟨le_rfl, fun _ _ h => absurd h not_mem_nil⟩
  | cons word words ih =>
    obtain ⟨hle, hlt⟩ := length_replaceFrom (hmark word (.head _)) l
    obtain ⟨hrest, heq⟩ := ih (fun w hw => hmark w (.tail word hw))
      (replaceAll word mark l)
    refine ⟨hrest.trans hle, fun hlen => ?_⟩
    have hkept : ¬ word <:+: l := by
      intro hocc
      have hshort := hlt hocc
      have hfold : (scrubOnce (word :: words) mark l).length ≤ (replaceAll word mark l).length :=
        hrest
      rw [hlen] at hfold
      exact absurd hshort (Nat.not_lt.2 hfold)
    have hsame : replaceAll word mark l = l := replaceFrom_of_not_infix hkept
    intro w hw
    obtain rfl | hw := mem_cons.1 hw
    · exact hkept
    · rw [hsame] at heq
      have hfold : scrubOnce (word :: words) mark l = scrubOnce words mark l := by
        rw [scrubOnce, foldl_cons, hsame]
        rfl
      rw [hfold] at hlen
      exact heq hlen w hw

lemma scrubOnce_of_clean (h : ∀ word ∈ words, ¬ word <:+: l) : scrubOnce words mark l = l := by
  induction words with
  | nil => rfl
  | cons word words ih =>
    have hsame : replaceAll word mark l = l := replaceFrom_of_not_infix (h word (.head _))
    rw [scrubOnce, foldl_cons, hsame]
    exact ih fun w hw => h w (.tail word hw)

/-- Fuel for one pass more than the text has symbols is enough. -/
lemma exists_scrubFrom (hmark : Shorter mark words) {fuel : Nat} (hfuel : l.length < fuel) :
    ∃ r, scrubFrom words mark fuel l = some r := by
  induction fuel generalizing l with
  | zero => exact absurd hfuel (Nat.not_lt_zero _)
  | succ fuel ih =>
    rw [scrubFrom]
    split
    · exact ⟨l, rfl⟩
    · next hchanged =>
      obtain ⟨hle, heq⟩ := length_scrubOnce hmark l
      have hne : (scrubOnce words mark l).length ≠ l.length :=
        fun hlen => hchanged (scrubOnce_of_clean (heq hlen))
      exact ih (by omega)

/-- What the passes end with. -/
lemma clean_of_scrubFrom (hmark : Shorter mark words) {fuel : Nat} {r : List α}
    (h : scrubFrom words mark fuel l = some r) : ∀ word ∈ words, ¬ word <:+: r := by
  induction fuel generalizing l with
  | zero => cases h
  | succ fuel ih =>
    rw [scrubFrom] at h
    split at h
    · next hsame =>
      obtain rfl := Option.some.inj h
      exact (length_scrubOnce hmark l).2 (congrArg List.length hsame)
    · exact ih h

/-- What every pass keeps holds of the text they end with. -/
lemma scrubFrom_invariant {P : List α → Prop} (hpass : ∀ l, P l → P (scrubOnce words mark l))
    {fuel : Nat} {r : List α} (hl : P l) (h : scrubFrom words mark fuel l = some r) : P r := by
  induction fuel generalizing l with
  | zero => cases h
  | succ fuel ih =>
    rw [scrubFrom] at h
    split at h
    · exact Option.some.inj h ▸ hl
    · exact ih (hpass l hl) h

/-- More fuel makes no difference. -/
lemma scrubFrom_mono {fuel fuel' : Nat} {r : List α} (hle : fuel ≤ fuel')
    (h : scrubFrom words mark fuel l = some r) : scrubFrom words mark fuel' l = some r := by
  induction fuel generalizing l fuel' with
  | zero => cases h
  | succ fuel ih =>
    obtain ⟨n, rfl⟩ : ∃ n, fuel' = n + 1 := ⟨fuel' - 1, by omega⟩
    rw [scrubFrom] at h ⊢
    split at h
    · next hsame =>
      rw [if_pos hsame]
      exact h
    · next hchanged =>
      rw [if_neg hchanged]
      exact ih (by omega) h

/-! ## Lines -/

/-- A pass keeps a last symbol that no word with an occurrence has, and brings in no other. -/
lemma scrubOnce_concat (hne : [] ∉ words) (hc : c ∉ mark)
    (hwords : ∀ word ∈ words, c ∈ word → ∀ l, c ∉ l → ¬ word <:+: l ++ [c]) (hl : c ∉ l) :
    ∃ r, scrubOnce words mark (l ++ [c]) = r ++ [c] ∧ c ∉ r := by
  induction words generalizing l with
  | nil => exact ⟨l, rfl, hl⟩
  | cons word words ih =>
    rw [mem_cons, not_or] at hne
    have hrest : ∀ w ∈ words, c ∈ w → ∀ l, c ∉ l → ¬ w <:+: l ++ [c] :=
      fun w hw => hwords w (.tail word hw)
    by_cases hmem : c ∈ word
    · have hsame : replaceAll word mark (l ++ [c]) = l ++ [c] :=
        replaceFrom_of_not_infix (hwords word (.head _) hmem l hl)
      rw [scrubOnce, foldl_cons, hsame]
      exact ih hne.2 hrest hl
    · have hkeep : replaceAll word mark (l ++ [c]) = replaceAll word mark l ++ [c] :=
        replaceFrom_concat (Ne.symm hne.1) hmem (Nat.zero_le _)
      rw [scrubOnce, foldl_cons, hkeep]
      refine ih hne.2 hrest fun h => ?_
      obtain h | h := mem_of_mem_replaceFrom h
      · exact hc h
      · exact hl h

/-- With a mark that repeats one symbol, a pass over a text that ends with some other symbol or with
the mark leaves one that does. -/
lemma scrubOnce_ends {a : α} {m : Nat} (h : [c] <:+ l ∨ replicate m a <:+ l) :
    [c] <:+ scrubOnce words (replicate m a) l ∨
      replicate m a <:+ scrubOnce words (replicate m a) l := by
  induction words generalizing l with
  | nil => exact h
  | cons word words ih =>
    rw [scrubOnce, foldl_cons]
    refine ih ?_
    rw [replaceAll]
    obtain hsame | ⟨r, u, htail, hu⟩ := @replaceFrom_tail _ _ word (replicate m a) l
    · rw [hsame]
      exact h
    rw [htail]
    obtain h | h := h
    · obtain h | h := suffix_or_suffix_of_suffix h hu
      · exact .inl (h.trans (suffix_append _ u))
      · obtain rfl | h := suffix_cons_iff.1 h
        · exact .inl (suffix_append _ _)
        · rw [suffix_nil.1 h, append_nil]
          exact .inr (suffix_append r _)
    · obtain h | h := suffix_or_suffix_of_suffix h hu
      · exact .inr (h.trans (suffix_append _ u))
      · obtain ⟨k, -, rfl⟩ := sublist_replicate_iff.1 h.sublist
        -- the mark and the part of a mark after it are one row of the symbol
        rw [append_assoc, replicate_append_replicate, Nat.add_comm, ← replicate_append_replicate,
          ← append_assoc]
        exact .inr (suffix_append _ _)

omit [DecidableEq α] in
/-- A word without the symbol that ends the pieces, and in none of them, occurs in what they make
together only across the end of a piece that ends with the mark. -/
lemma exists_cut {E : Prop} {w front rest : List α} {pieces : List (List α)} (hw : c ∉ w)
    (hne : w ≠ []) (hpieces : ∀ s ∈ pieces, [c] <:+ s ∨ (E ∧ mark <:+ s))
    (hclean : ∀ s ∈ pieces, ¬ w <:+: s) (h : pieces.flatten = front ++ (w ++ rest)) :
    E ∧ ∃ x y, w = x ++ y ∧ x ≠ [] ∧ y ≠ [] ∧ mark <:+ front ++ x := by
  induction pieces generalizing front with
  | nil => exact absurd (append_eq_nil_iff.1 (append_eq_nil_iff.1 h.symm).2).1 hne
  | cons s pieces ih =>
    have hrest := fun {front} => @ih front (fun s' hs' => hpieces s' (.tail s hs'))
      fun s' hs' => hclean s' (.tail s hs')
    rw [flatten_cons] at h
    obtain ⟨a, rfl, hafter⟩ | ⟨q, rfl, hacross⟩ := append_eq_append_iff.1 h
    · obtain ⟨hE, x, y, hxy, hx, hy, hmark⟩ := hrest hafter
      refine ⟨hE, x, y, hxy, hx, hy, ?_⟩
      rw [append_assoc]
      exact hmark.trans (suffix_append s _)
    · obtain ⟨b, rfl, -⟩ | ⟨y, rfl, hafter⟩ := append_eq_append_iff.1 hacross
      · exact absurd ⟨front, b, by rw [append_assoc]⟩ (hclean _ (.head _))
      by_cases hq : q = []
      · subst hq
        obtain ⟨hE, x, y', hxy, hx, hy, hmark⟩ := @hrest [] hafter
        exact ⟨hE, x, y', hxy, hx, hy, hmark.trans (suffix_append front _)⟩
      by_cases hy : y = []
      · subst hy
        refine absurd ⟨front, [], ?_⟩ (hclean _ (.head _))
        simp only [append_nil]
      obtain hend | ⟨hE, hmark⟩ := hpieces _ (.head _)
      · obtain hend | hend := suffix_or_suffix_of_suffix hend (suffix_append front q)
        · exact absurd (mem_append_left y (hend.subset (mem_singleton_self c))) hw
        · obtain rfl | hend := suffix_cons_iff.1 hend
          · exact absurd (.head _) hw
          · exact absurd (suffix_nil.1 hend) hq
      · exact ⟨hE, q, y, rfl, hq, hy, hmark⟩

/-- With the longest words first, a text that is one of them becomes the mark. -/
lemma scrubOnce_self (hmark : Shorter mark words)
    (hsorted : words.Pairwise fun a b => b.length ≤ a.length) (h : l ∈ words) :
    scrubOnce words mark l = mark := by
  induction words with
  | nil => cases h
  | cons word words ih =>
    rw [pairwise_cons] at hsorted
    have hrest : Shorter mark words := fun w hw => hmark w (.tail word hw)
    by_cases hword : word = l
    · subst hword
      have hself : replaceAll word mark word = mark := replaceFrom_self fun hnil => by
        have hlt := hmark word (.head _)
        rw [hnil] at hlt
        exact Nat.not_lt_zero _ hlt
      rw [scrubOnce, foldl_cons, hself]
      exact scrubOnce_of_clean fun w hw hin => absurd hin.length_le (Nat.not_le.2 (hrest w hw))
    · have hl : l ∈ words := (mem_cons.1 h).resolve_left fun heq => hword heq.symm
      have hsame : replaceAll word mark l = l := replaceFrom_of_not_infix fun hin =>
        hword (hin.eq_of_length_le (hsorted.1 l hl))
      rw [scrubOnce, foldl_cons, hsame]
      exact ih hrest hsorted.2 hl

/-- The parts between single symbols have none of them. -/
lemma not_mem_of_mem_splitFrom {k : Nat} {part p : List α} (hpart : c ∉ part)
    (h : p ∈ splitFrom [c] k part l) : c ∉ p := by
  induction l generalizing k part with
  | nil =>
    rw [splitFrom.eq_def] at h
    exact mem_singleton.1 h ▸ hpart
  | cons a l ih =>
    cases k with
    | succ k => exact ih hpart h
    | zero =>
      rw [splitFrom] at h
      split at h
      · obtain rfl | h := mem_cons.1 h
        · exact hpart
        · exact ih not_mem_nil h
      · next hpre =>
        refine ih ?_ h
        rw [mem_append, not_or, mem_singleton]
        refine ⟨hpart, fun hca => hpre ?_⟩
        rw [hca, isPrefixOf_iff_prefix]
        exact prefix_append [a] l

end Scan
