import Ben.Review.Marker

/-!
# Markers read back

A body is a header, prose the controller did not write, and a marker.  Sanitising leaves no place
in the prose where a comment opens (`unmarked_sanitizeFindings`), and neither trimming nor cutting
the prose short makes one, so the marker is the only comment of the body.  Its own parser then finds
exactly its fields (`parseMarker_body`) and the parser of every other kind finds nothing
(`parseMarker_body_of_ne`).
-/

namespace Ben.Review

open List

/-- No comment opens in the text. -/
def Unmarked (s : Text) : Prop := ¬ txt "<!--" <:+: s

/-- Bytes a marker's words are made of: printable, none of them white space or an angle bracket. -/
def PlainByte (b : UInt8) : Prop := 33 ≤ b ∧ b ≤ 126 ∧ b ≠ 60 ∧ b ≠ 62

instance (b : UInt8) : Decidable (PlainByte b) :=
  inferInstanceAs (Decidable (33 ≤ b ∧ b ≤ 126 ∧ b ≠ 60 ∧ b ≠ 62))

/-- A word of a marker. -/
def Plain (s : Text) : Prop := ∀ b ∈ s, PlainByte b

instance (s : Text) : Decidable (Plain s) := inferInstanceAs (Decidable (∀ b ∈ s, PlainByte b))

/-- The kinds of markers. -/
inductive MarkerKind where
  | review
  | route
  | routeIntent
  | reviewBlocked
  | milestone
  deriving DecidableEq, Repr

/-- The name in the marker. -/
def MarkerKind.name : MarkerKind → Text
  | .review => markerReview
  | .route => markerRoute
  | .routeIntent => markerRouteIntent
  | .reviewBlocked => markerReviewBlocked
  | .milestone => markerMilestone

/-! ## Prose -/

lemma txt_comment : txt "<!--" = [60, 33, 45, 45] := by decide

lemma unmarked_of_not_mem {s} (h : (60 : UInt8) ∉ s) : Unmarked s := by
  intro hin
  rw [txt_comment] at hin
  exact h (hin.subset (by simp))

lemma Unmarked.isInfix {s t} (h : Unmarked t) (hst : s <:+: t) : Unmarked s :=
  fun hin => h (hin.trans hst)

/-- In front of unmarked text anything without an opening bracket may stand. -/
lemma Unmarked.append_left {s t} (hs : (60 : UInt8) ∉ s) (ht : Unmarked t) : Unmarked (s ++ t) := by
  intro hin
  rw [txt_comment] at hin
  exact ht (txt_comment ▸ Scan.infix_of_infix_append hs hin)

/-- After unmarked text a line may end and anything without an opening bracket may follow. -/
lemma Unmarked.append_line {s t} (hs : Unmarked s) (ht : (60 : UInt8) ∉ t) :
    Unmarked (s ++ 10 :: t) := by
  intro hin
  obtain hin | hin := Scan.infix_or_of_infix_append_cons (by decide) hin
  · exact hs hin
  · exact unmarked_of_not_mem ht hin

/-- Sanitised prose opens no comment. -/
lemma unmarked_sanitizeFindings (s) : Unmarked (sanitizeFindings s) := by
  unfold Unmarked sanitizeFindings Scan.replaceAll
  rw [txt_comment, show txt "< !--" = [60, 32, 33, 45, 45] by decide]
  exact Scan.not_infix_replaceFrom (by decide) (by decide) (by decide) 0 s

lemma unmarked_trimSpace_sanitizeFindings (s) : Unmarked (trimSpace (sanitizeFindings s)) :=
  (unmarked_sanitizeFindings s).isInfix (trimSpace_isInfix _)

/-- The prose of a review opens no comment, however much of it is cut off. -/
lemma unmarked_reviewProse (findings) : Unmarked (reviewProse findings) := by
  have hclean := unmarked_trimSpace_sanitizeFindings findings
  unfold reviewProse
  generalize trimSpace (sanitizeFindings findings) = s at hclean
  have hcut : Unmarked (if maxFindings < s.length then s.take maxFindings ++ txt "\n\n_(truncated)_"
      else s) := by
    split
    · rw [show txt "\n\n_(truncated)_" = 10 :: txt "\n_(truncated)_" by decide]
      have hcut : s.take maxFindings <+: s := take_prefix _ s
      exact (hclean.isInfix hcut.isInfix).append_line (by decide)
    · exact hclean
  dsimp only
  generalize (if maxFindings < s.length then _ else s) = cut at hcut
  split
  · exact unmarked_of_not_mem (by decide)
  · exact hcut

/-! ## Words -/

lemma PlainByte.spaceWidth_eq {b} (hb : PlainByte b) (l) : spaceWidth (b :: l) = 0 := by
  have hnone : spaces.find? (fun s => s.isPrefixOf (b :: l)) = none := by
    rw [find?_eq_none]
    intro s hs hpre
    have hhead : ∀ s ∈ spaces, s ≠ [] ∧ ∀ h ∈ s.head?, ¬ (33 ≤ h ∧ h ≤ 126) := by
      decide +kernel
    obtain ⟨hne, hrange⟩ := hhead s hs
    cases s with
    | nil => exact hne rfl
    | cons h t =>
      have hsame := cons_prefix_cons.1 <| isPrefixOf_iff_prefix.1 hpre
      exact hrange h rfl (hsame.1 ▸ ⟨hb.1, hb.2.1⟩)
  simp [spaceWidth, hnone]

lemma spaceWidth_blank (l) : spaceWidth (32 :: l) = 1 := rfl

/-- Words with a blank after each are read back. -/
lemma fields_join {ts} (hts : ∀ t ∈ ts, Plain t ∧ t ≠ []) :
    fields (join (txt " ") ts ++ txt " ") = ts := by
  induction ts with
  | nil => decide
  | cons t ts ih =>
    have ht := hts t (by simp)
    have hword : ∀ l, fields (t ++ 32 :: l) = t :: fields l :=
      Scan.fields_append_cons (fun b hb => (ht.1 b hb).spaceWidth_eq) ht.2 spaceWidth_blank
    have ih' := ih fun u hu => hts u (.tail t hu)
    cases ts with
    | nil => exact hword []
    | cons u ts =>
      rw [show join (txt " ") (t :: u :: ts) ++ txt " " =
        t ++ 32 :: (join (txt " ") (u :: ts) ++ txt " ") by
          simp [join, show txt " " = [32] by decide], hword, ih']

/-! ## Fields -/

/-- The fields can stand in a marker: their words are plain, and every key comes once and without
the sign that ends it. -/
structure Renderable (fs : Fields) : Prop where
  keys : ∀ k ∈ fs.map (·.1), Plain k ∧ (61 : UInt8) ∉ k
  values : ∀ v ∈ fs.map (·.2), Plain v
  nodup : (fs.map (·.1)).Nodup

lemma Renderable.plain {fs} (h : Renderable fs) {f : Text × Text} (hf : f ∈ fs) :
    Plain f.1 ∧ Plain f.2 :=
  ⟨(h.keys f.1 (mem_map_of_mem hf)).1, h.values f.2 (mem_map_of_mem hf)⟩

lemma txt_eq : txt "=" = [61] := by decide

lemma plain_renderField {f : Text × Text} (hf : Plain f.1 ∧ Plain f.2) : Plain (renderField f) := by
  intro b hb
  simp only [renderField, txt_eq, mem_append, mem_singleton] at hb
  obtain (hb | rfl) | hb := hb
  · exact hf.1 b hb
  · decide
  · exact hf.2 b hb

lemma renderField_ne_nil (f : Text × Text) : renderField f ≠ [] := by
  simp [renderField, txt_eq]

section

variable [Library] {name : Text} {fs : Fields}

/-- Rendered fields are read back onto those already read. -/
lemma parseFields_render (name) (hkeys : ∀ k ∈ fs.map (·.1), Plain k ∧ (61 : UInt8) ∉ k) (f0)
    (hnodup : ((f0 ++ fs).map (·.1)).Nodup) :
    parseFields name (fs.map renderField) f0 = .ok (f0 ++ fs) := by
  induction fs generalizing f0 with
  | nil => simp [parseFields]
  | cons f fs ih =>
    have hcut : Scan.cut (txt "=") (renderField f) = some (f.1, f.2) := by
      have h : Scan.cut ([] ++ [(61 : UInt8)]) (f.1 ++ ([] ++ [61] ++ f.2)) = some (f.1, f.2) :=
        Scan.cut_of_last f.2 (by simp) (hkeys f.1 (by simp)).2
      simpa [renderField, txt_eq] using h
    have hnew : f0.lookup f.1 = none := by
      rw [lookup_eq_none_iff]
      intro p hp
      rw [map_append, map_cons, nodup_append] at hnodup
      have hne := hnodup.2.2 p.1 (mem_map_of_mem hp) f.1 (by simp)
      simpa using hne.symm
    rw [map_cons, parseFields, hcut]
    dsimp only
    rw [hnew, Option.isSome_none, if_neg (by simp),
      ih (fun k hk => hkeys k (.tail f.1 hk)) _ (by simpa using hnodup)]
    simp

omit [Library] in
lemma plain_join {ts} (hts : ∀ t ∈ ts, Plain t) :
    ∀ b ∈ join (txt " ") ts, b = 32 ∨ PlainByte b := by
  induction ts with
  | nil => simp [join]
  | cons t ts ih =>
    have ht := hts t (by simp)
    have ih' := ih fun u hu => hts u (.tail t hu)
    cases ts with
    | nil => exact fun b hb => .inr (ht b hb)
    | cons u ts =>
      intro b hb
      rw [show join (txt " ") (t :: u :: ts) = t ++ [32] ++ join (txt " ") (u :: ts) from rfl,
        mem_append, mem_append, mem_singleton] at hb
      obtain (hb | hb) | hb := hb
      · exact .inr (ht b hb)
      · exact .inl hb
      · exact ih' b hb

omit [Library] in
/-- What stands in a marker after its opening has no angle bracket. -/
lemma not_mem_join (hfs : Renderable fs) {b} (hb : b = 60 ∨ b = 62) :
    b ∉ join (txt " ") (fs.map renderField) ++ txt " " := by
  intro hmem
  rw [mem_append, show txt " " = [32] by decide] at hmem
  have hplain : b = 32 ∨ PlainByte b := by
    obtain hmem | hmem := hmem
    · refine plain_join (fun t ht => ?_) b hmem
      obtain ⟨f, hf, rfl⟩ := mem_map.1 ht
      exact plain_renderField (hfs.plain hf)
    · exact .inl (mem_singleton.1 hmem)
  obtain rfl | rfl := hb
  · revert hplain
    decide
  · revert hplain
    decide

/-! ## Bodies -/

/-- A marker of a kind after text in which no marker of the kind opens is the one its kind's parser
finds. -/
lemma parseMarker_of_unopened {pre} (hpre : ¬ txt "<!-- " ++ name ++ txt " " <:+: pre)
    (hname : Plain name) (hfs : Renderable fs) :
    parseMarker (pre ++ renderMarker name fs ++ txt "\n") name = .ok fs := by
  set inside := join (txt " ") (fs.map renderField) ++ txt " " with hinside
  have hrest : pre ++ renderMarker name fs ++ txt "\n" =
      pre ++ (txt "<!-- " ++ name ++ txt " " ++ (inside ++ (txt "-->" ++ txt "\n"))) := by
    simp [renderMarker, hinside, show txt " -->" = txt " " ++ txt "-->" by decide]
  have hopen : txt "<!-- " ++ name ++ txt " " =
      60 :: ([33, 45, 45, 32] ++ name ++ [32]) := by
    rw [show txt "<!-- " = 60 :: [33, 45, 45, 32] by decide, show txt " " = [32] by decide]
    rfl
  have hno : (60 : UInt8) ∉ [33, 45, 45, 32] ++ name ++ [32] := by
    simp only [mem_append, not_or]
    exact ⟨⟨by decide, fun h => (hname _ h).2.2.1 rfl⟩, by decide⟩
  have hfirst : Scan.cut (txt "<!-- " ++ name ++ txt " ")
      (pre ++ (txt "<!-- " ++ name ++ txt " " ++ (inside ++ (txt "-->" ++ txt "\n")))) =
      some (pre, inside ++ (txt "-->" ++ txt "\n")) := by
    rw [hopen] at hpre ⊢
    exact Scan.cut_of_head _ hno hpre
  have hbracket : (60 : UInt8) ∉ inside ++ (txt "-->" ++ txt "\n") := by
    rw [mem_append, not_or]
    exact ⟨not_mem_join hfs (.inl rfl), by decide⟩
  have honly : contains (inside ++ (txt "-->" ++ txt "\n")) (txt "<!-- " ++ name ++ txt " ") =
      false := by
    rw [contains_eq_false, hopen]
    exact fun hin => hbracket (hin.subset (by simp))
  have hend : Scan.cut (txt "-->") (inside ++ (txt "-->" ++ txt "\n")) =
      some (inside, txt "\n") := by
    rw [show txt "-->" = [45, 45] ++ [62] by decide]
    exact Scan.cut_of_last _ (by decide) (not_mem_join hfs (.inr rfl))
  rw [hrest]
  unfold parseMarker
  dsimp only
  rw [hfirst]
  dsimp only
  rw [honly, if_neg (by simp), hend]
  dsimp only
  rw [hinside, fields_join, parseFields_render name hfs.keys [] (by simpa using hfs.nodup)]
  · simp
  · intro t ht
    obtain ⟨f, hf, rfl⟩ := mem_map.1 ht
    exact ⟨plain_renderField (hfs.plain hf), renderField_ne_nil f⟩

/-- A marker of a kind after unmarked text is the one its kind's parser finds. -/
theorem parseMarker_body {pre : Text} (hpre : Unmarked pre) (hname : Plain name)
    (hfs : Renderable fs) :
    parseMarker (pre ++ renderMarker name fs ++ txt "\n") name = .ok fs := by
  refine parseMarker_of_unopened (fun hin => hpre (List.IsInfix.trans ?_ hin)) hname hfs
  rw [txt_comment, show txt "<!-- " = [60, 33, 45, 45] ++ [32] by decide]
  exact ⟨[], [32] ++ name ++ txt " ", by simp⟩

/-- Where a marker of the kind opens before it, the parser refuses the body. -/
lemma parseMarker_of_opened {pre} (hpre : txt "<!-- " ++ name ++ txt " " <:+: pre) :
    parseMarker (pre ++ renderMarker name fs ++ txt "\n") name = .error (.ambiguous name) := by
  set opening := txt "<!-- " ++ name ++ txt " " with hopening
  obtain ⟨u, v, rfl⟩ := hpre
  have hbody : u ++ opening ++ v ++ renderMarker name fs ++ txt "\n" =
      u ++ opening ++ v ++
        (opening ++ (join (txt " ") (fs.map renderField) ++ txt " -->" ++ txt "\n")) := by
    simp [renderMarker, hopening]
  rw [hbody]
  unfold parseMarker
  dsimp only
  rw [← hopening]
  cases hcut : Scan.cut opening (u ++ opening ++ v ++
      (opening ++ (join (txt " ") (fs.map renderField) ++ txt " -->" ++ txt "\n"))) with
  | none => exact absurd ⟨u, _, (append_assoc _ _ _).symm⟩ (Scan.cut_eq_none_iff.1 hcut)
  | some found =>
    obtain ⟨a, b⟩ := found
    obtain ⟨heq, hleast⟩ := Scan.cut_eq_some hcut
    have hau : a.length ≤ u.length := hleast u _ (append_assoc _ _ _)
    -- the second opening stands in what is left after the first one
    have hsecond : opening <:+: b := by
      obtain ⟨c, -, rfl⟩ | ⟨c, hac, hb⟩ := append_eq_append_iff.1 heq.symm
      · exact ⟨c, _, append_assoc _ _ _⟩
      · have hnil : c = [] := by
          have hlen := congrArg List.length hac
          simp only [length_append] at hlen
          exact length_eq_zero_iff.1 (by omega)
        rw [hnil, nil_append] at hb
        exact hb ▸ (prefix_append opening _).isInfix
    dsimp only
    rw [if_pos]
    by_contra hno
    exact contains_eq_false.1 (Bool.eq_false_iff.2 hno) hsecond

/-- The parser of another kind finds no marker there. -/
theorem parseMarker_body_of_ne {pre other : Text} (hpre : Unmarked pre) (hname : Plain name)
    (hother : Plain other) (hne : other ≠ name) (hfs : Renderable fs) :
    parseMarker (pre ++ renderMarker name fs ++ txt "\n") other = .error .noMarker := by
  set inside := join (txt " ") (fs.map renderField) ++ txt " " with hinside
  have hbody : pre ++ renderMarker name fs ++ txt "\n" =
      pre ++ 60 :: ([33, 45, 45, 32] ++ (name ++ 32 :: (inside ++ (txt "-->" ++ txt "\n")))) := by
    simp [renderMarker, hinside, show txt " -->" = txt " " ++ txt "-->" by decide,
      show txt "<!-- " = [60, 33, 45, 45, 32] by decide, show txt " " = [32] by decide]
  have hopen : txt "<!-- " ++ other ++ txt " " =
      60 :: ([33, 45, 45, 32] ++ (other ++ [32])) := by
    rw [show txt "<!-- " = 60 :: [33, 45, 45, 32] by decide, show txt " " = [32] by decide]
    simp
  have hno : ∀ n : Text, Plain n → (60 : UInt8) ∉ n := fun n hn h => (hn _ h).2.2.1 rfl
  have hblank : ∀ n : Text, Plain n → (32 : UInt8) ∉ n :=
    fun n hn h => absurd (hn _ h).1 (by decide)
  have hcut : Scan.cut (txt "<!-- " ++ other ++ txt " ")
      (pre ++ renderMarker name fs ++ txt "\n") = none := by
    rw [Scan.cut_eq_none_iff, hopen, hbody]
    intro hin
    have hhead := Scan.prefix_of_infix_append_cons ?_ ?_ ?_ hin
    · rw [prefix_append_right_inj] at hhead
      exact hne (Scan.eq_of_append_cons_prefix (hblank other hother) (hblank name hname) hhead)
    · simp only [mem_append, not_or]
      exact ⟨by decide, hno other hother, by decide⟩
    · simp only [mem_append, mem_cons, not_or]
      exact ⟨by decide, hno name hname, by decide, not_mem_join hfs (.inl rfl), by decide⟩
    · refine fun hin => hpre (List.IsInfix.trans ?_ hin)
      rw [txt_comment]
      exact ⟨[], 32 :: (other ++ [32]), by simp⟩
  unfold parseMarker
  dsimp only
  rw [hcut]

/-! ## The four kinds -/

/-- An event id as the parsers accept it. -/
def IsId (n : Int) : Prop := 0 < n ∧ n < 2 ^ 63

instance (n : Int) : Decidable (IsId n) := inferInstanceAs (Decidable (0 < n ∧ n < 2 ^ 63))

/-- A review marker whose fields its parser accepts. -/
def ReviewMarker.WellFormed (m : ReviewMarker) : Prop :=
  IsId m.occurrence ∧ IsId m.claim ∧ IsId m.approval ∧ isFullSHA m.head = true ∧
    isFullSHA m.base = true ∧
    (m.reviewerProfile = [] ∨ validReviewerProfile m.reviewerProfile = true)

/-- A route marker whose fields its parser accepts. -/
def RouteMarker.WellFormed (m : RouteMarker) : Prop :=
  IsId m.occurrence ∧ IsId m.claim ∧ isFullSHA m.head = true

/-- A route intent whose fields its parser accepts: a revision is never one. -/
def RouteIntentMarker.WellFormed (m : RouteIntentMarker) : Prop :=
  IsId m.occurrence ∧ IsId m.claim ∧ IsId m.approval ∧ isFullSHA m.head = true ∧
    m.outcome ≠ .revise

/-- A blocked marker whose fields its parser accepts. -/
def ReviewBlockedMarker.WellFormed (m : ReviewBlockedMarker) : Prop :=
  IsId m.occurrence ∧ IsId m.claim ∧ IsId m.approval ∧ isFullSHA m.head = true ∧
    validBlockReason m.reason = true

section

omit [Library]

lemma plainByte_of_word {b} (h : (97 ≤ b ∧ b ≤ 122) ∨ (48 ≤ b ∧ b ≤ 57) ∨ b = 95 ∨ b = 45) :
    PlainByte b := by
  simp only [PlainByte, UInt8.le_iff_toNat_le, ne_eq, ← UInt8.toNat_inj, UInt8.reduceToNat] at h ⊢
  omega

lemma plain_itoa {n : Int} (hn : IsId n) : Plain (itoa n) := by
  obtain ⟨k, rfl⟩ := Int.eq_ofNat_of_zero_le hn.1.le
  exact fun b hb => plainByte_of_word (.inr (.inl (Decimal.mem_ofNat hb)))

lemma plain_of_isFullSHA {s} (hs : isFullSHA s) : Plain s := by
  simp only [isFullSHA, Bool.and_eq_true, all_eq_true, Bool.or_eq_true, decide_eq_true_eq] at hs
  intro b hb
  obtain h | h := hs.2 b hb
  · exact plainByte_of_word (.inr (.inl h))
  · refine plainByte_of_word (.inl ⟨h.1, ?_⟩)
    have := h.2
    simp only [UInt8.le_iff_toNat_le, UInt8.reduceToNat] at this ⊢
    omega

lemma plain_of_validReviewerProfile {s} (hs : validReviewerProfile s) : Plain s := by
  simp only [validReviewerProfile, Bool.and_eq_true, all_eq_true, Bool.or_eq_true,
    decide_eq_true_eq, beq_iff_eq] at hs
  intro b hb
  obtain (h | h) | h := hs.2 b hb
  · exact plainByte_of_word (.inl h)
  · exact plainByte_of_word (.inr (.inl h))
  · exact plainByte_of_word (.inr (.inr (.inr h)))

lemma plain_of_validBlockReason {s} (hs : validBlockReason s) : Plain s := by
  simp only [validBlockReason, Bool.and_eq_true, all_eq_true, Bool.or_eq_true,
    decide_eq_true_eq, beq_iff_eq] at hs
  intro b hb
  obtain ((h | h) | h) | h := hs.2 b hb
  · exact plainByte_of_word (.inl h)
  · exact plainByte_of_word (.inr (.inl h))
  · exact plainByte_of_word (.inr (.inr (.inl h)))
  · exact plainByte_of_word (.inr (.inr (.inr h)))

lemma Verdict.plain_text (v : Verdict) : Plain v.text := by
  cases v <;> decide +kernel

lemma Outcome.plain_text (o : Outcome) : Plain o.text := by
  cases o <;> decide +kernel

lemma Plain.not_mem {s} (hs : Plain s) : (60 : UInt8) ∉ s := fun h => (hs _ h).2.2.1 rfl

end

/-- An id that was rendered is read back. -/
lemma Fields.id_itoa (f : Fields) (key) {n : Int} (h : f.lookup key = some (itoa n)) (hn : IsId n) :
    f.id key = .ok n := by
  unfold Fields.id
  rw [h]
  dsimp only
  rw [itoa, Decimal.readInt_ofInt hn.1.le hn.2]
  dsimp only
  rw [if_neg (by have := hn.1; omega)]

/-- A commit that was rendered is read back. -/
lemma Fields.sha_of_lookup (f : Fields) (key) {sha} (h : f.lookup key = some sha)
    (hsha : isFullSHA sha) : f.sha key = .ok sha := by
  simp [Fields.sha, h, hsha]

omit [Library] in
/-- Fields under a list of keys that was checked. -/
lemma renderable_of_keys (keys : List Text) (hkeys : fs.map (·.1) = keys)
    (hplain : ∀ k ∈ keys, Plain k ∧ (61 : UInt8) ∉ k) (hnodup : keys.Nodup)
    (hvalues : ∀ v ∈ fs.map (·.2), Plain v) : Renderable fs :=
  ⟨hkeys ▸ hplain, hvalues, hkeys ▸ hnodup⟩

/-- A body whose marker is the only comment in it: what its kind's parser reads are the marker's
fields, and no other kind's parser finds a marker. -/
structure Carries (body name : Text) (fs : Fields) : Prop where
  own : parseMarker body name = .ok fs
  other : ∀ kind, Plain kind → kind ≠ name → parseMarker body kind = .error .noMarker

lemma carries_of_unmarked {pre} (hpre : Unmarked pre) (hname : Plain name) (hfs : Renderable fs) :
    Carries (pre ++ renderMarker name fs ++ txt "\n") name fs where
  own := parseMarker_body hpre hname hfs
  other _ hplain hne := parseMarker_body_of_ne hpre hname hplain hne hfs

omit [Library] in
/-- A header, prose, and an empty line. -/
lemma unmarked_header {header prose} (hheader : (60 : UInt8) ∉ header) (hprose : Unmarked prose) :
    Unmarked (header ++ prose ++ txt "\n\n") := by
  rw [append_assoc, show txt "\n\n" = 10 :: [10] by decide]
  exact (hprose.append_line (by decide)).append_left hheader

/-! ### Reviews -/

omit [Library] in
lemma ReviewMarker.renderable {m : ReviewMarker} (hm : m.WellFormed) : Renderable m.fields := by
  obtain ⟨hocc, hclaim, happ, hhead, hbase, hprofile⟩ := hm
  have hvalues : ∀ v ∈ m.fields.map (·.2), Plain v := by
    unfold ReviewMarker.fields
    split
    · rename_i hne
      simp [plain_itoa hocc, plain_itoa hclaim, plain_itoa happ, plain_of_isFullSHA hhead,
        plain_of_isFullSHA hbase, Verdict.plain_text,
        plain_of_validReviewerProfile (hprofile.resolve_left hne)]
    · simp [plain_itoa hocc, plain_itoa hclaim, plain_itoa happ, plain_of_isFullSHA hhead,
        plain_of_isFullSHA hbase, Verdict.plain_text]
  by_cases hne : m.reviewerProfile = []
  · refine renderable_of_keys [txt "occurrence", txt "claim", txt "approval", txt "head",
      txt "base", txt "verdict"] ?_ (by decide +kernel) (by decide) hvalues
    simp [ReviewMarker.fields, hne]
  · refine renderable_of_keys [txt "occurrence", txt "claim", txt "approval", txt "head",
      txt "base", txt "verdict", txt "profile"] ?_ (by decide +kernel) (by decide) hvalues
    simp [ReviewMarker.fields, hne]

lemma carries_reviewBody {m : ReviewMarker} (hm : m.WellFormed) (findings) :
    Carries (reviewBody m findings) markerReview m.fields := by
  refine carries_of_unmarked (unmarked_header ?_ (unmarked_reviewProse findings))
    (by decide +kernel) (ReviewMarker.renderable hm)
  have hhead := (plain_of_isFullSHA hm.2.2.2.1).not_mem
  have hverdict := m.verdict.plain_text.not_mem
  have hprofile : (60 : UInt8) ∉ (if m.reviewerProfile ≠ [] then
      txt "- reviewer profile: `" ++ m.reviewerProfile ++ txt "`\n" else []) := by
    split
    · rename_i hne
      have := (plain_of_validReviewerProfile (hm.2.2.2.2.2.resolve_left hne)).not_mem
      simp only [mem_append, this, or_false]
      decide
    · exact not_mem_nil
  simp only [mem_append, hhead, hverdict, hprofile, or_false]
  decide

/-- A review's marker is read back from the body that carries it. -/
lemma parseReviewMarker_reviewBody {m : ReviewMarker} (hm : m.WellFormed) (findings) :
    parseReviewMarker (reviewBody m findings) = .ok m := by
  have hown := (carries_reviewBody hm findings).own
  obtain ⟨hocc, hclaim, happ, hhead, hbase, hprofile⟩ := hm
  have hread : m.fields.profile = .ok m.reviewerProfile := by
    unfold Fields.profile
    by_cases hne : m.reviewerProfile = []
    · rw [show m.fields.lookup (txt "profile") = none by
        simp only [ReviewMarker.fields, hne, ne_eq, not_true_eq_false, if_false, append_nil]
        rfl, hne]
    · rw [show m.fields.lookup (txt "profile") = some m.reviewerProfile by
        simp only [ReviewMarker.fields, hne, ne_eq, not_false_eq_true, if_true]
        rfl]
      exact if_pos (hprofile.resolve_left hne)
  have hverdict : Verdict.parse ((m.fields.lookup (txt "verdict")).getD []) = some m.verdict := by
    rw [show m.fields.lookup (txt "verdict") = some m.verdict.text from rfl, Option.getD_some]
    cases m.verdict <;> decide
  unfold parseReviewMarker
  rw [hown]
  simp only [bind, Except.bind, Fields.id_itoa m.fields (txt "occurrence") rfl hocc,
    Fields.id_itoa m.fields (txt "claim") rfl hclaim,
    show (m.fields.lookup (txt "approval")).isSome = true from rfl, if_true,
    Fields.id_itoa m.fields (txt "approval") rfl happ,
    Fields.sha_of_lookup m.fields (txt "head") rfl hhead,
    Fields.sha_of_lookup m.fields (txt "base") rfl hbase, hread, hverdict]

/-! ### Routes -/

lemma carries_routeBody {m : RouteMarker} (hm : m.WellFormed) (why) :
    Carries (routeBody m why) markerRoute m.fields := by
  obtain ⟨hocc, hclaim, hhead⟩ := hm
  refine carries_of_unmarked (unmarked_header ?_ (unmarked_trimSpace_sanitizeFindings why))
    (by decide +kernel) (renderable_of_keys [txt "occurrence", txt "claim", txt "head",
      txt "outcome"] rfl (by decide +kernel) (by decide) ?_)
  · simp only [mem_append, (plain_itoa hocc).not_mem, (plain_of_isFullSHA hhead).not_mem,
      m.outcome.plain_text.not_mem, or_false]
    decide
  · simp [RouteMarker.fields, plain_itoa hocc, plain_itoa hclaim, plain_of_isFullSHA hhead,
      Outcome.plain_text]

/-- A route's marker is read back from the comment that carries it. -/
lemma parseRouteMarker_routeBody {m : RouteMarker} (hm : m.WellFormed) (why) :
    parseRouteMarker (routeBody m why) = .ok m := by
  have hown := (carries_routeBody hm why).own
  obtain ⟨hocc, hclaim, hhead⟩ := hm
  have houtcome : Outcome.parse [.revise, .humanReview, .roundCap, .noProgress]
      ((m.fields.lookup (txt "outcome")).getD []) = some m.outcome := by
    rw [show m.fields.lookup (txt "outcome") = some m.outcome.text from rfl, Option.getD_some]
    cases m.outcome <;> decide
  unfold parseRouteMarker
  rw [hown]
  simp only [bind, Except.bind, Fields.id_itoa m.fields (txt "occurrence") rfl hocc,
    Fields.id_itoa m.fields (txt "claim") rfl hclaim,
    Fields.sha_of_lookup m.fields (txt "head") rfl hhead, houtcome]

/-! ### Intents -/

lemma carries_routeIntentBody {m : RouteIntentMarker} (hm : m.WellFormed) (why) :
    Carries (routeIntentBody m why) markerRouteIntent m.fields := by
  obtain ⟨hocc, hclaim, happ, hhead, -⟩ := hm
  refine carries_of_unmarked (unmarked_header ?_ (unmarked_trimSpace_sanitizeFindings why))
    (by decide +kernel) (renderable_of_keys [txt "occurrence", txt "claim", txt "approval",
      txt "head", txt "outcome"] rfl (by decide +kernel) (by decide) ?_)
  · simp only [mem_append, (plain_itoa hocc).not_mem, (plain_itoa happ).not_mem,
      (plain_of_isFullSHA hhead).not_mem, m.outcome.plain_text.not_mem, or_false]
    decide
  · simp [RouteIntentMarker.fields, plain_itoa hocc, plain_itoa hclaim, plain_itoa happ,
      plain_of_isFullSHA hhead, Outcome.plain_text]

/-- An intent's marker is read back from the comment that carries it. -/
lemma parseRouteIntentMarker_routeIntentBody {m : RouteIntentMarker} (hm : m.WellFormed) (why) :
    parseRouteIntentMarker (routeIntentBody m why) = .ok m := by
  have hown := (carries_routeIntentBody hm why).own
  obtain ⟨hocc, hclaim, happ, hhead, hterminal⟩ := hm
  have houtcome : Outcome.parse [.humanReview, .roundCap, .noProgress]
      ((m.fields.lookup (txt "outcome")).getD []) = some m.outcome := by
    rw [show m.fields.lookup (txt "outcome") = some m.outcome.text from rfl, Option.getD_some]
    revert hterminal
    cases m.outcome <;> decide
  unfold parseRouteIntentMarker
  rw [hown]
  simp only [bind, Except.bind, Fields.id_itoa m.fields (txt "occurrence") rfl hocc,
    Fields.id_itoa m.fields (txt "claim") rfl hclaim,
    Fields.id_itoa m.fields (txt "approval") rfl happ,
    Fields.sha_of_lookup m.fields (txt "head") rfl hhead, houtcome]

/-! ### Reviews that could not be started -/

lemma carries_reviewBlockedBody {m : ReviewBlockedMarker} (hm : m.WellFormed) (detail) :
    Carries (reviewBlockedBody m detail) markerReviewBlocked m.fields := by
  obtain ⟨hocc, hclaim, happ, hhead, hreason⟩ := hm
  have hd := unmarked_trimSpace_sanitizeFindings detail
  unfold reviewBlockedBody
  generalize trimSpace (sanitizeFindings detail) = d at hd
  refine carries_of_unmarked ?_ (by decide +kernel) (renderable_of_keys [txt "occurrence",
    txt "claim", txt "approval", txt "head", txt "reason"] rfl (by decide +kernel) (by decide) ?_)
  · -- what follows the prose begins on a line of its own
    have hlast : (60 : UInt8) ∉ txt "- occurrence: `" ++ (itoa m.occurrence ++ txt "`\n\n") := by
      simp only [mem_append, (plain_itoa hocc).not_mem, false_or]
      decide
    have hdetail : Unmarked ((if d ≠ [] then txt "- detail: " ++ d ++ txt "\n" else []) ++
        (txt "- occurrence: `" ++ (itoa m.occurrence ++ txt "`\n\n"))) := by
      split
      · rw [append_assoc, append_assoc, show txt "\n" = [10] by decide]
        exact (hd.append_line hlast).append_left (by decide)
      · exact unmarked_of_not_mem hlast
    rw [append_assoc, append_assoc, append_assoc]
    refine hdetail.append_left ?_
    simp only [mem_append, (plain_of_isFullSHA hhead).not_mem,
      (plain_of_validBlockReason hreason).not_mem, or_false]
    decide
  · simp [ReviewBlockedMarker.fields, plain_itoa hocc, plain_itoa hclaim, plain_itoa happ,
      plain_of_isFullSHA hhead, plain_of_validBlockReason hreason]

/-- A blocked review's marker is read back from the comment that carries it. -/
lemma parseReviewBlockedMarker_reviewBlockedBody {m : ReviewBlockedMarker} (hm : m.WellFormed)
    (detail) : parseReviewBlockedMarker (reviewBlockedBody m detail) = .ok m := by
  have hown := (carries_reviewBlockedBody hm detail).own
  obtain ⟨hocc, hclaim, happ, hhead, hreason⟩ := hm
  unfold parseReviewBlockedMarker
  rw [hown]
  simp only [bind, Except.bind, Fields.id_itoa m.fields (txt "occurrence") rfl hocc,
    Fields.id_itoa m.fields (txt "claim") rfl hclaim,
    Fields.id_itoa m.fields (txt "approval") rfl happ,
    Fields.sha_of_lookup m.fields (txt "head") rfl hhead,
    show (m.fields.lookup (txt "reason")).getD [] = m.reason from rfl, hreason, if_true]

/-! ## Every kind -/

/-- The parser of the kind reports that the body has no marker of it. -/
def MarkerKind.ReportsNone : MarkerKind → Text → Prop
  | .review, body => parseReviewMarker body = .error .noMarker
  | .route, body => parseRouteMarker body = .error .noMarker
  | .routeIntent, body => parseRouteIntentMarker body = .error .noMarker
  | .reviewBlocked, body => parseReviewBlockedMarker body = .error .noMarker
  | .milestone, body => publishedOccurrence body = .error .noMarker

/-- A kind's parser reports no marker where there is no comment of its name. -/
lemma MarkerKind.reportsNone_of_parseMarker {kind : MarkerKind} {body}
    (h : parseMarker body kind.name = .error .noMarker) : kind.ReportsNone body := by
  cases kind with
  | review =>
    simp only [MarkerKind.name] at h
    rw [MarkerKind.ReportsNone, parseReviewMarker, h]
    rfl
  | route =>
    simp only [MarkerKind.name] at h
    rw [MarkerKind.ReportsNone, parseRouteMarker, h]
    rfl
  | routeIntent =>
    simp only [MarkerKind.name] at h
    rw [MarkerKind.ReportsNone, parseRouteIntentMarker, h]
    rfl
  | reviewBlocked =>
    simp only [MarkerKind.name] at h
    rw [MarkerKind.ReportsNone, parseReviewBlockedMarker, h]
    rfl
  | milestone =>
    simp only [MarkerKind.name] at h
    rw [MarkerKind.ReportsNone, publishedOccurrence, h]
    rfl

lemma Carries.reportsNone (own : MarkerKind) {body} {kind : MarkerKind}
    (h : Carries body own.name fs) (hne : kind ≠ own) : kind.ReportsNone body := by
  refine MarkerKind.reportsNone_of_parseMarker (h.other _ ?_ ?_)
  · cases kind <;> decide +kernel
  · revert hne
    cases kind <;> cases own <;> decide

/-- Whatever prose stands beside a marker, its own parser reads exactly the marker out of the body
and the parser of every other kind reports that there is none. -/
theorem markers_read_back : (∀ m : ReviewMarker, m.WellFormed → ∀ findings,
      parseReviewMarker (reviewBody m findings) = .ok m ∧
      ∀ kind : MarkerKind, kind ≠ .review → kind.ReportsNone (reviewBody m findings)) ∧
    (∀ m : RouteMarker, m.WellFormed → ∀ why, parseRouteMarker (routeBody m why) = .ok m ∧
      ∀ kind : MarkerKind, kind ≠ .route → kind.ReportsNone (routeBody m why)) ∧
    (∀ m : RouteIntentMarker, m.WellFormed → ∀ why,
      parseRouteIntentMarker (routeIntentBody m why) = .ok m ∧
      ∀ kind : MarkerKind, kind ≠ .routeIntent → kind.ReportsNone (routeIntentBody m why)) ∧
    (∀ m : ReviewBlockedMarker, m.WellFormed → ∀ detail,
      parseReviewBlockedMarker (reviewBlockedBody m detail) = .ok m ∧
      ∀ kind : MarkerKind, kind ≠ .reviewBlocked →
        kind.ReportsNone (reviewBlockedBody m detail)) := by
  refine ⟨fun m hm findings => ⟨parseReviewMarker_reviewBody hm findings, fun kind hne => ?_⟩,
    fun m hm why => ⟨parseRouteMarker_routeBody hm why, fun kind hne => ?_⟩,
    fun m hm why => ⟨parseRouteIntentMarker_routeIntentBody hm why, fun kind hne => ?_⟩,
    fun m hm detail => ⟨parseReviewBlockedMarker_reviewBlockedBody hm detail, fun kind hne => ?_⟩⟩
  · exact Carries.reportsNone .review (carries_reviewBody hm findings) hne
  · exact Carries.reportsNone .route (carries_routeBody hm why) hne
  · exact Carries.reportsNone .routeIntent (carries_routeIntentBody hm why) hne
  · exact Carries.reportsNone .reviewBlocked (carries_reviewBlockedBody hm detail) hne

end

namespace Sample

scoped instance library : Library := plainLibrary

/-- A commit of one repeated digit. -/
def commit (digit : UInt8) : Text := List.replicate 40 digit

/-- A route with a head in full. -/
def route : RouteMarker :=
  { occurrence := 1001, claim := 7001, head := commit 97, outcome := .humanReview }

/-- Prose that closes a comment and opens one that looks like a route. -/
def hostileProse : Text :=
  txt "--> <!-- ben:route occurrence=1001 claim=7001 head=bad outcome=revise --> <!-- ben:review "

end Sample

open Review.Sample

/-- The forged route in the prose is not read, and the real one is. -/
theorem markers_read_back_hostileProse :
    parseRouteMarker (routeBody Sample.route hostileProse) = .ok Sample.route ∧
    parseReviewMarker (routeBody Sample.route hostileProse) = .error .noMarker := by
  have hwell : Sample.route.WellFormed := ⟨by decide, by decide, by decide⟩
  obtain ⟨hown, hother⟩ := markers_read_back.2.1 Sample.route hwell hostileProse
  exact ⟨hown, hother .review (by decide)⟩

end Ben.Review
