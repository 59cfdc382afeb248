import Mathlib.Data.List.Sort
import Ben.Lib.Scrub
import Ben.Lib.JsonPrint
import Ben.Review.Text

/-!
# Redaction of transcripts

The transcript of a run is written line by line, and every write is scrubbed of the spellings of
the credentials on its way: a credential itself, its lines, its lines as the scanner hands them
out, and each of these as JSON prints it.  The writer keeps nothing between two writes, so a
credential with a line break is caught by one of its lines, and a credential none of whose lines is
long enough is refused when the configuration is loaded.

A write is one line with its line break.  A credential that is a line and a line break takes the
break along when it is replaced, and then two lines of the transcript are joined.
-/

namespace Ben.Harness

open List
open Review (Text txt)

/-- The byte that ends a line. -/
def newline : UInt8 := 0x0A

/-- What stands for a credential. -/
def redactedMarker : Text := txt "***"

/-- The shortest spelling that is replaced. -/
def minNeedle : Nat := 8

/-! ## Needles -/

/-- The line without one carriage return at its end. -/
def trimReturn (line : Text) : Text :=
  if [0x0D].isSuffixOf line then line.take (line.length - 1) else line

/-- The lines as the scanner hands them out. -/
def scannerLines (v : Text) : List Text := (Scan.split [newline] v).map trimReturn

/-- Every spelling of a value that is not encoded. -/
def rawSpellings (v : Text) : List Text :=
  if !Review.contains v [newline] then v :: scannerLines v
  else v :: (Scan.split [newline] v ++ scannerLines v)

/-- The value as JSON prints it, if that is another text. -/
def jsonEscaped (v : Text) : Text := if Json.escape v = v then [] else Json.escape v

/-- The spellings of all values, in the order they are added. -/
def spellings (values : List Text) : List Text :=
  values.flatMap fun v => (rawSpellings v).flatMap fun s => [s, jsonEscaped s]

/-- Add a spelling that is long enough and not there yet. -/
def addNeedle (out : List Text) (s : Text) : List Text :=
  if s.length < minNeedle ∨ s ∈ out then out else out ++ [s]

/-- The order of the needles: the longest first, and those of one length as texts are ordered. -/
def NeedleLe (a b : Text) : Prop := b.length < a.length ∨ (a.length = b.length ∧ a ≤ b)

instance : DecidableRel NeedleLe := fun a b =>
  inferInstanceAs (Decidable (b.length < a.length ∨ (a.length = b.length ∧ a ≤ b)))

/-- The spellings that must not reach a transcript. -/
def needles (values : List Text) : List Text :=
  ((spellings values).foldl addNeedle []).insertionSort NeedleLe

/-- The writer can keep a value out of the transcript: the value is too short to be a credential,
or one of its lines is long enough to be replaced. -/
def redactable (v : Text) : Bool :=
  decide (v.length < minNeedle) || (scannerLines v).any fun line => decide (minNeedle ≤ line.length)

/-! ## Writing -/

/-- The passes of `apply`, as far as the fuel reaches. -/
def applyFrom (values : List Text) : Nat → Text → Option Text :=
  Scan.scrubFrom (needles values) redactedMarker

/-- Replace the needles until none is left. -/
def apply (values : List Text) (s : Text) : Text := (applyFrom values (s.length + 1) s).getD s

/-- A line of the scanner: the text before a line break. -/
abbrev Line := { t : Text // newline ∉ t }

/-- The line that says where the output was cut. -/
def truncatedLine : Text :=
  txt "\x7b\"limit_bytes\":10485760,\"text\":\"a stdout line exceeded the scanner ceiling; " ++
  txt "the stream was cut here, nothing past this point was retained, and the harness claimed " ++
  txt "failed(output_overflow)\",\"type\":\"ben:truncated\"\x7d"

/-- The line that keeps the standard error. -/
def stderrLine (tail : Text) : Text :=
  txt "\x7b\"text\":\"" ++ Json.escape tail ++ txt "\",\"type\":\"ben:stderr\"\x7d"

/-- What a run gives to its transcript: the lines of its output, whether the output was cut, and the
end of its standard error. -/
structure Output where
  lines : List Line
  overflow : Bool := false
  tail : Text := []

/-- The lines that are written, in order. -/
def Output.writes (out : Output) : List Text :=
  out.lines.map Subtype.val ++ (if out.overflow then [truncatedLine] else []) ++
    (if out.tail = [] then [] else [stderrLine out.tail])

/-- What reaches the sink. -/
def transcript (values : List Text) (out : Output) : Text :=
  out.writes.flatMap fun line => apply values (line ++ [newline])

/-! ## The needles of a list of values -/

lemma mem_foldl_addNeedle {n : Text} (l out : List Text) :
    n ∈ l.foldl addNeedle out ↔ n ∈ out ∨ (minNeedle ≤ n.length ∧ n ∈ l) := by
  induction l generalizing out with
  | nil => simp
  | cons s l ih =>
    rw [foldl_cons, ih, addNeedle]
    by_cases hskip : s.length < minNeedle ∨ s ∈ out
    · rw [if_pos hskip, mem_cons]
      constructor
      · rintro (h | ⟨hlen, h⟩)
        · exact .inl h
        · exact .inr ⟨hlen, .inr h⟩
      · rintro (h | ⟨hlen, rfl | h⟩)
        · exact .inl h
        · exact .inl (hskip.resolve_left (Nat.not_lt.2 hlen))
        · exact .inr ⟨hlen, h⟩
    · rw [if_neg hskip, mem_append, mem_singleton, mem_cons]
      rw [not_or, Nat.not_lt] at hskip
      constructor
      · rintro ((h | rfl) | ⟨hlen, h⟩)
        · exact .inl h
        · exact .inr ⟨hskip.1, .inl rfl⟩
        · exact .inr ⟨hlen, .inr h⟩
      · rintro (h | ⟨hlen, rfl | h⟩)
        · exact .inl (.inl h)
        · exact .inl (.inr rfl)
        · exact .inr ⟨hlen, h⟩

lemma nodup_foldl_addNeedle (l : List Text) {out : List Text} (hout : out.Nodup) :
    (l.foldl addNeedle out).Nodup := by
  induction l generalizing out with
  | nil => exact hout
  | cons s l ih =>
    refine ih ?_
    rw [addNeedle]
    split
    · exact hout
    · next hskip =>
      rw [not_or] at hskip
      rw [nodup_append]
      refine ⟨hout, nodup_singleton s, fun a ha b hb hab => hskip.2 ?_⟩
      rw [mem_singleton] at hb
      exact hb ▸ hab ▸ ha

lemma mem_needles {values} {n : Text} :
    n ∈ needles values ↔ minNeedle ≤ n.length ∧ n ∈ spellings values := by
  rw [needles, mem_insertionSort, mem_foldl_addNeedle]
  exact or_iff_right not_mem_nil

lemma mem_spellings {values n} :
    n ∈ spellings values ↔ ∃ v ∈ values, ∃ s ∈ rawSpellings v, n = s ∨ n = jsonEscaped s := by
  simp only [spellings, mem_flatMap, mem_cons, not_mem_nil, or_false]

lemma shorter_needles (values) : Scan.Shorter redactedMarker (needles values) := by
  intro n hn
  have hlen : redactedMarker.length < minNeedle := by decide
  exact hlen.trans_le (mem_needles.1 hn).1

instance : Std.Total NeedleLe where
  total a b := by
    obtain h | h | h := Nat.lt_trichotomy a.length b.length
    · exact .inr (.inl h)
    · obtain hle | hle := List.le_total a b
      · exact .inl (.inr ⟨h, hle⟩)
      · exact .inr (.inr ⟨h.symm, hle⟩)
    · exact .inl (.inl h)

instance : IsTrans Text NeedleLe where
  trans a b c hab hbc := by
    obtain hab | ⟨hab, hle⟩ := hab
    · obtain hbc | ⟨hbc, -⟩ := hbc
      · exact .inl (hbc.trans hab)
      · exact .inl (hbc ▸ hab)
    · obtain hbc | ⟨hbc, hle'⟩ := hbc
      · exact .inl (hab ▸ hbc)
      · exact .inr ⟨hab.trans hbc, List.le_trans hle hle'⟩

instance : Std.Antisymm NeedleLe where
  antisymm a b hab hba := by
    obtain hab | ⟨hlen, hab⟩ := hab
    · obtain hba | ⟨hlen, -⟩ := hba
      · omega
      · omega
    · obtain hba | ⟨-, hba⟩ := hba
      · omega
      · exact List.le_antisymm hab hba

/-- The needles do not depend on the order of the values. -/
lemma needles_congr {values values'} (h : ∀ v, v ∈ values ↔ v ∈ values') :
    needles values = needles values' := by
  have hmem : ∀ n, n ∈ (spellings values).foldl addNeedle [] ↔
      n ∈ (spellings values').foldl addNeedle [] := by
    intro n
    rw [mem_foldl_addNeedle, mem_foldl_addNeedle, mem_spellings, mem_spellings]
    simp only [h]
  have hperm := (perm_ext_iff_of_nodup (nodup_foldl_addNeedle _ nodup_nil)
    (nodup_foldl_addNeedle _ nodup_nil)).2 hmem
  refine List.Perm.eq_of_pairwise' (r := NeedleLe) (pairwise_insertionSort NeedleLe _)
    (pairwise_insertionSort NeedleLe _) ?_
  exact ((perm_insertionSort NeedleLe _).trans hperm).trans
    (perm_insertionSort NeedleLe _).symm

/-! ## The passes -/

/-- The passes come to an end, and more fuel makes no difference. -/
lemma applyFrom_eq (values) (s : Text) {fuel : Nat} (hfuel : s.length < fuel) :
    applyFrom values fuel s = some (apply values s) := by
  obtain ⟨r, hr⟩ := Scan.exists_scrubFrom (l := s) (shorter_needles values) (Nat.lt_succ_self _)
  have happly : apply values s = r := by
    rw [apply, applyFrom, hr]
    rfl
  rw [happly]
  exact Scan.scrubFrom_mono hfuel hr

/-- No needle is left. -/
lemma not_infix_apply {values n} (hn : n ∈ needles values) (s) : ¬ n <:+: apply values s :=
  Scan.clean_of_scrubFrom (shorter_needles values)
    (applyFrom_eq values s (Nat.lt_succ_self _)) n hn

lemma apply_of_clean {values s} (h : ∀ n ∈ needles values, ¬ n <:+: s) : apply values s = s := by
  have hone : applyFrom values (s.length + 1) s = some s := by
    rw [applyFrom, Scan.scrubFrom, if_pos (Scan.scrubOnce_of_clean h)]
  rw [apply, hone]
  rfl

lemma apply_apply (values s) : apply values (apply values s) = apply values s :=
  apply_of_clean fun _ hn => not_infix_apply hn s

/-- A needle alone becomes the mark. -/
lemma apply_needle {values n} (hn : n ∈ needles values) : apply values n = redactedMarker := by
  have hsorted : (needles values).Pairwise fun a b => b.length ≤ a.length :=
    (pairwise_insertionSort NeedleLe _).imp fun h => h.elim Nat.le_of_lt fun h => h.1.ge
  have hshort := shorter_needles values
  have honce := Scan.scrubOnce_self hshort hsorted hn
  have hmark : Scan.scrubOnce (needles values) redactedMarker redactedMarker = redactedMarker :=
    Scan.scrubOnce_of_clean fun m hm hin => absurd hin.length_le (Nat.not_le.2 (hshort m hm))
  have htwo : applyFrom values 2 n = some redactedMarker := by
    have hne : redactedMarker ≠ n := fun heq => absurd (hshort n hn) (heq ▸ Nat.lt_irrefl _)
    rw [applyFrom, Scan.scrubFrom, honce, if_neg hne, Scan.scrubFrom, if_pos hmark]
  have hfuel : 2 ≤ n.length + 1 :=
    Nat.succ_le_succ ((by decide : 1 ≤ minNeedle).trans (mem_needles.1 hn).1)
  rw [apply, applyFrom, Scan.scrubFrom_mono hfuel htwo]
  rfl

/-! ## Spellings and lines -/

lemma trimReturn_isInfix (line) : trimReturn line <:+: line := by
  rw [trimReturn]
  split
  · exact IsPrefix.isInfix <| take_prefix _ _
  · exact infix_rfl

/-- A line of the scanner has no line break and stands in the value. -/
lemma of_mem_scannerLines {v p} (h : p ∈ scannerLines v) : newline ∉ p ∧ p <:+: v := by
  obtain ⟨line, hline, rfl⟩ := mem_map.1 h
  have hfree := Scan.not_mem_of_mem_splitFrom not_mem_nil hline
  exact ⟨fun hmem => hfree ((trimReturn_isInfix line).subset hmem),
    (trimReturn_isInfix line).trans (Scan.infix_of_mem_splitFrom hline)⟩

lemma mem_rawSpellings_of_mem_scannerLines {v p} (h : p ∈ scannerLines v) : p ∈ rawSpellings v := by
  rw [rawSpellings]
  split
  · exact .tail v h
  · exact .tail v (mem_append_right _ h)

lemma self_mem_rawSpellings (v) : v ∈ rawSpellings v := by
  rw [rawSpellings]
  split
  · exact .head _
  · exact .head _

/-- A needle with a line break is a value itself. -/
lemma mem_of_mem_needles {values n} (h : n ∈ needles values) (hbreak : newline ∈ n) :
    n ∈ values := by
  obtain ⟨v, hv, s, hs, hn⟩ := mem_spellings.1 (mem_needles.1 h).2
  obtain rfl | rfl := hn
  · have hlines : n ∈ v :: (Scan.split [newline] v ++ scannerLines v) := by
      rw [rawSpellings] at hs
      split at hs
      · obtain rfl | hs := mem_cons.1 hs
        · exact .head _
        · exact .tail v (mem_append_right _ hs)
      · exact hs
    obtain rfl | hlines := mem_cons.1 hlines
    · exact hv
    · obtain hs | hs := mem_append.1 hlines
      · exact absurd hbreak (Scan.not_mem_of_mem_splitFrom not_mem_nil hs)
      · exact absurd hbreak (of_mem_scannerLines hs).1
  · rw [jsonEscaped] at hbreak
    split at hbreak
    · cases hbreak
    · exact absurd hbreak (Json.newline_not_mem_escape s)

/-- A credential that is one line and its line break. -/
def LineWithBreak (v : Text) : Prop :=
  minNeedle ≤ v.length ∧ v.getLast? = some newline ∧ newline ∉ v.dropLast

instance (v : Text) : Decidable (LineWithBreak v) := inferInstanceAs (Decidable (_ ∧ _ ∧ _))

lemma eq_of_append_cons_eq_concat {x y l} (hl : newline ∉ l)
    (h : x ++ newline :: y = l ++ [newline]) : x = l ∧ y = [] := by
  obtain ⟨a, ha, hy⟩ | ⟨a, ha, hy⟩ := append_eq_append_iff.1 h
  · cases a with
    | nil =>
      rw [append_nil] at ha
      exact ⟨ha.symm, (List.cons.inj hy).2⟩
    | cons b a =>
      refine absurd ?_ hl
      rw [ha, (List.cons.inj hy).1]
      exact mem_append_right _ (.head _)
  · cases a with
    | nil =>
      rw [append_nil] at ha
      exact ⟨ha, (List.cons.inj hy).2.symm⟩
    | cons b a =>
      have hlen := congrArg List.length hy
      simp only [length_append, length_cons, length_nil] at hlen
      omega

/-- What has a line break and stands in one line with its break ends with the break. -/
lemma lineWithBreak_of_occurs {n l : Text} (hlen : minNeedle ≤ n.length) (hn : newline ∈ n)
    (hl : newline ∉ l) (h : n <:+: l ++ [newline]) : LineWithBreak n := by
  obtain ⟨a, b, hab⟩ := h
  obtain ⟨p, q, rfl⟩ := append_of_mem hn
  have hsplit : (a ++ p) ++ newline :: (q ++ b) = l ++ [newline] := by
    rw [← hab]
    simp only [append_assoc, cons_append]
  obtain ⟨hap, hqb⟩ := eq_of_append_cons_eq_concat hl hsplit
  obtain ⟨rfl, -⟩ := append_eq_nil_iff.1 hqb
  refine ⟨hlen, getLast?_concat, fun hmem => hl ?_⟩
  rw [dropLast_concat] at hmem
  rw [← hap]
  exact mem_append_right a hmem

/-- A write keeps its line break, and brings in no other, if no credential is a line and a break. -/
lemma exists_apply_line {values} (hbreak : ∀ v ∈ values, ¬ LineWithBreak v) {line}
    (hline : newline ∉ line) :
    ∃ r, apply values (line ++ [newline]) = r ++ [newline] ∧ newline ∉ r := by
  have hpass : ∀ s, (∃ r, s = r ++ [newline] ∧ newline ∉ r) →
      ∃ r, Scan.scrubOnce (needles values) redactedMarker s = r ++ [newline] ∧ newline ∉ r := by
    rintro s ⟨r, rfl, hr⟩
    refine Scan.scrubOnce_concat ?_ (by decide) ?_ hr
    · intro hnil
      exact absurd (mem_needles.1 hnil).1 (by decide)
    · intro n hn hmem l hl hocc
      exact hbreak n (mem_of_mem_needles hn hmem)
        (lineWithBreak_of_occurs (mem_needles.1 hn).1 hmem hl hocc)
  exact Scan.scrubFrom_invariant hpass ⟨line, rfl, hline⟩
    (applyFrom_eq values (line ++ [newline]) (Nat.lt_succ_self _))

/-- Every write is one line. -/
lemma newline_not_mem_writes {out : Output} {line} (h : line ∈ out.writes) : newline ∉ line := by
  rw [Output.writes, mem_append, mem_append] at h
  obtain (h | h) | h := h
  · obtain ⟨l, -, rfl⟩ := mem_map.1 h
    exact l.2
  · split at h
    · rw [mem_singleton.1 h]
      decide
    · cases h
  · split at h
    · cases h
    · rw [mem_singleton.1 h, stderrLine, mem_append, mem_append, not_or, not_or]
      exact ⟨⟨by decide, Json.newline_not_mem_escape _⟩, by decide⟩

/-- A write ends with its line break, or with a mark if some credential is a line and a break. -/
lemma apply_line_ends {values line} (hline : newline ∉ line) :
    [newline] <:+ apply values (line ++ [newline]) ∨
      ((∃ v ∈ values, LineWithBreak v) ∧ redactedMarker <:+ apply values (line ++ [newline])) := by
  by_cases hbreak : ∃ v ∈ values, LineWithBreak v
  · have hpass := Scan.scrubFrom_invariant (P := fun s => [newline] <:+ s ∨ redactedMarker <:+ s)
      (fun l hl => Scan.scrubOnce_ends (m := 3) hl) (.inl (suffix_append line _))
      (applyFrom_eq values (line ++ [newline]) (Nat.lt_succ_self _))
    exact hpass.imp_right fun hmark => ⟨hbreak, hmark⟩
  · have hnone : ∀ v ∈ values, ¬ LineWithBreak v := fun v hv hv' => hbreak ⟨v, hv, hv'⟩
    obtain ⟨r, hr, -⟩ := exists_apply_line hnone hline
    rw [hr]
    exact .inl (suffix_append r _)

/-- A needle without a line break stands in a transcript only across the end of a mark that has
taken a line break. -/
lemma cut_of_transcript {values out n} {front rest : Text} (hn : n ∈ needles values)
    (hfree : newline ∉ n) (h : transcript values out = front ++ (n ++ rest)) :
    (∃ v ∈ values, LineWithBreak v) ∧
      ∃ x y, n = x ++ y ∧ x ≠ [] ∧ y ≠ [] ∧ redactedMarker <:+ front ++ x := by
  have hne : n ≠ [] := by
    rintro rfl
    exact absurd (mem_needles.1 hn).1 (by decide)
  rw [transcript, flatMap_def] at h
  refine Scan.exists_cut hfree hne (fun s hs => ?_) (fun s hs => ?_) h
  · obtain ⟨line, hline, rfl⟩ := mem_map.1 hs
    exact apply_line_ends (newline_not_mem_writes hline)
  · obtain ⟨line, -, rfl⟩ := mem_map.1 hs
    exact not_infix_apply hn _

/-! ## What continues a mark -/

/-- A mark may end where a text ends. -/
def Cut (x : Text) : Prop := x <:+ redactedMarker ∨ redactedMarker <:+ x

/-- A needle of one line stands in a text where no mark can end inside of it. -/
def Sheltered (values : List Text) (t : Text) : Prop :=
  ∃ a n b, t = a ++ n ++ b ∧ n ∈ needles values ∧ newline ∉ n ∧
    ∀ x y, n = x ++ y → x ≠ [] → y ≠ [] → ¬ Cut (a ++ x)

/-- No line break can go with a credential, or none of the credentials continues the mark that is
left of it. -/
def Guarded (values : List Text) : Prop :=
  (∀ v ∈ values, ¬ LineWithBreak v) ∨
    ∀ v ∈ values, minNeedle ≤ v.length → Sheltered values v ∧ Sheltered values (Json.escape v)

/-- No credential is in the transcript, neither as it is nor as JSON prints it. -/
def Hidden (values : List Text) (out : Output) : Prop :=
  ∀ v ∈ values, minNeedle ≤ v.length →
    ¬ v <:+: transcript values out ∧ ¬ Json.escape v <:+: transcript values out

lemma Sheltered.not_infix {values t} (h : Sheltered values t) (out) :
    ¬ t <:+: transcript values out := by
  rintro ⟨front, rest, hocc⟩
  obtain ⟨a, n, b, rfl, hn, hfree, hcut⟩ := h
  have hfront : transcript values out = front ++ a ++ (n ++ (b ++ rest)) := by
    rw [← hocc]
    simp only [append_assoc]
  obtain ⟨-, x, y, hxy, hx, hy, hmark⟩ := cut_of_transcript hn hfree hfront
  rw [append_assoc] at hmark
  exact hcut x y hxy hx hy (suffix_or_suffix_of_suffix (suffix_append front _) hmark)

/-- A credential the check accepts has a long line that is a needle. -/
lemma exists_needle {values v} (hv : v ∈ values) (hred : redactable v = true)
    (hlen : minNeedle ≤ v.length) : ∃ n ∈ needles values, newline ∉ n ∧ n <:+: v := by
  rw [redactable, decide_eq_false (Nat.not_lt.2 hlen), Bool.false_or, any_eq_true] at hred
  obtain ⟨n, hn, hnlen⟩ := hred
  refine ⟨n, mem_needles.2 ⟨of_decide_eq_true hnlen, ?_⟩, of_mem_scannerLines hn⟩
  exact mem_spellings.2 ⟨v, hv, n, mem_rawSpellings_of_mem_scannerLines hn, .inl rfl⟩

lemma mem_needles_of_mem {values v} (hv : v ∈ values) (hlen : minNeedle ≤ v.length) :
    v ∈ needles values :=
  mem_needles.2 ⟨hlen, mem_spellings.2 ⟨v, hv, v, self_mem_rawSpellings v, .inl rfl⟩⟩

lemma Guarded.hidden {values} (h : Guarded values) (hcheck : ∀ v ∈ values, redactable v = true)
    (out) : Hidden values out := by
  intro v hv hlen
  obtain hbreak | hsheltered := h
  · -- no write loses its line break, so a needle of one line is nowhere
    have hnone : ∀ n ∈ needles values, newline ∉ n → ¬ n <:+: transcript values out := by
      rintro n hn hfree ⟨front, rest, hocc⟩
      rw [append_assoc] at hocc
      obtain ⟨⟨w, hw, hline⟩, -⟩ := cut_of_transcript hn hfree hocc.symm
      exact hbreak w hw hline
    have hraw : ¬ v <:+: transcript values out := by
      obtain ⟨n, hn, hfree, hin⟩ := exists_needle hv (hcheck v hv) hlen
      exact fun hocc => hnone n hn hfree (hin.trans hocc)
    refine ⟨hraw, ?_⟩
    by_cases hsame : Json.escape v = v
    · rw [hsame]
      exact hraw
    · have hneedle : Json.escape v ∈ needles values := by
        refine mem_needles.2 ⟨hlen.trans (Json.length_le_escape v), ?_⟩
        refine mem_spellings.2 ⟨v, hv, v, self_mem_rawSpellings v, .inr ?_⟩
        rw [jsonEscaped, if_neg hsame]
      exact hnone _ hneedle (Json.newline_not_mem_escape v)
  · obtain ⟨hv, hescape⟩ := hsheltered v hv hlen
    exact ⟨hv.not_infix out, hescape.not_infix out⟩

/-! ## Credentials of one line -/

/-- The byte a mark is made of. -/
def star : UInt8 := 0x2A

lemma redactedMarker_eq : redactedMarker = replicate 3 star := by decide

/-- Some stars, then a line of bytes that JSON prints as they are and that has no mark, then a line
break or not. -/
def OneLine (v : Text) : Prop :=
  ∃ stars y tail, v = replicate stars star ++ y ++ tail ∧ (tail = [] ∨ tail = [newline]) ∧
    (∀ b ∈ y, Json.Plain b) ∧ y.head? ≠ some star ∧ ¬ redactedMarker <:+: y

/-- After the first stars no mark ends. -/
lemma not_cut {stars : Nat} {y x : Text} (hhead : y.head? ≠ some star)
    (hmark : ¬ redactedMarker <:+: y) (hx : x <+: y) (hne : x ≠ []) :
    ¬ Cut (replicate stars star ++ x) := by
  have hfirst : ¬ x <:+ redactedMarker := by
    intro hsuffix
    rw [redactedMarker_eq] at hsuffix
    obtain ⟨k, -, rfl⟩ := sublist_replicate_iff.1 hsuffix.sublist
    cases k with
    | zero => exact hne rfl
    | succ k =>
      obtain ⟨t, rfl⟩ := hx
      exact hhead rfl
  rintro (hcut | hcut)
  · exact hfirst ((suffix_append _ x).trans hcut)
  · obtain h | h := suffix_or_suffix_of_suffix hcut (suffix_append _ x)
    · exact hmark (h.isInfix.trans hx.isInfix)
    · exact hfirst h

/-- What is after the first stars of a text is clean, unless a needle there shelters it. -/
lemma clean_of_not_sheltered {values} {stars : Nat} {y tail : Text} (hplain : ∀ b ∈ y, Json.Plain b)
    (hhead : y.head? ≠ some star) (hmark : ¬ redactedMarker <:+: y)
    (h : ¬ Sheltered values (replicate stars star ++ y ++ tail)) :
    ∀ n ∈ needles values, ¬ n <:+: y := by
  rintro n hn ⟨a, b, rfl⟩
  refine h ⟨replicate stars star ++ a, n, b ++ tail, by simp only [append_assoc], hn, ?_, ?_⟩
  · intro hbreak
    exact absurd (hplain newline (by simp [hbreak])) (by decide)
  · rintro x y rfl hx -
    rw [append_assoc]
    refine not_cut hhead hmark ?_ (by simp [hx])
    exact ⟨y ++ b, by simp only [append_assoc]⟩

/-- Where a credential is a line and a break, stars and a clean line after them can be written. -/
lemma exists_infix_transcript {values v stars} {y tail : Text} (hv : v ∈ values)
    (hline : LineWithBreak v) (htail : tail = [] ∨ tail = [newline]) (hfree : newline ∉ y)
    (hclean : ∀ n ∈ needles values, ¬ n <:+: y ++ [newline]) :
    ∃ out, replicate stars star ++ y ++ tail <:+: transcript values out := by
  obtain ⟨hlen, hlast, hdrop⟩ := hline
  refine ⟨{ lines := replicate stars ⟨v.dropLast, hdrop⟩ ++ [⟨y, hfree⟩] }, ?_⟩
  have hbroken : v.dropLast ++ [newline] = v := dropLast_append_getLast? newline hlast
  have hjoined : transcript values
        { lines := replicate stars ⟨v.dropLast, hdrop⟩ ++ [⟨y, hfree⟩] } =
      replicate (stars * 3) star ++ (y ++ [newline]) := by
    simp only [transcript, Output.writes, map_append, map_replicate, map_cons, map_nil, append_nil,
      flatMap_append, flatMap_replicate, hbroken, apply_needle (mem_needles_of_mem hv hlen),
      flatMap_cons, flatMap_nil, apply_of_clean hclean, Bool.false_eq_true, if_false, if_true,
      redactedMarker_eq, flatten_replicate_replicate]
  rw [hjoined, Nat.mul_succ, ← replicate_append_replicate]
  obtain rfl | rfl := htail
  · exact ⟨replicate (stars * 2) star, [newline], by simp only [append_assoc, append_nil]⟩
  · exact ⟨replicate (stars * 2) star, [], by simp only [append_assoc, append_nil]⟩

/-- If the credentials are of one line, a list that is not guarded has a transcript with one. -/
lemma guarded_of_hidden {values} (hcheck : ∀ v ∈ values, redactable v = true)
    (hone : ∀ v ∈ values, minNeedle ≤ v.length → OneLine v) (h : ∀ out, Hidden values out) :
    Guarded values := by
  by_contra hguarded
  rw [Guarded, not_or] at hguarded
  push Not at hguarded
  obtain ⟨⟨w, hw, hline⟩, v, hv, hlen, hopen⟩ := hguarded
  obtain ⟨stars, y, tail, rfl, htail, hplain, hhead, hmark⟩ := hone v hv hlen
  have hescape : Json.escape (replicate stars star ++ y ++ tail) =
      replicate stars star ++ y ++ Json.escape tail := by
    refine Json.escape_append_of_plain (forall_mem_append.2 ⟨fun b hb => ?_, hplain⟩) tail
    rw [eq_of_mem_replicate hb]
    decide
  have hclean : ∀ n ∈ needles values, ¬ n <:+: y := by
    by_cases hself : Sheltered values (replicate stars star ++ y ++ tail)
    · have hprinted := hopen hself
      rw [hescape] at hprinted
      exact clean_of_not_sheltered hplain hhead hmark hprinted
    · exact clean_of_not_sheltered hplain hhead hmark hself
  have hfree : newline ∉ y := fun hmem => absurd (hplain newline hmem) (by decide)
  have hnone : ∀ n ∈ needles values, newline ∉ n → ¬ n <:+: y ++ [newline] := by
    intro n hn hbreak hin
    obtain hin | hin := Scan.infix_or_of_infix_append_cons hbreak hin
    · exact hclean n hn hin
    · exact absurd (mem_needles.1 hn).1 (by rw [infix_nil.1 hin]; decide)
  -- a needle with the break has a line that is a needle, and that stands before the break
  have hbroken : ∀ n ∈ needles values, ¬ n <:+: y ++ [newline] := by
    intro n hn hin
    by_cases hbreak : newline ∈ n
    · have hvalue := mem_of_mem_needles hn hbreak
      obtain ⟨m, hm, hmfree, hmn⟩ := exists_needle hvalue (hcheck n hvalue) (mem_needles.1 hn).1
      exact hnone m hm hmfree (hmn.trans hin)
    · exact hnone n hn hbreak hin
  obtain ⟨out, hout⟩ := exists_infix_transcript hw hline htail hfree hbroken
  exact (h out _ hv hlen).1 hout

/-! ## The transcript -/

/-- **A transcript has none of the credentials.**  If the check accepts every value, the credentials
are hidden in every transcript as long as no line break can go with one of them or none of them
continues a mark, and for credentials of one line only then.  The passes of `apply` come to an end,
repeating them changes nothing, and their result depends on the set of the values only. -/
theorem transcript_hides_credentials (values : List Text)
    (hcheck : ∀ v ∈ values, redactable v = true) :
    (Guarded values → ∀ out, Hidden values out) ∧
    ((∀ v ∈ values, minNeedle ≤ v.length → OneLine v) →
      ((∀ out, Hidden values out) ↔ Guarded values)) ∧
    (∀ s fuel, s.length < fuel → applyFrom values fuel s = some (apply values s)) ∧
    (∀ s, apply values (apply values s) = apply values s) ∧
    ∀ values', values'.Perm values → ∀ s, apply values' s = apply values s := by
  refine ⟨fun h out => h.hidden hcheck out, ?_, fun s fuel => applyFrom_eq values s,
    apply_apply values, ?_⟩
  · exact fun hone => ⟨guarded_of_hidden hcheck hone, fun h out => h.hidden hcheck out⟩
  · intro values' hperm s
    have hsame : needles values' = needles values := needles_congr fun v => hperm.mem_iff
    rw [apply, apply, applyFrom, applyFrom, hsame]

namespace Sample

/-- Two tokens. -/
def tokens : List Text := [txt "abcdefgh", txt "***12345"]

/-- The same with a line break after the first. -/
def brokenTokens : List Text := [txt "abcdefgh\n", txt "***12345"]

/-- Two lines of output. -/
def twoLines : Output where
  lines := [⟨txt "abcdefgh", by decide⟩, ⟨txt "12345", by decide⟩]

end Sample

/-- Both tokens are kept out of the transcript of two lines, and the broken one alone out of every
transcript. -/
theorem transcript_hides_tokens : transcript Sample.tokens Sample.twoLines = txt "***\n12345\n" ∧
    Hidden Sample.tokens Sample.twoLines ∧ ∀ out, Hidden [txt "abcdefgh\n"] out := by
  refine ⟨by decide, (transcript_hides_credentials Sample.tokens (by decide)).1
    (.inl (by decide)) Sample.twoLines, ?_⟩
  have hsheltered : ∀ b, Sheltered [txt "abcdefgh\n"] (txt "abcdefgh" ++ b) := by
    refine fun b => ⟨[], txt "abcdefgh", b, rfl, by decide, by decide, ?_⟩
    intro x y hxy hx _ hcut
    have hstarless : star ∉ x := fun hmem =>
      absurd (hxy ▸ mem_append_left y hmem : star ∈ txt "abcdefgh") (by decide)
    obtain hcut | hcut := hcut
    · rw [redactedMarker_eq] at hcut
      cases x with
      | nil => exact hx rfl
      | cons c x => exact hstarless (eq_of_mem_replicate (hcut.subset (.head _)) ▸ .head _)
    · exact hstarless (hcut.subset (.head _))
  refine (transcript_hides_credentials [txt "abcdefgh\n"] (by decide)).1 (.inr ?_)
  rintro v hv -
  rw [mem_singleton.1 hv]
  exact ⟨hsheltered (txt "\n"), hsheltered (txt "\\n")⟩

/-- With a line break after the first token, its line goes with the break, the mark stands before
the next line, and the two spell the second token. -/
theorem joined_lines_spell_credential :
    (∀ v ∈ Sample.brokenTokens, redactable v = true) ∧ txt "***12345" ∈ Sample.brokenTokens ∧
    minNeedle ≤ (txt "***12345").length ∧
    transcript Sample.brokenTokens Sample.twoLines = txt "***12345\n" ∧
    txt "***12345" <:+: transcript Sample.brokenTokens Sample.twoLines := by
  have hjoined : transcript Sample.brokenTokens Sample.twoLines = txt "***12345\n" := by
    decide
  refine ⟨by decide, by decide, by decide, hjoined, ?_⟩
  rw [hjoined]
  exact ⟨[], txt "\n", by decide⟩

end Ben.Harness
