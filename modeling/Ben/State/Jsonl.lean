import Ben.Review.Text

/-!
# Append-only logs

The logs of the state directory share one machinery.  A record is one line.  An append writes the
line and syncs it; when either fails, it cuts the file back to where it stood, and when that fails
too, the handle refuses everything from then on.  Opening a log first cuts off a fragment that a
crash left at its end, which it looks for in the last `maxRecordBytes` bytes.  The reader drops
such a fragment and refuses a longer line.

The file is its bytes.  What the file system does in an append is told by its fate: how many bytes
are written, whether the sync succeeds and whether the cut does.  A crash may come at any moment and
leave any prefix of the line that was being written.
-/

namespace Ben.State

open List
open Review (Text txt trimSpace)

/-- The byte that ends a record. -/
def newline : UInt8 := 0x0A

/-- The longest line, with its end. -/
def maxRecordBytes : Nat := 65536

/-- How records are encoded: in one line, which is not blank and is read back. -/
structure Codec (T : Type) where
  encode : T → Text
  decode : Text → Option T
  newline_not_mem : ∀ r, newline ∉ encode r
  not_blank : ∀ r, (trimSpace (encode r ++ [newline])).isEmpty = false
  decode_encode : ∀ r, decode (encode r ++ [newline]) = some r

variable {T : Type} (c : Codec T)

/-- The line of a record. -/
def Codec.line (r : T) : Text := c.encode r ++ [newline]

/-! ## Reading -/

/-- Why a read stops before the end, with the number of the line. -/
inductive ReadError where
  | tooLong (line : Nat)
  | notRecord (line : Nat)
  deriving DecidableEq, Repr

/-- Read on, in a line of which a part has been read: the records visited, and why it stopped. -/
def walkFrom : Nat → Text → Text → List T × Option ReadError
  | _, _, [] => ([], none)
  | n, part, b :: rest =>
    if b = newline then
      if (trimSpace (part ++ [b])).isEmpty then walkFrom (n + 1) [] rest
      else
        match c.decode (part ++ [b]) with
        | none => ([], some (.notRecord n))
        | some r => (r :: (walkFrom (n + 1) [] rest).1, (walkFrom (n + 1) [] rest).2)
    else if maxRecordBytes ≤ part.length + 1 then ([], some (.tooLong n))
    else walkFrom n (part ++ [b]) rest

/-- Visit every complete record of a log. -/
def walkLog (disk : Text) : List T × Option ReadError := walkFrom c 1 [] disk

/-! ## Opening -/

/-- Cut a file to a length, or fill it up. -/
def truncate (disk : Text) (n : Nat) : Text := disk.take n ++ List.replicate (n - disk.length) 0

/-- Where a byte occurs last. -/
def lastIndexByte (b : UInt8) : Text → Option Nat
  | [] => none
  | a :: l =>
    match lastIndexByte b l with
    | some i => some (i + 1)
    | none => if a = b then some 0 else none

/-- Why a log is not opened. -/
inductive OpenError where
  | noBoundary
  | truncateFailed
  | syncFailed
  deriving DecidableEq, Repr

/-- Cut the file and sync it; how many bytes were dropped. -/
def repairTo (truncates syncs : Bool) (disk : Text) (keep : Nat) : Text × Except OpenError Nat :=
  if !truncates then (disk, .error .truncateFailed)
  else if !syncs then (truncate disk keep, .error .syncFailed)
  else (truncate disk keep, .ok (disk.length - keep))

/-- Cut off an incomplete record at the end of the file. -/
def repairTail (truncates syncs : Bool) (disk : Text) : Text × Except OpenError Nat :=
  if disk.length = 0 then (disk, .ok 0)
  else
    let window := min maxRecordBytes disk.length
    let buf := disk.drop (disk.length - window)
    if buf.getLast? = some newline then (disk, .ok 0)
    else
      match lastIndexByte newline buf with
      | some i => repairTo truncates syncs disk (disk.length - window + i + 1)
      | none =>
        if window = disk.length then repairTo truncates syncs disk 0 else (disk, .error .noBoundary)

/-! ## Appending -/

/-- An open log. -/
structure AppendLog where
  offset : Nat
  broken : Bool := false
  deriving DecidableEq, Repr

/-- What the file system does in an append. -/
structure Fate where
  written : Nat
  syncs : Bool
  truncates : Bool
  deriving DecidableEq, Repr

/-- How an append ends. -/
inductive Outcome where
  | ok
  | tooLong
  | closed
  | failed
  | unwritable
  | crashed
  deriving DecidableEq, Repr

/-- Undo a partial append. -/
def rollback (w : AppendLog) (disk : Text) (before : Nat) (truncates : Bool) :
    AppendLog × Text × Outcome :=
  if truncates then ({ w with offset := before }, truncate disk before, .failed)
  else ({ w with broken := true }, disk, .unwritable)

/-- Write a line at the end of the file and sync it, or undo it. -/
def writeLine (w : AppendLog) (disk line : Text) (fate : Fate) : AppendLog × Text × Outcome :=
  let n := min fate.written line.length
  if n = line.length ∧ fate.syncs = true then
    ({ w with offset := w.offset + n }, disk ++ line.take n, .ok)
  else rollback { w with offset := w.offset + n } (disk ++ line.take n) w.offset fate.truncates

/-- A log: the file, and the handle of the process that has it open. -/
structure Log where
  disk : Text := []
  handle : Option AppendLog := none

/-- The handle an append of a line would write through. -/
def Log.writer (l : Log) (line : Text) : Except Outcome AppendLog :=
  if maxRecordBytes < line.length then .error .tooLong
  else
    match l.handle with
    | none => .error .closed
    | some w => if w.broken then .error .unwritable else .ok w

/-- Append one record. -/
def Log.append (l : Log) (line : Text) (fate : Fate) : Log × Outcome :=
  match l.writer line with
  | .error o => (l, o)
  | .ok w =>
    let r := writeLine w l.disk line fate
    ({ disk := r.2.1, handle := some r.1 }, r.2.2)

/-- Append one record and die with some bytes of it written. -/
def Log.crashIn (l : Log) (line : Text) (n : Nat) : Log :=
  match l.writer line with
  | .error _ => { l with handle := none }
  | .ok _ => { disk := l.disk ++ line.take n, handle := none }

/-- Open the log, after the repair. -/
def Log.open_ (l : Log) (truncates syncs : Bool) : Log :=
  match repairTail truncates syncs l.disk with
  | (disk, .ok _) => { disk, handle := some { offset := disk.length } }
  | (disk, .error _) => { disk, handle := none }

/-! ## Runs -/

/-- What happens to a log. -/
inductive Event (T : Type) where
  | append (r : T) (fate : Fate)
  | crashIn (r : T) (n : Nat)
  | crash
  | close
  | open_ (truncates syncs : Bool)

/-- The log after an event, and the append that ended in it. -/
def Log.step (l : Log) : Event T → Log × List (T × Outcome)
  | .append r fate => ((l.append (c.line r) fate).1, [(r, (l.append (c.line r) fate).2)])
  | .crashIn r n => (l.crashIn (c.line r) n, [(r, .crashed)])
  | .crash => ({ l with handle := none }, [])
  | .close => ({ l with handle := none }, [])
  | .open_ truncates syncs => (l.open_ truncates syncs, [])

/-- The log after a run. -/
def Log.run (l : Log) : List (Event T) → Log
  | [] => l
  | e :: events => (l.step c e).1.run events

/-- The appends of a run, with how each ended. -/
def Log.attempts (l : Log) : List (Event T) → List (T × Outcome)
  | [] => []
  | e :: events => (l.step c e).2 ++ (l.step c e).1.attempts events

/-- Which records may be in the file: each that was appended is, none whose append ended with an
ordinary error is, and of the others the file tells nothing. -/
inductive Keeps : List (T × Outcome) → List T → Prop
  | nil : Keeps [] []
  | keep {r : T} {o : Outcome} {es : List (T × Outcome)} {rs : List T}
    (ho : o = .ok ∨ o = .unwritable ∨ o = .crashed) (h : Keeps es rs) :
    Keeps ((r, o) :: es) (r :: rs)
  | drop {r : T} {o : Outcome} {es : List (T × Outcome)} {rs : List T} (ho : o ≠ .ok)
    (h : Keeps es rs) : Keeps ((r, o) :: es) rs

lemma Keeps.append {es es' : List (T × Outcome)} {rs rs'} (h : Keeps es rs) (h' : Keeps es' rs') :
    Keeps (es ++ es') (rs ++ rs') := by
  induction h with
  | nil => exact h'
  | keep ho _ ih => exact .keep ho ih
  | drop ho _ ih => exact .drop ho ih

/-! ## The lines of a file -/

/-- The bytes of some records. -/
def Codec.bytes (rs : List T) : Text := rs.flatMap c.line

/-- The file holds whole records and a fragment that is shorter than a line; a handle that writes
stands at its end, where there is no fragment. -/
structure Holds (l : Log) (rs : List T) (frag : Text) : Prop where
  disk : l.disk = c.bytes rs ++ frag
  short : ∀ r ∈ rs, (c.line r).length ≤ maxRecordBytes
  free : newline ∉ frag
  fragment : frag.length < maxRecordBytes
  atEnd : ∀ w, l.handle = some w → w.broken = false → frag = [] ∧ w.offset = l.disk.length

variable {c} {l : Log} {rs : List T} {frag : Text}

lemma length_line (r) : (c.line r).length = (c.encode r).length + 1 := by
  rw [Codec.line, length_append, length_singleton]

lemma bytes_concat (rs r) : c.bytes (rs ++ [r]) = c.bytes rs ++ c.line r := by
  rw [Codec.bytes, flatMap_append, flatMap_singleton]
  rfl

/-- Whole records end with the end of a line. -/
lemma bytes_eq (rs) : c.bytes rs = [] ∨ ∃ x, c.bytes rs = x ++ [newline] := by
  obtain rfl | ⟨rs, r, rfl⟩ := eq_nil_or_concat rs
  · exact .inl rfl
  · refine .inr ⟨c.bytes rs ++ c.encode r, ?_⟩
    rw [concat_eq_append, bytes_concat, Codec.line, append_assoc]

/-! ## Reading them -/

/-- A part of a line is read on to the end of the line. -/
lemma walkFrom_append {part body : Text} (n : Nat) (rest) (hfree : newline ∉ body)
    (hlen : part.length + body.length < maxRecordBytes) :
    walkFrom c n part (body ++ rest) = walkFrom c n (part ++ body) rest := by
  induction body generalizing part with
  | nil => rw [nil_append, append_nil]
  | cons b body ih =>
    rw [mem_cons, not_or] at hfree
    rw [length_cons] at hlen
    rw [cons_append, walkFrom, if_neg (Ne.symm hfree.1), if_neg (by omega),
      ih hfree.2 (by rw [length_append, length_singleton]; omega), append_assoc,
      singleton_append]

/-- A record is read off the front. -/
lemma walkFrom_line (n : Nat) (r rest) (hlen : (c.line r).length ≤ maxRecordBytes) :
    walkFrom c n [] (c.line r ++ rest) =
      (r :: (walkFrom c (n + 1) [] rest).1, (walkFrom c (n + 1) [] rest).2) := by
  rw [length_line] at hlen
  rw [Codec.line, append_assoc, walkFrom_append n _ (c.newline_not_mem r)
    (by rw [length_nil]; omega), nil_append, singleton_append, walkFrom,
    if_pos rfl, c.not_blank, if_neg Bool.false_ne_true, c.decode_encode]

/-- The whole records are read, and the fragment is dropped. -/
lemma walkFrom_bytes (n : Nat) (rs) (hshort : ∀ r ∈ rs, (c.line r).length ≤ maxRecordBytes)
    (hfree : newline ∉ frag) (hfrag : frag.length < maxRecordBytes) :
    walkFrom c n [] (c.bytes rs ++ frag) = (rs, none) := by
  induction rs generalizing n with
  | nil =>
    have hend : walkFrom c n [] (frag ++ []) = walkFrom c n ([] ++ frag) [] :=
      walkFrom_append n [] hfree (by rw [length_nil]; omega)
    rw [append_nil, nil_append] at hend
    rw [Codec.bytes, flatMap_nil, nil_append, hend, walkFrom]
  | cons r rs ih =>
    have hrest := ih (n + 1) fun r' hr' => hshort r' (.tail r hr')
    rw [Codec.bytes, flatMap_cons, append_assoc, walkFrom_line n r _
      (hshort r (.head _)), ← Codec.bytes, hrest]

lemma Holds.walkLog_eq (h : Holds c l rs frag) : walkLog c l.disk = (rs, none) := by
  rw [walkLog, h.disk]
  exact walkFrom_bytes 1 rs h.short h.free h.fragment

/-! ## Repairing -/

lemma lastIndexByte_of_not_mem {b t} (h : b ∉ t) : lastIndexByte b t = none := by
  induction t with
  | nil => rfl
  | cons a t ih =>
    rw [mem_cons, not_or] at h
    rw [lastIndexByte, ih h.2]
    exact if_neg (Ne.symm h.1)

lemma lastIndexByte_append {b t} (x : Text) (h : b ∉ t) :
    lastIndexByte b (x ++ b :: t) = some x.length := by
  induction x with
  | nil =>
    rw [nil_append, lastIndexByte, lastIndexByte_of_not_mem h]
    exact if_pos rfl
  | cons a x ih => rw [cons_append, lastIndexByte, ih, length_cons]

lemma truncate_append (x y : Text) : truncate (x ++ y) x.length = x := by
  rw [truncate, take_left, length_append, Nat.sub_eq_zero_of_le (Nat.le_add_right _ _),
    replicate_zero, append_nil]

lemma getLast?_ne_of_not_mem {t} (x) (hne : t ≠ []) (hfree : newline ∉ t) :
    (x ++ t).getLast? ≠ some newline := by
  intro hlast
  rw [getLast?_append_of_ne_nil x hne] at hlast
  exact hfree (mem_of_getLast? hlast)

/-- The repair finds where the whole records end. -/
lemma repairTail_eq {whole : Text} (hwhole : whole = [] ∨ ∃ x, whole = x ++ [newline])
    (hfree : newline ∉ frag) (hfrag : frag.length < maxRecordBytes) (truncates syncs : Bool) :
    repairTail truncates syncs (whole ++ frag) =
      if frag = [] then (whole, .ok 0)
      else repairTo truncates syncs (whole ++ frag) whole.length := by
  obtain rfl | ⟨x, rfl⟩ := hwhole
  · rw [nil_append]
    by_cases hne : frag = []
    · rw [if_pos hne, hne]
      rfl
    · -- the whole file is a fragment
      have hpos : frag.length ≠ 0 := fun hzero => hne (length_eq_zero_iff.1 hzero)
      have hlast := getLast?_ne_of_not_mem [] hne hfree
      rw [nil_append] at hlast
      rw [if_neg hne, repairTail, if_neg hpos]
      simp only [Nat.min_eq_right hfrag.le, Nat.sub_self, drop_zero, if_neg hlast,
        lastIndexByte_of_not_mem hfree, if_true]
      rfl
  · -- the end of the last record lies in the window
    have hsize : (x ++ [newline] ++ frag).length = x.length + 1 + frag.length := by
      rw [length_append, length_append, length_singleton]
    have hskip :
        (x ++ [newline] ++ frag).length - min maxRecordBytes (x ++ [newline] ++ frag).length
        ≤ x.length := by
      rw [hsize]
      omega
    have hdrop : (x ++ [newline] ++ frag).drop ((x ++ [newline] ++ frag).length -
        min maxRecordBytes (x ++ [newline] ++ frag).length) =
        x.drop ((x ++ [newline] ++ frag).length -
          min maxRecordBytes (x ++ [newline] ++ frag).length) ++ newline :: frag := by
      rw [append_assoc x, drop_append_of_le_length
        (by rw [← append_assoc]; exact hskip), singleton_append]
    rw [repairTail, if_neg (by rw [hsize]; omega)]
    simp only [hdrop]
    by_cases hne : frag = []
    · subst hne
      rw [if_pos rfl, if_pos getLast?_concat, append_nil]
    · have hlast : (x.drop ((x ++ [newline] ++ frag).length -
          min maxRecordBytes (x ++ [newline] ++ frag).length) ++ newline :: frag).getLast? ≠
          some newline := by
        rw [append_cons]
        exact getLast?_ne_of_not_mem _ hne hfree
      rw [if_neg hlast, if_neg hne, lastIndexByte_append _ hfree]
      simp only [length_drop]
      have hkeep : (x ++ [newline] ++ frag).length -
          min maxRecordBytes (x ++ [newline] ++ frag).length + (x.length -
            ((x ++ [newline] ++ frag).length -
              min maxRecordBytes (x ++ [newline] ++ frag).length)) + 1 =
          (x ++ [newline]).length := by
        rw [Nat.add_sub_cancel' hskip, length_append, length_singleton]
      rw [hkeep]

section

variable (h : Holds c l rs frag)

include h

/-- What a repair can do: find or leave the whole records, or fail to cut or to sync. -/
lemma repairTail_cases (truncates syncs : Bool) :
    (∃ n, repairTail truncates syncs l.disk = (c.bytes rs, .ok n)) ∨
    (truncates = false ∧ repairTail truncates syncs l.disk = (l.disk, .error .truncateFailed)) ∨
    (syncs = false ∧ repairTail truncates syncs l.disk = (c.bytes rs, .error .syncFailed)) := by
  have heq := repairTail_eq (bytes_eq (c := c) rs) h.free h.fragment truncates syncs
  rw [← h.disk] at heq
  rw [heq]
  by_cases hne : frag = []
  · rw [if_pos hne]
    exact .inl ⟨0, rfl⟩
  · have hcut : truncate l.disk (c.bytes rs).length = c.bytes rs := by
      rw [h.disk, truncate_append]
    rw [if_neg hne, repairTo, hcut]
    cases truncates with
    | false => exact .inr (.inl ⟨rfl, rfl⟩)
    | true =>
      cases syncs with
      | false => exact .inr (.inr ⟨rfl, rfl⟩)
      | true => exact .inl ⟨_, rfl⟩

/-! ## One event -/

/-- The log whose handle is gone. -/
lemma Holds.drop : Holds c { l with handle := none } rs frag :=
  { h with atEnd := fun _ hw => by cases hw }

/-- A log of whole records, with any handle that stands at its end. -/
lemma Holds.whole {handle} (hoffset : ∀ w, handle = some w → w.offset = (c.bytes rs).length) :
    Holds c { disk := c.bytes rs, handle } rs [] where
  disk := (append_nil _).symm
  short := h.short
  free := not_mem_nil
  fragment := by decide
  atEnd := fun w hw _ => ⟨rfl, hoffset w hw⟩

lemma Holds.open_ (truncates syncs : Bool) :
    ∃ frag', Holds c (l.open_ truncates syncs) rs frag' := by
  rw [Log.open_]
  obtain ⟨n, heq⟩ | ⟨-, heq⟩ | ⟨-, heq⟩ := repairTail_cases h truncates syncs
  · rw [heq]
    exact ⟨[], h.whole fun w hw => by cases hw; rfl⟩
  · rw [heq]
    exact ⟨frag, h.drop⟩
  · rw [heq]
    exact ⟨[], h.whole fun w hw => by cases hw⟩

/-- An append that may write does so at the end of whole records. -/
lemma Holds.of_writer {line : Text} {w : AppendLog} (hw : l.writer line = .ok w) :
    line.length ≤ maxRecordBytes ∧ w.broken = false ∧ l.disk = c.bytes rs ∧
      w.offset = (c.bytes rs).length := by
  rw [Log.writer] at hw
  split at hw
  · cases hw
  next hlen =>
  split at hw
  · cases hw
  next w' hhandle =>
  split at hw
  · cases hw
  next hbroken =>
  cases hw
  rw [Bool.not_eq_true] at hbroken
  obtain ⟨rfl, hoffset⟩ := h.atEnd w hhandle hbroken
  have hdisk := h.disk
  rw [append_nil] at hdisk
  exact ⟨Nat.not_lt.1 hlen, hbroken, hdisk, hdisk ▸ hoffset⟩

/-- A part of a line after whole records: a fragment, or one record more. -/
lemma Holds.torn {r} (hlen : (c.line r).length ≤ maxRecordBytes) (n : Nat)
    (handle) (hbroken : ∀ w, handle = some w → w.broken) :
    ∃ rs' frag', Holds c { disk := c.bytes rs ++ (c.line r).take n, handle } rs' frag' ∧
      (rs' = rs ∨ rs' = rs ++ [r]) := by
  have hend : ∀ w, handle = some w → w.broken = false → ∀ P : Prop, P := by
    intro w hw hfalse
    rw [hbroken w hw] at hfalse
    cases hfalse
  by_cases hn : n < (c.line r).length
  · rw [length_line] at hn hlen
    have htake : (c.line r).take n = (c.encode r).take n := by
      rw [Codec.line, take_append_of_le_length (by omega)]
    refine ⟨rs, (c.encode r).take n, ⟨?_, h.short, ?_, ?_, ?_⟩, .inl rfl⟩
    · rw [htake]
    · exact fun hmem => c.newline_not_mem r (mem_of_mem_take hmem)
    · rw [length_take]
      omega
    · exact fun w hw hfalse => hend w hw hfalse _
  · refine ⟨rs ++ [r], [], ⟨?_, ?_, not_mem_nil, by decide, ?_⟩, .inr rfl⟩
    · rw [take_of_length_le (Nat.not_lt.1 hn), bytes_concat, append_nil]
    · exact forall_mem_append.2 ⟨h.short, forall_mem_singleton.2 hlen⟩
    · exact fun w hw hfalse => hend w hw hfalse _

lemma Holds.append (r fate) :
    ∃ new frag', Holds c (l.append (c.line r) fate).1 (rs ++ new) frag' ∧
      Keeps [(r, (l.append (c.line r) fate).2)] new := by
  rw [Log.append]
  cases hwriter : l.writer (c.line r) with
  | error o =>
    have ho : o ≠ .ok := by
      rintro rfl
      rw [Log.writer] at hwriter
      split at hwriter
      · cases hwriter
      split at hwriter
      · cases hwriter
      split at hwriter
      · cases hwriter
      · cases hwriter
    refine ⟨[], frag, ?_, .drop ho .nil⟩
    rw [append_nil]
    exact h
  | ok w =>
    obtain ⟨hlen, hbroken, hdisk, hoffset⟩ := h.of_writer hwriter
    simp only [writeLine]
    split
    · -- the line is written and synced
      next hok =>
      rw [hdisk, hok.1, take_length]
      refine ⟨[r], [], ⟨?_, ?_, not_mem_nil, by decide, ?_⟩, .keep (.inl rfl) .nil⟩
      · rw [bytes_concat, append_nil]
      · exact forall_mem_append.2 ⟨h.short, forall_mem_singleton.2 hlen⟩
      · intro w' hw' _
        cases hw'
        refine ⟨rfl, ?_⟩
        rw [length_append, hoffset]
    · rw [rollback]
      cases fate.truncates with
      | true =>
        -- the file is cut back to the whole records
        rw [if_pos rfl, hdisk, hoffset, truncate_append]
        refine ⟨[], [], ?_, .drop nofun .nil⟩
        rw [append_nil]
        exact h.whole fun w' hw' => by cases hw'; rfl
      | false =>
        rw [if_neg Bool.false_ne_true, hdisk]
        obtain ⟨rs', frag', hholds, hrs⟩ := h.torn hlen (min fate.written (c.line r).length)
          (some { w with
            offset := w.offset + min fate.written (c.line r).length, broken := true })
          fun w' hw' => by cases hw'; rfl
        obtain rfl | rfl := hrs
        · refine ⟨[], frag', ?_, .drop nofun .nil⟩
          rw [append_nil]
          exact hholds
        · exact ⟨[r], frag', hholds, .keep (.inr (.inl rfl)) .nil⟩

lemma Holds.crashIn (r) (n : Nat) :
    ∃ new frag', Holds c (l.crashIn (c.line r) n) (rs ++ new) frag' ∧
      Keeps [(r, Outcome.crashed)] new := by
  have hdropped : Keeps [(r, Outcome.crashed)] [] := .drop nofun .nil
  rw [Log.crashIn]
  cases hwriter : l.writer (c.line r) with
  | error o =>
    refine ⟨[], frag, ?_, hdropped⟩
    rw [append_nil]
    exact h.drop
  | ok w =>
    obtain ⟨hlen, -, hdisk, -⟩ := h.of_writer hwriter
    obtain ⟨rs', frag', hholds, hrs⟩ := h.torn hlen n none fun _ hw => by cases hw
    simp only [hdisk]
    obtain rfl | rfl := hrs
    · refine ⟨[], frag', ?_, hdropped⟩
      rw [append_nil]
      exact hholds
    · exact ⟨[r], frag', hholds, .keep (.inr (.inr rfl)) .nil⟩

/-- One event keeps the whole records, and adds at most the one that is appended. -/
lemma Holds.step (e) :
    ∃ new frag', Holds c (l.step c e).1 (rs ++ new) frag' ∧ Keeps (l.step c e).2 new := by
  have hsame : ∀ {l' : Log} {frag' : Text}, Holds c l' rs frag' →
      ∃ new frag', Holds c l' (rs ++ new) frag' ∧ Keeps ([] : List (T × Outcome)) new := by
    intro l' frag' hl'
    refine ⟨[], frag', ?_, .nil⟩
    rw [append_nil]
    exact hl'
  cases e with
  | append r fate => exact h.append r fate
  | crashIn r n => exact h.crashIn r n
  | crash => exact hsame h.drop
  | close => exact hsame h.drop
  | open_ truncates syncs =>
    obtain ⟨frag', hopen⟩ := h.open_ truncates syncs
    exact hsame hopen

end

/-- A run keeps the whole records, and adds some of those that are appended. -/
lemma Holds.run (h : Holds c l rs frag) (events) :
    ∃ new frag', Holds c (l.run c events) (rs ++ new) frag' ∧
      Keeps (l.attempts c events) new := by
  induction events generalizing l rs frag with
  | nil =>
    refine ⟨[], frag, ?_, .nil⟩
    rw [append_nil]
    exact h
  | cons e events ih =>
    obtain ⟨new, frag1, hstep, hkeeps⟩ := h.step e
    obtain ⟨new', frag2, hrun, hkeeps'⟩ := ih hstep
    refine ⟨new ++ new', frag2, ?_, hkeeps.append hkeeps'⟩
    rw [← append_assoc]
    exact hrun

lemma holds_empty : Holds c {} [] [] where
  disk := rfl
  short := fun _ hr => by cases hr
  free := not_mem_nil
  fragment := by decide
  atEnd := fun _ hw => by cases hw

/-! ## Whole runs -/

/-- **What a log keeps.**  After every run of appends, crashes and reopenings, from an empty log:
the records read back are those of the appends in order, with each that succeeded once, none that
ended with an ordinary error, and no error of the reader; every append that writes does so at the
beginning of a line; and a log is reopened unless its own cut or sync fails, with the same records
read back. -/
theorem log_keeps_records (c : Codec T) (events : List (Event T)) :
    (∃ rs, Keeps (Log.attempts c {} events) rs ∧
      walkLog c (Log.run c {} events).disk = (rs, none)) ∧
    (∀ line w, (Log.run c {} events).writer line = .ok w →
      w.offset = (Log.run c {} events).disk.length ∧ ((Log.run c {} events).disk = [] ∨
        (Log.run c {} events).disk.getLast? = some newline)) ∧
    ∀ truncates syncs, ((truncates = true → syncs = true →
        ((Log.run c {} events).open_ truncates syncs).handle.isSome = true)) ∧
      (repairTail truncates syncs (Log.run c {} events).disk).2 ≠ .error .noBoundary ∧
      walkLog c ((Log.run c {} events).open_ truncates syncs).disk =
        walkLog c (Log.run c {} events).disk := by
  obtain ⟨rs, frag, hrun, hkeeps⟩ := (holds_empty (c := c)).run events
  rw [nil_append] at hrun
  refine ⟨⟨rs, hkeeps, hrun.walkLog_eq⟩, fun line w hw => ?_, fun truncates syncs => ⟨?_, ?_, ?_⟩⟩
  · obtain ⟨-, -, hdisk, hoffset⟩ := hrun.of_writer hw
    rw [hdisk]
    refine ⟨hoffset, ?_⟩
    obtain hnil | ⟨x, hx⟩ := bytes_eq (c := c) rs
    · exact .inl hnil
    · rw [hx]
      exact .inr getLast?_concat
  · intro htruncates hsyncs
    rw [Log.open_]
    obtain ⟨n, heq⟩ | ⟨hfalse, -⟩ | ⟨hfalse, -⟩ := repairTail_cases hrun truncates syncs
    · rw [heq]
      rfl
    · rw [htruncates] at hfalse
      cases hfalse
    · rw [hsyncs] at hfalse
      cases hfalse
  · obtain ⟨n, heq⟩ | ⟨-, heq⟩ | ⟨-, heq⟩ := repairTail_cases hrun truncates syncs
    · rw [heq]
      exact fun hc => by cases hc
    · rw [heq]
      exact fun hc => by cases hc
    · rw [heq]
      exact fun hc => by cases hc
  · obtain ⟨frag', hopen⟩ := hrun.open_ truncates syncs
    rw [hopen.walkLog_eq, hrun.walkLog_eq]

namespace Sample

/-- Flags, written as words. -/
def flagCodec : Codec Bool where
  encode b := if b then txt "true" else txt "false"
  decode t := if t = txt "true\n" then some true else if t = txt "false\n" then some false else none
  newline_not_mem b := by
    cases b with
    | true => decide
    | false => decide
  not_blank b := by
    cases b with
    | true => decide
    | false => decide
  decode_encode b := by
    cases b with
    | true => decide
    | false => decide

end Sample

-- a crash in the middle of the second append, and a third one after reopening
example : walkLog Sample.flagCodec (Log.run Sample.flagCodec {}
    [.open_ true true, .append true ⟨5, true, true⟩, .crashIn false 3, .open_ true true,
      .append false ⟨6, true, true⟩]).disk = ([true, false], none) := by
  decide

end Ben.State
