import Ben.Lib.Runs
import Ben.Remote.Envelope
import Mathlib.Algebra.Order.Ring.Int

/-!
# The replay filter

A reconnect delivers again what was delivered before.  The filter keeps two marks, what it handed
on and what is durable, with a digest for every event it handed on and the ranges it was told are
lost.  A page may overlap the past in any way: an event at or below the mark has to match its
digest, the next one is taken, and anything else refuses the whole page.

The numbers are those of a machine of sixty-four bits.  No sum below wraps in a way that changes an
answer: a mark at the top of the range is not passed by any number that fits.
-/

namespace Ben.Remote

open Ben.Review (Text)

/-- Why a call was refused, with the numbers its message names. -/
inductive SequenceError where
  | unusable (gap : EventGap)
  | unordered (before gap : EventGap)
  | gapPastCursor (gap : EventGap) (cursor : Int)
  | historyExpected (expected got : Int)
  | historyPastCursor (seq cursor : Int)
  | misplaced (gap : EventGap) (expected : Int)
  | historyEnds (cursor last : Int)
  | notPositive (seq : Int)
  | expired (seq : Int)
  | noDigest (seq : Int)
  | differs (seq : Int)
  | expected (expected got : Int)
  deriving DecidableEq

abbrev Digests := Int → Option Text

structure Sequencer where
  /-- The last event handed on by this process. -/
  admitted : Int
  /-- The last event that the durable record covers. -/
  committed : Int
  digests : Digests
  gaps : List EventGap

def newSequencer (cursor : Int) : Sequencer := ⟨cursor, cursor, fun _ => none, []⟩

/-- Some range of the list holds the number. -/
def within (gaps : List EventGap) (seq : Int) : Bool := gaps.any (·.contains seq)

def Sequencer.expired (s : Sequencer) (seq : Int) : Bool := within s.gaps seq

/-! ## Restoring -/

/-- The ranges to restore are usable, ascending and covered by the cursor. -/
def checkGaps (committed : Int) : Option EventGap → List EventGap → Except SequenceError Unit
  | _, [] => .ok ()
  | before, gap :: gaps =>
    if !gap.valid then .error (.unusable gap)
    else match before with
      | some b =>
        if gap.fromSeq ≤ b.toSeq then .error (.unordered b gap)
        else if gap.toSeq > committed then .error (.gapPastCursor gap committed)
        else checkGaps committed (some gap) gaps
      | none =>
        if gap.toSeq > committed then .error (.gapPastCursor gap committed)
        else checkGaps committed (some gap) gaps

/-- Pass every range that starts where the events stopped. -/
def skipAccepted : List EventGap → Int → List EventGap × Int
  | [], expected => ([], expected)
  | gap :: gaps, expected =>
    if gap.fromSeq = expected then skipAccepted gaps (gap.toSeq + 1) else (gap :: gaps, expected)

variable [Hashing]

/-- Read a history, with the ranges not passed yet and the digests restored so far. -/
def restoreFrom (committed : Int) : List Envelope → List EventGap × Int → Digests →
    Except SequenceError (List EventGap × Int × Digests)
  | [], (rest, expected), restored => .ok (rest, expected, restored)
  | env :: history, (rest, expected), restored =>
    if env.seq ≠ expected then .error (.historyExpected expected env.seq)
    else if env.seq > committed then .error (.historyPastCursor env.seq committed)
    else restoreFrom committed history (skipAccepted rest (expected + 1))
      (Function.update restored env.seq (some (envelopeDigest env)))

/-- What `restore` accepts, before it is stored. -/
def Sequencer.checkHistory (s : Sequencer) (history : List Envelope) (gaps : List EventGap) :
    Except SequenceError Digests := do
  checkGaps s.committed none gaps
  let (rest, expected, restored) ←
    restoreFrom s.committed history (skipAccepted gaps 1) fun _ => none
  match rest with
  | gap :: _ => .error (.misplaced gap expected)
  | [] =>
    if expected - 1 ≠ s.committed then .error (.historyEnds s.committed (expected - 1))
    else .ok restored

def Sequencer.restore (s : Sequencer) (history : List Envelope) (gaps : List EventGap) :
    Except SequenceError Unit × Sequencer :=
  match s.checkHistory history gaps with
  | .error e => (.error e, s)
  | .ok restored => (.ok (), { s with digests := restored, gaps := gaps })

/-! ## Moving on -/

def Sequencer.acceptGap (s : Sequencer) (gap : EventGap) : Except SequenceError Unit × Sequencer :=
  if !gap.valid then (.error (.unusable gap), s)
  else if gap.fromSeq ≠ s.admitted + 1 then (.error (.misplaced gap (s.admitted + 1)), s)
  else (.ok (), { s with gaps := s.gaps ++ [gap], admitted := gap.toSeq })

/-- Read a page, with the mark, the digests and the fresh events it has led to so far. -/
def Sequencer.admitFrom (s : Sequencer) : List Envelope → Int → Digests → List Envelope →
    Except SequenceError (Int × Digests × List Envelope)
  | [], admitted, pending, fresh => .ok (admitted, pending, fresh)
  | env :: batch, admitted, pending, fresh =>
    if env.seq ≤ 0 then .error (.notPositive env.seq)
    else if env.seq ≤ admitted then
      match (pending env.seq).or (s.digests env.seq) with
      | none => if s.expired env.seq then .error (.expired env.seq) else .error (.noDigest env.seq)
      | some seen =>
        if seen ≠ envelopeDigest env then .error (.differs env.seq)
        -- delivered before
        else s.admitFrom batch admitted pending fresh
    else if env.seq = admitted + 1 then
      s.admitFrom batch env.seq
        (Function.update pending env.seq (some (envelopeDigest env))) (fresh ++ [env])
    else .error (.expected (admitted + 1) env.seq)

def Sequencer.admitBatch (s : Sequencer) (batch : List Envelope) :
    Except SequenceError (List Envelope) × Sequencer :=
  match s.admitFrom batch s.admitted (fun _ => none) [] with
  | .error e => (.error e, s)
  | .ok (admitted, pending, fresh) =>
    (.ok fresh, { s with digests := fun n => (pending n).or (s.digests n), admitted := admitted })

def Sequencer.commit (s : Sequencer) (seq : Int) : Sequencer :=
  let seq := if seq > s.admitted then s.admitted else seq
  if seq > s.committed then { s with committed := seq } else s

/-- A call on a filter. -/
inductive Call where
  | admitBatch (batch : List Envelope)
  | commit (seq : Int)
  | acceptGap (gap : EventGap)
  | restore (history : List Envelope) (gaps : List EventGap)

/-- The filter after a call, whatever it answered. -/
def Sequencer.after (s : Sequencer) : Call → Sequencer
  | .admitBatch batch => (s.admitBatch batch).2
  | .commit seq => s.commit seq
  | .acceptGap gap => (s.acceptGap gap).2
  | .restore history gaps => (s.restore history gaps).2

/-- Every call is taken. -/
def Sequencer.step (s : Sequencer) (c : Call) : Option Sequencer := some (s.after c)

/-! ## What a page leads to -/

/-- The numbers run on from a mark without a hole. -/
def Follows : Int → List Envelope → Prop
  | _, [] => True
  | mark, env :: envs => env.seq = mark + 1 ∧ Follows env.seq envs

/-- The fresh part of a page, read against a mark: in order, without a hole, and all of it. -/
structure FreshPart (mark : Int) (batch fresh : List Envelope) : Prop where
  sublist : fresh.Sublist batch
  follows : Follows mark fresh
  complete : ∀ e ∈ batch, mark < e.seq → ∃ e' ∈ fresh, e'.seq = e.seq

/-- What reading a page does to the mark and the digests it carries along. -/
structure Reads (s : Sequencer) (batch : List Envelope) (mark : Int) (pending : Digests)
    (mark' : Int) (pending' : Digests) (fresh : List Envelope) : Prop where
  part : FreshPart mark batch fresh
  mark_eq : mark' = mark + fresh.length
  old : ∀ n ≤ mark, pending' n = pending n
  new : ∀ n, mark < n → ((pending' n).isSome ↔ n ≤ mark' ∨ (pending n).isSome)
  known : ∀ e ∈ batch, 0 < e.seq ∧ e.seq ≤ mark' ∧
    (pending' e.seq).or (s.digests e.seq) = some (envelopeDigest e)

variable {s s' : Sequencer} {batch : List Envelope} {mark mark' : Int} {pending pending' : Digests}
  {env : Envelope}

lemma Reads.repeated {fresh} (h : Reads s batch mark pending mark' pending' fresh)
    (hpos : 0 < env.seq) (hle : env.seq ≤ mark)
    (hseen : (pending env.seq).or (s.digests env.seq) = some (envelopeDigest env)) :
    Reads s (env :: batch) mark pending mark' pending' fresh where
  part := by
    refine ⟨h.part.sublist.cons env, h.part.follows, fun e he hlt => ?_⟩
    obtain rfl | he := List.mem_cons.1 he
    · omega
    · exact h.part.complete e he hlt
  mark_eq := h.mark_eq
  old := h.old
  new := h.new
  known := by
    intro e he
    obtain rfl | he := List.mem_cons.1 he
    · have hmark := h.mark_eq
      refine ⟨hpos, by omega, ?_⟩
      rw [h.old e.seq hle]
      exact hseen
    · exact h.known e he

lemma Reads.taken {fresh} (hpos : 0 < env.seq) (hnext : env.seq = mark + 1)
    (h : Reads s batch env.seq (Function.update pending env.seq (some (envelopeDigest env))) mark'
      pending' fresh) :
    Reads s (env :: batch) mark pending mark' pending' (env :: fresh) where
  part := by
    refine ⟨h.part.sublist.cons_cons env, ⟨hnext, h.part.follows⟩, fun e he hlt => ?_⟩
    obtain rfl | he := List.mem_cons.1 he
    · exact ⟨e, .head _, rfl⟩
    · by_cases heq : env.seq = e.seq
      · exact ⟨env, .head _, heq⟩
      · obtain ⟨e', he', hseq⟩ := h.part.complete e he (by omega)
        exact ⟨e', .tail env he', hseq⟩
  mark_eq := by
    rw [h.mark_eq, hnext, List.length_cons]
    push_cast
    ring
  old := by
    intro n hn
    rw [h.old n (by omega), Function.update_of_ne (by omega)]
  new := by
    intro n hn
    have hmark := h.mark_eq
    by_cases heq : n = env.seq
    · subst heq
      rw [h.old _ le_rfl, Function.update_self]
      simp only [Option.isSome_some, true_iff]
      left
      omega
    · rw [h.new n (by omega), Function.update_of_ne heq]
  known := by
    intro e he
    obtain rfl | he := List.mem_cons.1 he
    · have hmark := h.mark_eq
      refine ⟨hpos, by omega, ?_⟩
      rw [h.old _ le_rfl, Function.update_self]
      rfl
    · exact h.known e he

/-- A page that is not refused was read event by event. -/
lemma admitFrom_ok {fresh fresh'}
    (h : s.admitFrom batch mark pending fresh = .ok (mark', pending', fresh')) :
    ∃ part, fresh' = fresh ++ part ∧ Reads s batch mark pending mark' pending' part := by
  induction batch generalizing mark pending fresh with
  | nil =>
    simp only [Sequencer.admitFrom, Except.ok.injEq, Prod.mk.injEq] at h
    obtain ⟨rfl, rfl, rfl⟩ := h
    refine ⟨[], by simp, ⟨⟨List.Sublist.refl _, trivial, by simp⟩, by simp, by simp, ?_, by simp⟩⟩
    intro n hn
    simp [Int.not_le.2 hn]
  | cons env batch ih =>
    rw [Sequencer.admitFrom] at h
    split at h
    · cases h
    rename_i hpos
    split at h
    · rename_i hle
      split at h
      · split at h <;> cases h
      · rename_i seen hseen
        split at h
        · cases h
        · rename_i hsame
          obtain ⟨part, hpart, hreads⟩ := ih h
          rw [not_not] at hsame
          exact ⟨part, hpart, hreads.repeated (by omega) hle (hsame ▸ hseen)⟩
    · split at h
      · rename_i hnext
        obtain ⟨part, hpart, hreads⟩ := ih h
        refine ⟨env :: part, ?_, hreads.taken (by omega) hnext⟩
        rw [hpart, List.append_assoc, List.singleton_append]
      · cases h

/-- An admitted page: its fresh part, the marks, and what is remembered of it. -/
structure Admits (s : Sequencer) (batch fresh : List Envelope) (s' : Sequencer) : Prop where
  part : FreshPart s.admitted batch fresh
  admitted : s'.admitted = s.admitted + fresh.length
  committed : s'.committed = s.committed
  gaps : s'.gaps = s.gaps
  old : ∀ n ≤ s.admitted, s'.digests n = s.digests n
  new : ∀ n, s.admitted < n → ((s'.digests n).isSome ↔ n ≤ s'.admitted ∨ (s.digests n).isSome)
  known : ∀ e ∈ batch, 0 < e.seq ∧ e.seq ≤ s'.admitted ∧
    s'.digests e.seq = some (envelopeDigest e)

lemma admit_ok {fresh} (h : s.admitBatch batch = (.ok fresh, s')) : Admits s batch fresh s' := by
  rw [Sequencer.admitBatch] at h
  split at h
  · cases h
  · rename_i mark pending fresh1 hread
    simp only [Prod.mk.injEq, Except.ok.injEq] at h
    obtain ⟨rfl, rfl⟩ := h
    obtain ⟨part, hpart, hreads⟩ := admitFrom_ok hread
    rw [List.nil_append] at hpart
    subst hpart
    refine ⟨hreads.part, hreads.mark_eq, rfl, rfl, fun n hn => ?_, fun n hn => ?_, hreads.known⟩
    · simp [hreads.old n hn]
    · have hnew := hreads.new n hn
      simp only [Option.isSome_none, Bool.false_eq_true, or_false] at hnew
      rw [Option.isSome_or, Bool.or_eq_true, hnew]

lemma admit_error {e} (h : s.admitBatch batch = (.error e, s')) : s' = s := by
  rw [Sequencer.admitBatch] at h
  split at h
  · simp only [Prod.mk.injEq] at h
    exact h.2.symm
  · cases h

end Ben.Remote
