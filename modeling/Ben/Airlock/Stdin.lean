import Ben.Lib.Runs
import Mathlib.Algebra.Order.Ring.Int

/-!
# Prompts delivered in pieces

`deliverStdin` writes a prompt to a run whose input is addressed by offsets, one piece a request,
and follows what the server says it holds.  It always begins at the start of the prompt, so that a
delivery that broke off is taken up again: what the server has is resent without effect or skipped.
The server is anything that keeps the offset contract (`Stdin.serve`).
-/

namespace Ben.Airlock

/-- One write of a prompt. -/
structure Write where
  offset : Int
  data : List UInt8
  close : Bool
  deriving DecidableEq, Repr

/-- What a request comes back with: a receipt, or an error by its code. -/
inductive Answer
  | ok (nextOffset : Int) (closed : Bool)
  | notReady
  | offsetMismatch (expected : Option Int)
  | tooLarge (limitBytes : Int)
  /-- The run takes no more input, or what became of a write is not known. -/
  | notAccepting
  | other
  deriving DecidableEq, Repr

/-- How `deliverStdin` returns: without an error on a closed answer or because the run takes no
more, or with an error. -/
inductive Outcome
  | closed
  | ended
  | failed
  deriving DecidableEq, Repr

/-- The loop before its next request, or its end. -/
inductive Delivery
  | sending (offset chunk : Int)
  | returned (outcome : Outcome)
  deriving DecidableEq, Repr

def defaultStdinChunk : Int := 65536

def minStdinChunk : Int := 512

/-- The loop as it is entered. -/
def Delivery.start (chunk : Int) : Delivery :=
  .sending 0 (if chunk ≤ 0 then defaultStdinChunk else chunk)

/-- The piece to be written next.  The sum of offset and chunk wraps, and then the slice panics. -/
def nextWrite (data : List UInt8) (offset chunk : Int) : Option Write :=
  let stop := min ((offset + chunk).bmod (2 ^ 64)) data.length
  if stop < offset then none
  else
    some { offset, data := (data.take stop.toNat).drop offset.toNat, close := stop == data.length }

/-- What the loop does with an answer; `late` says that the deadline has passed. -/
def afterAnswer (total offset chunk : Int) (late : Bool) : Answer → Delivery
  | .ok nextOffset closed =>
    if closed then .returned .closed
    else if nextOffset ≤ offset ∨ total < nextOffset then .returned .failed
    else .sending nextOffset chunk
  | .notReady => if late then .returned .failed else .sending offset chunk
  | .offsetMismatch none => .returned .failed
  | .offsetMismatch (some expected) =>
    if offset < expected ∧ expected ≤ total then .sending expected chunk else .returned .failed
  | .tooLarge limitBytes =>
    let next := if 0 < limitBytes ∧ limitBytes < chunk then limitBytes else chunk / 2
    if next < minStdinChunk then .returned .failed else .sending offset next
  | .notAccepting => .returned .ended
  | .other => .returned .failed

/-! ## The server -/

/-- The input of a run as the server keeps it: the bytes, and the writes it has receipted. -/
structure Stdin where
  held : List UInt8 := []
  closed : Bool := false
  receipts : List Write := []
  deriving DecidableEq, Repr

/-- A write at the expected offset of an open input is appended and receipted. -/
def Stdin.append (s : Stdin) (w : Write) : Option Stdin :=
  if w.offset = s.held.length ∧ s.closed = false then
    some { held := s.held ++ w.data, closed := w.close, receipts := w :: s.receipts }
  else none

/-- The contract: which answers to a write are allowed, and the input after each.  An exact resend
gets its recorded receipt, another write at an offset that is not expected gets the expected one,
and any write may be refused. -/
def Stdin.serve (s : Stdin) (w : Write) : Answer → Option Stdin
  | .ok nextOffset closed =>
    if nextOffset = w.offset + w.data.length ∧ closed = w.close then
      if w ∈ s.receipts then some s else s.append w
    else none
  | .offsetMismatch expected =>
    if w ∉ s.receipts ∧ w.offset ≠ s.held.length ∧ expected = some (s.held.length : Int) then some s
    else none
  | _ => some s

/-- One request of the loop.  It may have been tried before by the client itself, and such a try
may have landed. -/
structure Exchange where
  landed : Bool := false
  answer : Answer
  late : Bool := false

def step (data : List UInt8) : Delivery × Stdin → Exchange → Option (Delivery × Stdin)
  | (.returned _, _), _ => none
  | (.sending offset chunk, s), e =>
    (nextWrite data offset chunk).bind fun w =>
      (if e.landed then s.append w else some s).bind fun s =>
        (s.serve w e.answer).map fun s => (afterAnswer data.length offset chunk e.late e.answer, s)

/-- What earlier deliveries of a prompt leave behind, each with its own chunking and broken off
anywhere. -/
inductive Left (data : List UInt8) : Stdin → Prop
  | fresh : Left data {}
  | delivery {s d s'} (h : Left data s) (chunk : Int) (es : List Exchange)
      (hrun : Runs.run (step data) (.start chunk, s) es = some (d, s')) : Left data s'

/-! ## What is delivered -/

section

variable {data : List UInt8} {offset chunk : Int} {w : Write} {s s' : Stdin} {d d' : Delivery}
  {e : Exchange}

/-- The server holds a beginning of the prompt, and the whole of it once the input is closed. -/
structure Stdin.Honest (data : List UInt8) (s : Stdin) : Prop where
  held : s.held <+: data
  whole : s.closed = true → s.held = data
  receipts : ∀ w ∈ s.receipts, w.close = true → s.closed = true

lemma Stdin.Honest.append (h : s.Honest data) (hw : nextWrite data offset chunk = some w)
    (happend : s.append w = some s') : s'.Honest data ∧ (w.close → s'.closed) := by
  rw [Stdin.append, Option.ite_none_right_eq_some, Option.some.injEq] at happend
  obtain ⟨⟨hoffset, hopen⟩, rfl⟩ := happend
  rw [nextWrite, Option.ite_none_left_eq_some, Option.some.injEq] at hw
  obtain ⟨hstop, rfl⟩ := hw
  obtain ⟨rest, rfl⟩ := h.held
  generalize hend : min ((offset + chunk).bmod (2 ^ 64)) _ = stop at hstop ⊢
  have hle : stop ≤ (s.held ++ rest).length := hend ▸ Int.min_le_right _ _
  have hheld : s.held ++ ((s.held ++ rest).take stop.toNat).drop offset.toNat =
      (s.held ++ rest).take stop.toNat := by
    dsimp only at hoffset
    have hlength : offset.toNat = s.held.length := by omega
    rw [hlength, List.take_append, List.take_of_length_le (by omega), List.drop_left]
  refine ⟨⟨?_, fun hclose => ?_, fun w' hw' hclose => ?_⟩, id⟩
  · rw [hheld]
    exact List.take_prefix _ _
  · rw [hheld, List.take_of_length_le]
    have := eq_of_beq hclose
    omega
  · obtain rfl | hw' := List.mem_cons.1 hw'
    · exact hclose
    · exact absurd (h.receipts w' hw' hclose) (by simp [hopen])

/-- After any answer the server is honest, and a closed answer is given on a closed input only. -/
lemma Stdin.Honest.serve (h : s.Honest data) (hw : nextWrite data offset chunk = some w) {a}
    (hserve : s.serve w a = some s') :
    s'.Honest data ∧ ∀ n, a = .ok n true → s'.closed := by
  unfold Stdin.serve at hserve
  split at hserve
  · rw [Option.ite_none_right_eq_some] at hserve
    obtain ⟨⟨-, hclosed⟩, hserve⟩ := hserve
    split at hserve
    · rename_i hmem
      cases hserve
      refine ⟨h, fun n hn => h.receipts w hmem ?_⟩
      cases hn
      exact hclosed.symm
    · obtain ⟨hhonest, hclose⟩ := h.append hw hserve
      refine ⟨hhonest, fun n hn => hclose ?_⟩
      cases hn
      exact hclosed.symm
  · rw [Option.ite_none_right_eq_some, Option.some.injEq] at hserve
    exact ⟨hserve.2 ▸ h, nofun⟩
  · cases hserve
    rename_i hok _
    exact ⟨h, fun n hn => (hok n true hn).elim⟩

/-- The state of a delivery: the loop has a piece to write, or it has returned, and on a closed
answer only with the input closed. -/
structure Sound (data : List UInt8) (st : Delivery × Stdin) : Prop where
  honest : st.2.Honest data
  within : ∀ offset chunk, st.1 = .sending offset chunk → offset ≤ data.length ∧ 0 < chunk
  closed : st.1 = .returned .closed → st.2.closed = true

/-- A bound on the requests that are still to be made. -/
def Delivery.rest (total : Int) : Delivery → Int
  | .sending offset chunk => total - offset + chunk + 1
  | .returned _ => 0

/-- The loop goes on only within the prompt, and nearer to its end unless the run was not ready: the
offset has moved on, or the pieces are smaller. -/
lemma afterAnswer_spec {total : Int} (hoffset : offset ≤ total) (hchunk : 0 < chunk) (late a) :
    match afterAnswer total offset chunk late a with
    | .sending offset' chunk' => offset' ≤ total ∧ 0 < chunk' ∧
        (if a = .notReady then 0 else 1) + (chunk' - offset') ≤ chunk - offset
    | .returned outcome => outcome = .closed → ∃ n, a = .ok n true := by
  cases a with
  | offsetMismatch expected => cases expected <;> grind [afterAnswer]
  | _ => grind [afterAnswer, minStdinChunk]

/-- One step keeps the state sound and brings the end nearer. -/
lemma sound_step {st st' : Delivery × Stdin} (h : Sound data st)
    (hstep : step data st e = some st') :
    Sound data st' ∧ (if e.answer = .notReady then 0 else 1) + st'.1.rest data.length ≤
      st.1.rest data.length := by
  obtain ⟨⟨offset, chunk⟩ | _, s⟩ := st
  · simp only [step, Option.bind_eq_some_iff, Option.map_eq_some_iff] at hstep
    obtain ⟨w, hw, s1, hlanded, s2, hserve, rfl⟩ := hstep
    have h1 : s1.Honest data := by
      split at hlanded
      · exact (h.honest.append hw hlanded).1
      · exact Option.some.inj hlanded ▸ h.honest
    obtain ⟨h2, hclosed⟩ := h1.serve hw hserve
    obtain ⟨hoffset, hchunk⟩ := h.within offset chunk rfl
    have hspec := afterAnswer_spec hoffset hchunk e.late e.answer
    split at hspec
    · rename_i heq
      simp only [heq, Delivery.rest]
      refine ⟨⟨h2, ?_, nofun⟩, by omega⟩
      rintro _ _ ⟨⟩
      exact ⟨hspec.1, hspec.2.1⟩
    · rename_i heq
      simp only [heq, Delivery.rest]
      refine ⟨⟨h2, nofun, fun hreturned => ?_⟩, by split <;> omega⟩
      obtain ⟨n, hn⟩ := hspec (Delivery.returned.inj hreturned)
      exact hclosed n hn
  · cases hstep

/-- A whole run keeps the state sound and makes no more requests than its bound says. -/
lemma sound_run {st st' : Delivery × Stdin} {es : List Exchange} (h : Sound data st)
    (hrun : Runs.run (step data) st es = some st') :
    Sound data st' ∧ ((es.countP fun e => e.answer ≠ .notReady : Nat) : Int) +
      st'.1.rest data.length ≤ st.1.rest data.length := by
  induction es generalizing st with
  | nil =>
    cases hrun
    simpa using h
  | cons e es ih =>
    rw [Runs.run, Option.bind_eq_some_iff] at hrun
    obtain ⟨st1, hstep, hrun⟩ := hrun
    obtain ⟨h1, hless⟩ := sound_step h hstep
    obtain ⟨h', hrest⟩ := ih h1 hrun
    refine ⟨h', ?_⟩
    rw [List.countP_cons]
    split at hless <;> simp_all <;> omega

lemma sound_start (h : s.Honest data) (chunk : Int) : Sound data (.start chunk, s) := by
  refine ⟨h, ?_, nofun⟩
  rintro _ _ ⟨⟩
  refine ⟨Int.natCast_nonneg _, ?_⟩
  unfold defaultStdinChunk
  split <;> omega

lemma honest_of_left (h : Left data s) : s.Honest data := by
  induction h with
  | fresh => exact ⟨List.nil_prefix, nofun, by simp⟩
  | delivery _ chunk es hrun ih => exact (sound_run (sound_start ih chunk) hrun).1.honest

end

/-- Whatever earlier deliveries of the prompt left behind, with any chunk and any server that keeps
the contract, a delivery makes boundedly many requests besides those the run was not ready for; and
if it returns on a closed answer, the server holds exactly the prompt. -/
theorem deliverStdin_exact (data : List UInt8) {s s' : Stdin} (hleft : Left data s) (chunk : Int)
    {es : List Exchange} {d : Delivery}
    (hrun : Runs.run (step data) (.start chunk, s) es = some (d, s')) :
    (es.countP fun e => e.answer ≠ .notReady) ≤
      (data.length : Int) + (if chunk ≤ 0 then defaultStdinChunk else chunk) + 1 ∧
    (d = .returned .closed → s'.held = data ∧ s'.closed = true) := by
  obtain ⟨hsound, hrest⟩ := sound_run (sound_start (honest_of_left hleft) chunk) hrun
  constructor
  · have hnonneg : 0 ≤ d.rest data.length := by
      cases d with
      | sending offset chunk =>
        have := hsound.within offset chunk rfl
        simp only [Delivery.rest]
        omega
      | returned => exact Int.le_refl 0
    change _ + d.rest data.length ≤ (data.length : Int) - 0 + _ + 1 at hrest
    omega
  · intro hreturned
    have hclosed := hsound.closed hreturned
    exact ⟨hsound.honest.whole hclosed, hclosed⟩

namespace Sample

def prompt : List UInt8 := [80, 114, 111, 109, 112, 116]

/-- The server after a delivery in pieces of four that broke off. -/
def left : Stdin := { held := prompt.take 4, receipts := [⟨0, prompt.take 4, false⟩] }

/-- A later one in pieces of three is sent to where the first one ended. -/
def resumed : List Exchange := [{ answer := .offsetMismatch (some 4) }, { answer := .ok 6 true }]

end Sample

open Sample in
theorem deliverStdin_exact_resumed :
    ∃ s', Runs.run (step prompt) (.start 3, left) resumed = some (.returned .closed, s') ∧
      s'.held = prompt :=
  have hleft : Left prompt left := .delivery .fresh 4 [{ answer := .ok 4 false }] rfl
  have hrun : Runs.run (step prompt) (.start 3, left) resumed = some (.returned .closed, _) := rfl
  ⟨_, hrun, ((deliverStdin_exact prompt hleft 3 hrun).2 rfl).1⟩

end Ben.Airlock
