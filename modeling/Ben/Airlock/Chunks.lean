import Ben.Airlock.Stdin
import Ben.Lib.JsonPrint
import Ben.Review.Text

/-!
# Pieces of a prompt fit their requests

A write of a prompt carries its piece in base64 inside a JSON object, and the server measures the
whole object.  `streamChunk` therefore cuts the pieces to what is left of the request body beside
the framing, in whole groups of three bytes.
-/

namespace Ben.Airlock

open List
open Review (Text txt itoa)

/-! ## The encoding of a write -/

/-- The digits of base64. -/
def base64Digits : Text := txt "ABCDEFGHIJKLMNOPQRSTUVWXYZabcdefghijklmnopqrstuvwxyz0123456789+/"

def base64Digit (n : Nat) : UInt8 := base64Digits.getD n 61

/-- Three bytes are four digits, and the last group is filled up. -/
def base64 : List UInt8 → Text
  | [] => []
  | [a] => [base64Digit (a.toNat / 4), base64Digit (a.toNat % 4 * 16), 61, 61]
  | [a, b] =>
    [base64Digit (a.toNat / 4), base64Digit (a.toNat % 4 * 16 + b.toNat / 16),
      base64Digit (b.toNat % 16 * 4), 61]
  | a :: b :: c :: rest =>
    base64Digit (a.toNat / 4) :: base64Digit (a.toNat % 4 * 16 + b.toNat / 16) ::
      base64Digit (b.toNat % 16 * 4 + c.toNat / 64) :: base64Digit (c.toNat % 64) :: base64 rest

/-- The body of a request: the offset, the piece, and the flag when it is set. -/
def Write.body (w : Write) : Text :=
  txt "\x7b\"offset\":" ++ itoa w.offset ++ txt ",\"data_b64\":\"" ++
    Json.escape (base64 w.data) ++ txt "\"" ++
    (if w.close then txt ",\"close\":true" else []) ++ txt "\x7d"

/-- The framing around an empty piece, with the offset at its widest. -/
def stdinWriteOverhead : Int := (Write.body ⟨2 ^ 63 - 1, [], true⟩).length

/-- The bounds on writes that a profile publishes. -/
structure StdinLimits where
  chunk : Int
  requestBody : Int
  machine : chunk < 2 ^ 63

/-- The most bytes of a prompt that a request body has room for, in whole groups. -/
def StdinLimits.bodyFit (l : StdinLimits) : Int :=
  if l.requestBody ≤ 0 then 0
  else if l.requestBody - stdinWriteOverhead < 4 then 3
  else (l.requestBody - stdinWriteOverhead) / 4 * 3

/-- The largest piece that the bounds admit. -/
def StdinLimits.streamChunk (l : StdinLimits) : Int :=
  let chunk := if l.chunk ≤ 0 then defaultStdinChunk else l.chunk
  if 0 < l.bodyFit ∧ l.bodyFit < chunk then l.bodyFit else chunk

/-- The loop after one answer, whatever the server is. -/
def follow (data : List UInt8) : Delivery → Answer × Bool → Option Delivery
  | .sending offset chunk, (a, late) =>
    (nextWrite data offset chunk).map fun _ => afterAnswer data.length offset chunk late a
  | .returned _, _ => none

/-! ## Lengths -/

lemma length_base64 (l : List UInt8) : (base64 l).length = (l.length + 2) / 3 * 4 := by
  fun_induction base64 l with
  | case4 a b c rest ih =>
    simp only [length_cons, ih]
    omega
  | _ => simp

set_option maxRecDepth 4000 in
/-- Nothing in base64 is escaped. -/
lemma escape_base64 (l : List UInt8) : Json.escape (base64 l) = base64 l := by
  have hdigit : ∀ n, base64Digit n < 0x80 ∧ Json.escapeByte (base64Digit n) = [base64Digit n] := by
    intro n
    have hall : ∀ c ∈ 61 :: base64Digits, c < 0x80 ∧ Json.escapeByte c = [c] := by decide
    rw [base64Digit, getD_eq_getElem?_getD]
    cases h : base64Digits[n]? with
    | none => exact hall 61 (.head _)
    | some c => exact hall c (.tail _ (mem_of_getElem? h))
  have hpad : Json.escapeByte 61 = [61] := rfl
  unfold Json.escape
  fun_induction base64 l <;> simp_all [Json.escapeFrom]

lemma length_itoa {n : Int} (hn : 0 ≤ n) (hlt : n < 2 ^ 63) : (itoa n).length ≤ 19 := by
  obtain ⟨m, rfl⟩ := Int.eq_ofNat_of_zero_le hn
  change (Decimal.ofNat m).length ≤ 19
  rw [Decimal.ofNat]
  split
  · decide
  · rw [length_map, length_reverse, Nat.digits_length_le_iff (by decide)]
    omega

lemma length_body (w : Write) (hn : 0 ≤ w.offset) (hlt : w.offset < 2 ^ 63) :
    (w.body.length : Int) ≤ stdinWriteOverhead + (w.data.length + 2) / 3 * 4 := by
  have hoffset := length_itoa hn hlt
  have hwidest : (itoa (2 ^ 63 - 1)).length = 19 := by decide
  have hempty : (Json.escape (base64 [])).length = 0 := rfl
  simp only [stdinWriteOverhead, Write.body, length_append, escape_base64 w.data,
    length_base64, hwidest, hempty, if_true]
  split
  · omega
  · rw [length_nil]
    omega

/-! ## Pieces -/

variable {data : List UInt8} {answers : List (Answer × Bool)} {offset chunk : Int} {w : Write}

lemma streamChunk_spec {l : StdinLimits} (hchunk : 0 < l.chunk)
    (hroom : 4 ≤ l.requestBody - stdinWriteOverhead) :
    0 < l.streamChunk ∧ l.streamChunk ≤ l.chunk ∧
      l.streamChunk ≤ (l.requestBody - stdinWriteOverhead) / 4 * 3 := by
  have hframing : 0 ≤ stdinWriteOverhead := Int.natCast_nonneg _
  have hfit : l.bodyFit = (l.requestBody - stdinWriteOverhead) / 4 * 3 := by
    rw [StdinLimits.bodyFit, if_neg (by omega), if_neg (by omega)]
  simp only [StdinLimits.streamChunk, hfit, if_neg (not_le.2 hchunk)]
  split <;> omega

/-- A piece cut within the prompt is not empty unless it is the last one. -/
lemma nextWrite_spec (hw : nextWrite data offset chunk = some w) (hoffset : 0 ≤ offset)
    (hchunk : 0 < chunk) (hlt : chunk < 2 ^ 63) :
    w.offset = offset ∧ offset < 2 ^ 63 ∧ (w.data.length : Int) ≤ chunk ∧
      (w.data ≠ [] ∨ w.close) := by
  rw [nextWrite, Option.ite_none_left_eq_some, Option.some.injEq] at hw
  obtain ⟨hstop, rfl⟩ := hw
  rw [← length_pos_iff, beq_iff_eq]
  simp only [length_drop, length_take, Int.bmod] at hstop ⊢
  refine ⟨trivial, ?_⟩
  -- a sum that wraps is below the offset
  split at hstop <;> rename_i hwrap <;> simp only [hwrap, if_true, if_false] <;> omega

/-- Until smaller pieces are asked for, the loop keeps the chunk it was entered with. -/
lemma follow_run (hchunk : 0 < chunk) (hkept : ∀ a ∈ answers, ∀ n, a.1 ≠ .tooLarge n) {d}
    (hrun : Runs.run (follow data) (.start chunk) answers = some d) :
    ∀ offset chunk', d = .sending offset chunk' → 0 ≤ offset ∧ chunk' = chunk := by
  refine Runs.invariant
    (P := fun d => ∀ offset chunk', d = .sending offset chunk' → 0 ≤ offset ∧ chunk' = chunk)
    (fun d a d' h hkept hstep => ?_) ?_ ((Runs.along_true _ _).and_all hkept) hrun
  · cases d with
    | returned _ => cases hstep
    | sending offset chunk' =>
      obtain ⟨hoffset, rfl⟩ := h offset chunk' rfl
      obtain ⟨w, -, rfl⟩ := Option.map_eq_some_iff.1 hstep
      intro offset' chunk1 hsending
      obtain ⟨a, late⟩ := a
      cases a with
      | offsetMismatch expected => cases expected <;> grind [afterAnswer]
      | tooLarge n => exact absurd rfl (hkept.2 n)
      | _ => grind [afterAnswer]
  · rintro _ _ ⟨⟩
    exact ⟨Int.le_refl 0, if_neg (by omega)⟩

/-- With room for one group beside the framing, a piece of any prompt is not empty unless it is the
last one, is within the bound on pieces, and its request is within the bound on bodies; whatever the
server has answered before, unless it asked for smaller pieces. -/
theorem deliverStdin_fits (l : StdinLimits) (hchunk : 0 < l.chunk)
    (hroom : 4 ≤ l.requestBody - stdinWriteOverhead) (hkept : ∀ a ∈ answers, ∀ n, a.1 ≠ .tooLarge n)
    (hrun : Runs.run (follow data) (.start l.streamChunk) answers = some (.sending offset chunk))
    (hw : nextWrite data offset chunk = some w) :
    (w.data ≠ [] ∨ w.close = true) ∧ (w.data.length : Int) ≤ l.chunk ∧
      (w.body.length : Int) ≤ l.requestBody := by
  obtain ⟨hpos, hbound, hfit⟩ := streamChunk_spec hchunk hroom
  obtain ⟨hoffset, rfl⟩ := follow_run hpos hkept hrun offset chunk rfl
  obtain ⟨rfl, hlt, hlength, hprogress⟩ :=
    nextWrite_spec hw hoffset hpos (hbound.trans_lt l.machine)
  have hbody := length_body w hoffset hlt
  exact ⟨hprogress, by omega, by omega⟩

/-- A bound of one group leaves pieces of three bytes. -/
theorem deliverStdin_fits_group :
    (Write.body ⟨3, [109, 112, 116], true⟩).length ≤ 61 ∧
      nextWrite Sample.prompt 3 3 = some ⟨3, [109, 112, 116], true⟩ := by
  have hw : nextWrite Sample.prompt 3 3 = some ⟨3, [109, 112, 116], true⟩ := rfl
  have hrun : Runs.run (follow Sample.prompt) (.start 3) [(.ok 3 false, false)] =
    some (.sending 3 3) := rfl
  have h := deliverStdin_fits ⟨65536, 61, by decide⟩ (by decide) (by decide) (by simp) hrun hw
  exact ⟨Int.ofNat_le.1 h.2.2, hw⟩

end Ben.Airlock
