import Mathlib.Data.Nat.Digits.Lemmas
import Mathlib.Tactic.Lemma

/-!
# Decimal numerals in bytes

Writing a whole number in decimal and reading it back, with the sign and the range of a machine
integer of sixty-four bits.
-/

namespace Decimal

/-- The byte of a digit. -/
def digit (d : Nat) : UInt8 := UInt8.ofNat (48 + d)

/-- The numeral of a natural number. -/
def ofNat (n : Nat) : List UInt8 := if n = 0 then [digit 0] else (Nat.digits 10 n).reverse.map digit

/-- The numeral of an integer. -/
def ofInt : Int → List UInt8
  | .ofNat n => ofNat n
  | .negSucc n => 45 :: ofNat (n + 1)

/-- Read digits onto a number already read. -/
def readFrom : Nat → List UInt8 → Option Nat
  | n, [] => some n
  | n, b :: l => if 48 ≤ b ∧ b ≤ 57 then readFrom (10 * n + (b.toNat - 48)) l else none

/-- Read a nonempty run of digits. -/
def readNat (l : List UInt8) : Option Nat := if l.isEmpty then none else readFrom 0 l

/-- Read a numeral with an optional sign, within sixty-four bits. -/
def readInt (l : List UInt8) : Option Int :=
  match l with
  | 43 :: l => (readNat l).bind fun n => if n < 2 ^ 63 then some (n : Int) else none
  | 45 :: l => (readNat l).bind fun n => if n ≤ 2 ^ 63 then some (-n : Int) else none
  | l => (readNat l).bind fun n => if n < 2 ^ 63 then some (n : Int) else none

/-! ## Reading back -/

lemma digit_toNat {d : Nat} (hd : d < 10) : (digit d).toNat = 48 + d := by
  simp only [digit, UInt8.toNat_ofNat']
  omega

lemma digit_range {d : Nat} (hd : d < 10) : 48 ≤ digit d ∧ digit d ≤ 57 := by
  rw [UInt8.le_iff_toNat_le, UInt8.le_iff_toNat_le, digit_toNat hd]
  constructor
  · exact Nat.le_add_right 48 d
  · change 48 + d ≤ 57
    omega

lemma readFrom_map {ds : List Nat} (hds : ∀ d ∈ ds, d < 10) (n : Nat) :
    readFrom n (ds.map digit) = some (ds.foldl (fun m d => 10 * m + d) n) := by
  induction ds generalizing n with
  | nil => rfl
  | cons d ds ih =>
    have hd := hds d (by simp)
    rw [List.map_cons, readFrom, if_pos (digit_range hd), digit_toNat hd, Nat.add_sub_cancel_left,
      ih fun e he => hds e (.tail d he)]
    rfl

/-- Reading on does not make the number smaller. -/
lemma le_of_readFrom {l} {m n : Nat} (h : readFrom m l = some n) : m ≤ n := by
  induction l generalizing m with
  | nil =>
    rw [readFrom, Option.some.injEq] at h
    exact h.le
  | cons b l ih =>
    rw [readFrom] at h
    split at h
    · have hle := ih h
      omega
    · cases h

/-- The bytes of a numeral are digits. -/
lemma mem_ofNat {n : Nat} {b} (hb : b ∈ ofNat n) : 48 ≤ b ∧ b ≤ 57 := by
  unfold ofNat at hb
  split at hb
  · rw [List.mem_singleton] at hb
    exact hb ▸ digit_range (by omega)
  · obtain ⟨d, hd, rfl⟩ := List.mem_map.1 hb
    exact digit_range (Nat.digits_lt_base (by omega) (List.mem_reverse.1 hd))

lemma ofNat_ne_nil (n : Nat) : ofNat n ≠ [] := by
  unfold ofNat
  split
  · exact List.cons_ne_nil _ _
  · rename_i hn
    simpa [Nat.digits_eq_nil_iff_eq_zero] using hn

theorem readNat_ofNat (n : Nat) : readNat (ofNat n) = some n := by
  rw [readNat, if_neg (by simpa using ofNat_ne_nil n)]
  unfold ofNat
  split
  · rename_i hn
    rw [hn]
    decide
  · rw [readFrom_map fun d hd => Nat.digits_lt_base (by omega) (List.mem_reverse.1 hd),
      List.foldl_reverse]
    congr 1
    calc (Nat.digits 10 n).foldr (fun d m => 10 * m + d) 0
        = Nat.ofDigits 10 (Nat.digits 10 n) := by
          rw [Nat.ofDigits_eq_foldr]
          congr 1
          funext d m
          exact Nat.add_comm _ _
      _ = n := Nat.ofDigits_digits 10 n

/-- The numeral of a number of sixty-four bits that is not negative reads back. -/
theorem readInt_ofInt {n : Int} (hn : 0 ≤ n) (hlt : n < 2 ^ 63) : readInt (ofInt n) = some n := by
  obtain ⟨m, rfl⟩ := Int.eq_ofNat_of_zero_le hn
  have hm : m < 2 ^ 63 := by exact_mod_cast hlt
  change readInt (ofNat m) = some (m : Int)
  have hread : (readNat (ofNat m)).bind
      (fun k => if k < 2 ^ 63 then some (k : Int) else none) = some (m : Int) := by
    rw [readNat_ofNat, Option.bind_some, if_pos hm]
  cases hdigits : ofNat m with
  | nil => exact absurd hdigits (ofNat_ne_nil m)
  | cons b l =>
    have hb : 48 ≤ b := (mem_ofNat (n := m) (by rw [hdigits]; simp)).1
    rw [← hread, hdigits]
    unfold readInt
    split
    · exact absurd hb (by simp_all)
    · exact absurd hb (by simp_all)
    · rfl

/-- What is read is within sixty-four bits. -/
lemma readInt_lt {l} {v : Int} (h : readInt l = some v) : v < 2 ^ 63 := by
  unfold readInt at h
  split at h
  · obtain ⟨n, -, h⟩ := Option.bind_eq_some_iff.1 h
    split at h
    · rw [← Option.some.inj h]
      exact_mod_cast ‹n < 2 ^ 63›
    · cases h
  · obtain ⟨n, -, h⟩ := Option.bind_eq_some_iff.1 h
    split at h
    · rw [← Option.some.inj h]
      omega
    · cases h
  · obtain ⟨n, -, h⟩ := Option.bind_eq_some_iff.1 h
    split at h
    · rw [← Option.some.inj h]
      exact_mod_cast ‹n < 2 ^ 63›
    · cases h

end Decimal
