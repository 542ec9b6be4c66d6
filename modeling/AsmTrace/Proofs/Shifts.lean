import Mathlib
import AsmTrace.Semantics

/-!
# Shifts

A shift looks at its count modulo 32 and does in one go what as many shifts by one do. For the word
this is adding up what it is shifted by (`fst_iterate`). The flags are those of the last shift by
one, whatever they were before it (`apply_of_succ`); only the overflow of a logical shift to the
right tells of the word as it was at first (`shr_of_succ`).
-/

namespace AsmTrace.ShiftOp

open Arithmetic (shiftCount)

variable (op : ShiftOp) (a count : Word) (f : Flags) (n : Nat)

/-! ## Words -/

/-- The word shifted by `n` bits. -/
def shifted (a : Word) (n : Nat) : ShiftOp → Word
  | .shl => a <<< n
  | .shr => a >>> n
  | .sar => a.sshiftRight n

/-- The bits that leave the word when it is shifted by `n` bits, in the order in which they leave
it: from the highest down, or from the lowest up. -/
def bitsOut (a : Word) (n : Nat) : ShiftOp → List Bool
  | .shl => (List.range n).map a.getMsbD
  | .shr | .sar => (List.range n).map a.getLsbD

/-- A shift by one. -/
def once (s : Word × Flags) : Word × Flags := op.apply s.1 1 s.2

@[simp] theorem shifted_zero : op.shifted a 0 = a := by
  cases op with
  | shl => exact BitVec.shiftLeft_zero a
  | shr => exact BitVec.ushiftRight_zero a
  | sar => exact BitVec.sshiftRight_zero

/-- Shifting by one more is shifting once more. -/
theorem shifted_succ : op.shifted a (n + 1) = op.shifted (op.shifted a n) 1 := by
  cases op with
  | shl => exact BitVec.shiftLeft_add a n 1
  | shr => exact BitVec.shiftRight_add a n 1
  | sar => exact BitVec.sshiftRight_add

@[simp] theorem toInt_shifted_shl :
    (ShiftOp.shl.shifted a n).toInt = (a.toInt * 2 ^ n).bmod 0x100000000 := by
  change (a <<< n).toInt = _
  rw [BitVec.toInt_shiftLeft, Nat.shiftLeft_eq, BitVec.toInt_eq_toNat_bmod, Int.natCast_mul,
    Int.natCast_pow]
  exact (Int.bmod_mul_bmod).symm

@[simp] theorem toNat_shifted_shr : (ShiftOp.shr.shifted a n).toNat = a.toNat / 2 ^ n := by
  change (a >>> n).toNat = _
  rw [BitVec.toNat_ushiftRight, Nat.shiftRight_eq_div_pow]

@[simp] theorem toInt_shifted_sar : (ShiftOp.sar.shifted a n).toInt = a.toInt.fdiv (2 ^ n) := by
  change (a.sshiftRight n).toInt = _
  rw [BitVec.toInt_sshiftRight, Int.shiftRight_eq_div_pow, Int.natCast_pow,
    Int.fdiv_eq_ediv_of_nonneg _ (by positivity)]
  rfl

/-! ## Counts -/

/-- The count is taken modulo 32 also if it is negative. -/
theorem shiftCount_eq : (shiftCount count : Int) = count.toInt % 32 := by
  have lt := count.isLt
  rw [shiftCount, BitVec.toInt_eq_toNat_cond]
  split <;> omega

variable {count n}

/-- Counts are below the width of a word. -/
theorem lt_of_shiftCount (bits : shiftCount count = n + 1) : n < 32 := by
  have lt : shiftCount count < 32 := Nat.mod_lt _ (by decide)
  omega

/-- A count of zero changes neither word nor flags. -/
theorem apply_of_zero (zero : shiftCount count = 0) : op.apply a count f = (a, f) := by
  cases op <;> simp only [apply, Arithmetic.shl, Arithmetic.shr, Arithmetic.sar, zero]

@[simp] theorem fst_apply : (op.apply a count f).1 = op.shifted a (shiftCount count) := by
  cases bits : shiftCount count with
  | zero => rw [apply_of_zero op a f bits, shifted_zero]
  | succ n =>
    cases op <;> simp only [apply, Arithmetic.shl, Arithmetic.shr, Arithmetic.sar, bits, shifted]

/-- Shifting by one again and again comes to the word that is shifted at once. -/
@[simp] theorem fst_iterate : (op.once^[n] (a, f)).1 = op.shifted a n := by
  induction n with
  | zero => exact (shifted_zero op a).symm
  | succ n ih =>
    rw [Function.iterate_succ_apply', once, fst_apply, ih, shifted_succ]
    rfl

/-! ## Flags -/

/-- The last shift by one sets all flags, so the word before it is all that they depend on. -/
theorem apply_of_succ {op : ShiftOp} (other : op ≠ .shr) (f' : Flags)
    (bits : shiftCount count = n + 1) : op.apply a count f = op.once (op.shifted a n, f') := by
  have lt := lt_of_shiftCount bits
  have word := shifted_succ op a n
  cases op with
  | shl =>
    have out : a.getLsbD (31 - n) = (a <<< n).getLsbD 31 := by
      rw [BitVec.getLsbD_shiftLeft]
      simp [Nat.le_of_lt_succ lt]
    simp only [shifted] at word
    simp only [apply, Arithmetic.shl, bits, word, out]
    rfl
  | shr => exact absurd rfl other
  | sar =>
    have out : a.getLsbD n = (a.sshiftRight n).getLsbD 0 := by
      rw [BitVec.getLsbD_sshiftRight]
      simp [lt]
    simp only [shifted] at word
    simp only [apply, Arithmetic.sar, bits, word, out]
    rfl

/-- A logical shift to the right reports the sign of the word that it was given as overflow, where
the last shift by one reports that of the word before it. -/
theorem shr_of_succ (f' : Flags) (bits : shiftCount count = n + 1) :
    ShiftOp.shr.apply a count f =
      ((ShiftOp.shr.once (ShiftOp.shr.shifted a n, f')).1,
        { (ShiftOp.shr.once (ShiftOp.shr.shifted a n, f')).2 with overflow := a.msb }) := by
  have word : a >>> (n + 1) = a >>> n >>> 1 := shifted_succ .shr a n
  have out : a.getLsbD n = (a >>> n).getLsbD 0 := (BitVec.getLsbD_ushiftRight a n 0).symm
  simp only [apply, Arithmetic.shr, bits, word, out]
  rfl

/-- A shift is as many shifts by one. -/
theorem apply_eq_iterate {op : ShiftOp} (other : op ≠ .shr) :
    op.apply a count f = op.once^[shiftCount count] (a, f) := by
  cases bits : shiftCount count with
  | zero => exact apply_of_zero op a f bits
  | succ n =>
    rw [Function.iterate_succ_apply', apply_of_succ a f other (op.once^[n] (a, f)).2 bits,
      ← fst_iterate op a f]

/-- So is `SHR`, but for the overflow, which is the sign before the first. -/
theorem shr_eq_iterate :
    ShiftOp.shr.apply a count f =
      ((ShiftOp.shr.once^[shiftCount count] (a, f)).1,
        { (ShiftOp.shr.once^[shiftCount count] (a, f)).2 with
          overflow := if shiftCount count = 0 then f.overflow else a.msb }) := by
  cases bits : shiftCount count with
  | zero => exact apply_of_zero .shr a f bits
  | succ n =>
    rw [Function.iterate_succ_apply', if_neg (Nat.succ_ne_zero n),
      shr_of_succ a f (ShiftOp.shr.once^[n] (a, f)).2 bits, ← fst_iterate .shr a f]

/-- The carry is the last bit that leaves the word. -/
theorem carry_apply :
    (op.apply a count f).2.carry = (op.bitsOut a (shiftCount count)).getLast?.getD f.carry := by
  cases bits : shiftCount count with
  | zero =>
    rw [apply_of_zero op a f bits]
    cases op <;> rfl
  | succ n =>
    have lt := lt_of_shiftCount bits
    cases op with
    | shl =>
      simp only [apply, Arithmetic.shl, bits, bitsOut, List.range_succ, List.map_append,
        List.map_singleton, List.getLast?_concat, Option.getD_some, BitVec.getMsbD, lt, decide_true,
        Bool.true_and]
    | shr | sar =>
      simp only [apply, Arithmetic.shr, Arithmetic.sar, bits, bitsOut, List.range_succ,
        List.map_append, List.map_singleton, List.getLast?_concat, Option.getD_some]

/-- With the count modulo 32, also of a negative one: a shift to the left and an arithmetic shift to
the right give the word and the flags of as many shifts by one, and so does a logical shift to the
right, except that its overflow is the sign of the word it was given. Nothing changes if this number
is zero. The word is multiplied by the power of two and reduced, or divided by it and rounded down,
on the unsigned or the signed reading; the carry is the last bit that leaves the word. -/
theorem shifts_repeated (a count : Word) (f : Flags) :
    ∃ n : Nat, (n : Int) = count.toInt % 32 ∧
      ShiftOp.shl.apply a count f = ShiftOp.shl.once^[n] (a, f) ∧
      ShiftOp.sar.apply a count f = ShiftOp.sar.once^[n] (a, f) ∧
      ShiftOp.shr.apply a count f =
        ((ShiftOp.shr.once^[n] (a, f)).1,
          { (ShiftOp.shr.once^[n] (a, f)).2 with
            overflow := if n = 0 then f.overflow else decide (a.toInt < 0) }) ∧
      (n = 0 → ∀ op : ShiftOp, op.apply a count f = (a, f)) ∧
      (ShiftOp.shl.apply a count f).1.toInt = (a.toInt * 2 ^ n).bmod 0x100000000 ∧
      (ShiftOp.shr.apply a count f).1.toNat = a.toNat / 2 ^ n ∧
      (ShiftOp.sar.apply a count f).1.toInt = a.toInt.fdiv (2 ^ n) ∧
      ∀ op : ShiftOp, (op.apply a count f).2.carry = (op.bitsOut a n).getLast?.getD f.carry := by
  refine ⟨shiftCount count, shiftCount_eq count, apply_eq_iterate a f (by decide),
    apply_eq_iterate a f (by decide), ?_, fun zero op => apply_of_zero op a f zero, ?_, ?_, ?_,
    fun op => carry_apply op a f⟩
  · rw [← BitVec.msb_eq_toInt]
    exact shr_eq_iterate a f
  · rw [fst_apply, toInt_shifted_shl]
  · rw [fst_apply, toNat_shifted_shr]
  · rw [fst_apply, toInt_shifted_sar]

/-- A count of minus thirty-one shifts by one, and one of minus thirty-two not at all. -/
theorem shifts_repeated_negative :
    ShiftOp.shl.apply 0x80000001 (-31) {} = ShiftOp.shl.once (0x80000001, {}) ∧
    ShiftOp.sar.apply (-5) (-32) { zero := true } = (-5, { zero := true }) := by
  obtain ⟨n, oneBit, repeated, -⟩ := shifts_repeated 0x80000001 (-31) {}
  obtain ⟨k, noBits, -, -, -, unchanged, -⟩ := shifts_repeated (-5) (-32) { zero := true }
  have one : n = 1 := by
    have count : (-31 : Word).toInt % 32 = 1 := by decide
    omega
  have zero : k = 0 := by
    have count : (-32 : Word).toInt % 32 = 0 := by decide
    omega
  rw [one] at repeated
  exact ⟨repeated, unchanged zero .sar⟩

end AsmTrace.ShiftOp
