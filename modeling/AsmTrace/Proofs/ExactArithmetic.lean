import AsmTrace.Arithmetic

/-!
# Arithmetic against exact integers

Each arithmetic operation has an exact integer result, and one rule says what becomes of it: the
word is the integer reduced to 32 bits, zero and sign are those of the word, and there is an
overflow if the integer is no signed word. Only the carry differs from operation to operation.
`Agrees` is the rule; it leaves no choice (`Agrees.unique`), so operations with the same exact
result have the same outcome, whatever shortcuts their flags are computed by.
-/

namespace AsmTrace.Arithmetic

/-! ## The rule -/

/-- The integers that are the signed reading of a word. -/
def FitsSigned (x : Int) : Prop := -0x80000000 ≤ x ∧ x < 0x80000000

/-- The integers that are the unsigned reading of a word. -/
def FitsUnsigned (x : Int) : Prop := 0 ≤ x ∧ x < 0x100000000

instance (x : Int) : Decidable (FitsSigned x) := inferInstanceAs (Decidable (_ ∧ _))

instance (x : Int) : Decidable (FitsUnsigned x) := inferInstanceAs (Decidable (_ ∧ _))

/-- `Agrees x carry outcome` holds when `outcome` is what becomes of the exact integer `x`, with the
carry set as `carry` says. -/
structure Agrees (x : Int) (carry : Prop) (outcome : Word × Flags) : Prop where
  result : outcome.1.toInt = x.bmod 0x100000000
  zero : outcome.2.zero = true ↔ outcome.1.toInt = 0
  sign : outcome.2.sign = true ↔ outcome.1.toInt < 0
  overflow : outcome.2.overflow = true ↔ ¬ FitsSigned x
  carry : outcome.2.carry = true ↔ carry

variable {x : Int} {q q' : Prop} {outcome outcome' : Word × Flags}

/-- The same exact integer comes to the same word and flags, up to the carry. -/
theorem Agrees.eq_but_carry (h : Agrees x q outcome) (h' : Agrees x q' outcome') :
    outcome = (outcome'.1, { outcome'.2 with carry := outcome.2.carry }) := by
  have result : outcome.1 = outcome'.1 := BitVec.toInt_inj.1 (h.result.trans h'.result.symm)
  have zero : outcome.2.zero = outcome'.2.zero := by
    rw [Bool.eq_iff_iff, h.zero, h'.zero, result]
  have sign : outcome.2.sign = outcome'.2.sign := by
    rw [Bool.eq_iff_iff, h.sign, h'.sign, result]
  have overflow : outcome.2.overflow = outcome'.2.overflow := by
    rw [Bool.eq_iff_iff, h.overflow, h'.overflow]
  obtain ⟨r, ⟨z, c, s, o⟩⟩ := outcome
  obtain ⟨r', ⟨z', c', s', o'⟩⟩ := outcome'
  cases result
  cases zero
  cases sign
  cases overflow
  rfl

/-- Only one outcome agrees with an exact result. -/
theorem Agrees.unique (h : Agrees x q outcome) (h' : Agrees x q outcome') : outcome = outcome' := by
  have carry : outcome.2.carry = outcome'.2.carry := by
    rw [Bool.eq_iff_iff, h.carry, h'.carry]
  rw [h.eq_but_carry h', carry]

theorem Agrees.congr {y : Int} (h : Agrees x q outcome) (same : x = y) (iff : q ↔ q') :
    Agrees y q' outcome := by
  rw [← same]
  exact { h with carry := h.carry.trans iff }

/-! ## Words as integers -/

theorem fitsSigned_toInt (a : Word) : FitsSigned a.toInt := ⟨a.le_toInt, a.toInt_lt⟩

/-- The integers that are signed words are those that reducing leaves alone. -/
theorem bmod_eq_self_iff : x.bmod 0x100000000 = x ↔ FitsSigned x := by
  rw [Int.bmod_eq_iff (by decide)]
  unfold FitsSigned
  constructor
  · rintro ⟨le, lt, -⟩
    exact ⟨le, lt⟩
  · rintro ⟨le, lt⟩
    exact ⟨le, lt, by simp⟩

/-- A word with the flags of its value agrees with an integer that it is the reduction of. -/
theorem agrees_resultFlags {r : Word} {carry overflow : Bool} (f : Flags)
    (reduced : r.toInt = x.bmod 0x100000000) (carries : carry = true ↔ q)
    (overflows : overflow = true ↔ ¬ FitsSigned x) :
    Agrees x q (r, { resultFlags r f with carry, overflow }) where
  result := reduced
  zero := by
    change (r == 0) = true ↔ r.toInt = 0
    rw [beq_iff_eq, ← BitVec.toInt_inj]
    rfl
  sign := by
    change r.msb = true ↔ r.toInt < 0
    rw [BitVec.msb_eq_toInt, decide_eq_true_iff]
  overflow := overflows
  carry := carries

/-! ## The operations -/

variable (a b : Word) (f : Flags)

/-- The sum of two words of one sign has the other sign just when it is out of range. -/
theorem overflow_add_iff :
    (a.msb == b.msb && (a + b).msb != a.msb) = true ↔ ¬ FitsSigned (a.toInt + b.toInt) := by
  have overflow : (a.msb == b.msb && (a + b).msb != a.msb) = a.saddOverflow b :=
    (BitVec.saddOverflow_eq a b).symm
  rw [overflow, BitVec.saddOverflow, Bool.or_eq_true, decide_eq_true_iff, decide_eq_true_iff]
  unfold FitsSigned
  omega

/-- The overflow of a difference: the exact one does not fit a signed word. -/
theorem overflow_sub_iff :
    (a.msb != b.msb && (a - b).msb != a.msb) = true ↔ ¬ FitsSigned (a.toInt - b.toInt) := by
  have overflow : (a.msb != b.msb && (a - b).msb != a.msb) = a.ssubOverflow b := by
    rw [BitVec.ssubOverflow_eq]
    cases a.msb <;> cases b.msb <;> cases (a - b).msb <;> rfl
  rw [overflow, BitVec.ssubOverflow, Bool.or_eq_true, decide_eq_true_iff, decide_eq_true_iff]
  unfold FitsSigned
  omega

/-- A sum is below an addend just when it was too large. -/
theorem carry_add_iff : (a + b).ult a = true ↔ ¬ FitsUnsigned ((a.toNat : Int) + b.toNat) := by
  have ha := a.isLt
  have hb := b.isLt
  rw [BitVec.ult, decide_eq_true_iff, BitVec.toNat_add]
  unfold FitsUnsigned
  omega

/-- The borrow of a difference: the exact one is negative. -/
theorem carry_sub_iff : a.ult b = true ↔ ¬ FitsUnsigned ((a.toNat : Int) - b.toNat) := by
  have ha := a.isLt
  rw [BitVec.ult, decide_eq_true_iff]
  unfold FitsUnsigned
  omega

/-- The product of two words is exact in a double word. -/
theorem toInt_mul_signExtend :
    (a.signExtend 64 * b.signExtend 64).toInt = a.toInt * b.toInt := by
  have le := BitVec.toInt_mul_toInt_le (x := a) (y := b)
  have ge := BitVec.le_toInt_mul_toInt (x := a) (y := b)
  rw [BitVec.toInt_mul, BitVec.toInt_signExtend_of_le (by decide),
    BitVec.toInt_signExtend_of_le (by decide)]
  apply Int.bmod_eq_of_le
  · omega
  · omega

/-- The overflow of a product: the exact one does not fit a signed word. -/
theorem overflow_imul_iff :
    (a.signExtend 64 * b.signExtend 64 != (a * b).signExtend 64) = true ↔
      ¬ FitsSigned (a.toInt * b.toInt) := by
  rw [bne_iff_ne, ne_eq, ← BitVec.toInt_inj, toInt_mul_signExtend,
    BitVec.toInt_signExtend_of_le (by decide), BitVec.toInt_mul, eq_comm]
  exact not_congr bmod_eq_self_iff

/-- `ADD` agrees with the exact sum. -/
theorem agrees_add :
    Agrees (a.toInt + b.toInt) (¬ FitsUnsigned ((a.toNat : Int) + b.toNat)) (add a b f) :=
  agrees_resultFlags f (BitVec.toInt_add a b) (carry_add_iff a b) (overflow_add_iff a b)

/-- `SUB` agrees with the exact difference. -/
theorem agrees_sub :
    Agrees (a.toInt - b.toInt) (¬ FitsUnsigned ((a.toNat : Int) - b.toNat)) (sub a b f) :=
  agrees_resultFlags f BitVec.toInt_sub (carry_sub_iff a b) (overflow_sub_iff a b)

/-- `IMUL` agrees with the exact product. -/
theorem agrees_imul :
    Agrees (a.toInt * b.toInt) (¬ FitsSigned (a.toInt * b.toInt)) (imul a b f) :=
  agrees_resultFlags f (BitVec.toInt_mul a b) (overflow_imul_iff a b) (overflow_imul_iff a b)

/-- Negating borrows from anything but zero, and only the least word has no negative. -/
theorem agrees_neg : Agrees (-a.toInt) (¬ FitsUnsigned (0 - a.toNat)) (neg a f) := by
  refine agrees_resultFlags f BitVec.toInt_neg ?_ ?_
  · have ha := a.isLt
    rw [bne_iff_ne, ne_eq, ← BitVec.toNat_inj]
    change ¬ a.toNat = 0 ↔ _
    unfold FitsUnsigned
    omega
  · have ha := fitsSigned_toInt a
    rw [beq_iff_eq, ← BitVec.toInt_inj]
    change a.toInt = -0x80000000 ↔ _
    unfold FitsSigned at ha ⊢
    omega

/-- `INC` agrees with adding one, but keeps the carry. -/
theorem agrees_inc : Agrees (a.toInt + 1) (f.carry = true) (inc a f) := by
  refine agrees_resultFlags f (BitVec.toInt_add a 1) Iff.rfl ?_
  have ha := fitsSigned_toInt a
  rw [beq_iff_eq, ← BitVec.toInt_inj]
  change a.toInt = 0x7fffffff ↔ _
  unfold FitsSigned at ha ⊢
  omega

/-- `DEC` agrees with subtracting one, but keeps the carry. -/
theorem agrees_dec : Agrees (a.toInt - 1) (f.carry = true) (dec a f) := by
  refine agrees_resultFlags f (BitVec.toInt_sub (y := 1)) Iff.rfl ?_
  have ha := fitsSigned_toInt a
  rw [beq_iff_eq, ← BitVec.toInt_inj]
  change a.toInt = -0x80000000 ↔ _
  unfold FitsSigned at ha ⊢
  omega

/-- Every arithmetic operation agrees with the exact integer it stands for. The carry tells of the
unsigned readings in sums, differences and negations and is the overflow in products; incrementing
and decrementing keep it. So negating is subtracting from zero, and incrementing and decrementing
are adding and subtracting one, but for the carry. -/
theorem agrees_with_integers :
    Agrees (a.toInt + b.toInt) (¬ FitsUnsigned ((a.toNat : Int) + b.toNat)) (add a b f) ∧
    Agrees (a.toInt - b.toInt) (¬ FitsUnsigned ((a.toNat : Int) - b.toNat)) (sub a b f) ∧
    Agrees (a.toInt * b.toInt) ((imul a b f).2.overflow = true) (imul a b f) ∧
    Agrees (-a.toInt) (¬ FitsUnsigned (0 - a.toNat)) (neg a f) ∧
    Agrees (a.toInt + 1) (f.carry = true) (inc a f) ∧
    Agrees (a.toInt - 1) (f.carry = true) (dec a f) ∧
    neg a f = sub 0 a f ∧
    inc a f = ((add a 1 f).1, { (add a 1 f).2 with carry := f.carry }) ∧
    dec a f = ((sub a 1 f).1, { (sub a 1 f).2 with carry := f.carry }) := by
  refine ⟨agrees_add a b f, agrees_sub a b f, ?_, agrees_neg a f, agrees_inc a f, agrees_dec a f,
    ?_, ?_, ?_⟩
  · have h := agrees_imul a b f
    exact h.congr rfl h.overflow.symm
  · have h : Agrees (-a.toInt) (¬ FitsUnsigned (0 - a.toNat)) (sub 0 a f) :=
      (agrees_sub 0 a f).congr (Int.zero_sub _) Iff.rfl
    exact (agrees_neg a f).unique h
  · exact (agrees_inc a f).eq_but_carry (agrees_add a 1 f)
  · exact (agrees_dec a f).eq_but_carry (agrees_sub a 1 f)

end AsmTrace.Arithmetic
