import AsmTrace.Proofs.ExactArithmetic
import AsmTrace.Proofs.Runs

/-!
# Comparisons and conditional jumps

After a comparison every condition means the relation between the compared words that it is named
for, signed or unsigned (`Condition.holds_cmp_iff`). A test of two words comes to a comparison of
their conjunction with zero (`flags_test`), so what conditions mean after a test follows. A
conditional jump right after a comparison is then taken if and only if the words stand in the
relation.
-/

namespace AsmTrace

open Arithmetic

/-! ## What conditions mean -/

namespace Condition

/-- What a condition asks of two words that were compared. -/
def Relates (a b : Word) : Condition → Prop
  | .equal => a = b
  | .notEqual => a ≠ b
  | .greater => b.toInt < a.toInt
  | .greaterOrEqual => b.toInt ≤ a.toInt
  | .less => a.toInt < b.toInt
  | .lessOrEqual => a.toInt ≤ b.toInt
  | .above => b.toNat < a.toNat
  | .aboveOrEqual => b.toNat ≤ a.toNat
  | .below => a.toNat < b.toNat
  | .belowOrEqual => a.toNat ≤ b.toNat
  | .sign => (a.toInt - b.toInt).bmod 0x100000000 < 0
  | .notSign => 0 ≤ (a.toInt - b.toInt).bmod 0x100000000
  | .overflow => ¬ FitsSigned (a.toInt - b.toInt)
  | .notOverflow => FitsSigned (a.toInt - b.toInt)

end Condition

namespace CompareOp

variable (a b : Word) (f : Flags)

theorem zero_cmp : (flags a b f .cmp).zero = decide (a = b) := by
  change (a - b == 0#32) = decide (a = b)
  rw [Bool.eq_iff_iff, beq_iff_eq, decide_eq_true_iff, BitVec.sub_eq_iff_eq_add, BitVec.zero_add]

theorem carry_cmp : (flags a b f .cmp).carry = decide (a.toNat < b.toNat) := rfl

theorem sign_cmp :
    (flags a b f .cmp).sign = decide ((a.toInt - b.toInt).bmod 0x100000000 < 0) := by
  have difference := agrees_sub a b f
  rw [Bool.eq_iff_iff, decide_eq_true_iff, ← difference.result]
  exact difference.sign

theorem overflow_cmp : (flags a b f .cmp).overflow = decide (¬ FitsSigned (a.toInt - b.toInt)) := by
  rw [Bool.eq_iff_iff, decide_eq_true_iff]
  exact (agrees_sub a b f).overflow

/-- The sign of the difference is wrong just when it overflows, so the two flags together tell the
signed order. -/
theorem sign_ne_overflow_cmp :
    ((flags a b f .cmp).sign != (flags a b f .cmp).overflow) = decide (a.toInt < b.toInt) := by
  have ha := fitsSigned_toInt a
  have hb := fitsSigned_toInt b
  rw [sign_cmp, overflow_cmp, Bool.eq_iff_iff, bne_iff_ne, ne_eq, decide_eq_decide,
    decide_eq_true_iff, Int.bmod_def]
  unfold FitsSigned at ha hb ⊢
  split <;> omega

/-- The flags of a test are those of a comparison with zero. -/
theorem flags_test : flags a b f .test = flags (a &&& b) 0 f .cmp := by
  simp [flags, logic, sub, BitVec.ult]

end CompareOp

namespace Condition

open CompareOp

variable (a b : Word) (f : Flags)

/-- After a comparison a condition holds if and only if the words are so related. -/
@[simp] theorem holds_cmp_iff (k : Condition) :
    k.holds (CompareOp.flags a b f .cmp) = true ↔ k.Relates a b := by
  have equal : a = b ↔ a.toInt = b.toInt := BitVec.toInt_inj.symm
  have equal' : a = b ↔ a.toNat = b.toNat := BitVec.toNat_inj.symm
  have less := sign_ne_overflow_cmp a b f
  have notLess : ((CompareOp.flags a b f .cmp).sign == (CompareOp.flags a b f .cmp).overflow) =
      !decide (a.toInt < b.toInt) := by
    rw [← less, bne, Bool.not_not]
  cases k with
  | equal => simp only [holds, Relates, zero_cmp, decide_eq_true_iff]
  | notEqual => simp [holds, Relates, zero_cmp]
  | greater =>
    simp only [holds, Relates, zero_cmp, notLess, Bool.and_eq_true, Bool.not_eq_true',
      decide_eq_false_iff_not, equal]
    omega
  | greaterOrEqual =>
    simp only [holds, Relates, notLess, Bool.not_eq_true', decide_eq_false_iff_not, Int.not_lt]
  | less => simp only [holds, Relates, less, decide_eq_true_iff]
  | lessOrEqual =>
    simp only [holds, Relates, zero_cmp, less, Bool.or_eq_true, decide_eq_true_iff, equal]
    omega
  | above =>
    simp only [holds, Relates, zero_cmp, carry_cmp, Bool.and_eq_true, Bool.not_eq_true',
      decide_eq_false_iff_not, equal']
    omega
  | aboveOrEqual =>
    simp only [holds, Relates, carry_cmp, Bool.not_eq_true', decide_eq_false_iff_not, Nat.not_lt]
  | below => simp only [holds, Relates, carry_cmp, decide_eq_true_iff]
  | belowOrEqual =>
    simp only [holds, Relates, zero_cmp, carry_cmp, Bool.or_eq_true, decide_eq_true_iff, equal']
    omega
  | sign => simp only [holds, Relates, sign_cmp, decide_eq_true_iff]
  | notSign =>
    simp only [holds, Relates, sign_cmp, Bool.not_eq_true', decide_eq_false_iff_not, Int.not_lt]
  | overflow => simp only [holds, Relates, overflow_cmp, decide_eq_true_iff]
  | notOverflow =>
    simp only [holds, Relates, overflow_cmp, Bool.not_eq_true', decide_eq_false_iff_not,
      Decidable.not_not]

instance (k : Condition) : Decidable (k.Relates a b) :=
  decidable_of_iff _ (holds_cmp_iff a b {} k)

/-- After a test a condition holds if and only if the conjunction is so related to zero. -/
@[simp] theorem holds_test_iff (k : Condition) :
    k.holds (CompareOp.flags a b f .test) = true ↔ k.Relates (a &&& b) 0 := by
  rw [flags_test]
  exact holds_cmp_iff (a &&& b) 0 f k

theorem not_below_zero : ¬ Condition.below.Relates a 0 := Nat.not_lt_zero _

theorem not_overflow_zero : ¬ Condition.overflow.Relates a 0 := by
  change ¬ ¬ FitsSigned (a.toInt - 0)
  rw [Int.sub_zero, Decidable.not_not]
  exact fitsSigned_toInt a

/-- A conjunction is negative if and only if both words have their highest bit. -/
theorem less_zero_iff :
    Condition.less.Relates (a &&& b) 0 ↔ a.getLsbD 31 = true ∧ b.getLsbD 31 = true := by
  change (a &&& b).toInt < 0 ↔ _
  rw [← decide_eq_true_iff (p := (a &&& b).toInt < 0), ← BitVec.msb_eq_toInt, BitVec.msb_and,
    Bool.and_eq_true, BitVec.msb_eq_getLsbD_last, BitVec.msb_eq_getLsbD_last]

end Condition

/-! ## Jumps after comparisons -/

namespace Execution

variable {p : Program} {c : Config} {e : Execution} {lhs : Place} {rhs : Value} {a b : Word}

/-- A comparison sets the flags and goes on. -/
theorem effectOf_compare {i : Instruction} {op : CompareOp}
    (decoded : i.operation = .compare op lhs rhs)
    (left : e.machine.load lhs = .ok a) (right : e.machine.value rhs = .ok b) :
    e.effectOf p i =
      ⟨e.machine.setFlags (op.flags a b e.machine.flags), e.callDepth, .ok .next⟩ := by
  rw [effectOf, decoded]
  simp only [Operation.execute, left, right]
  rfl

/-- A conditional jump looks at the flags and changes nothing. -/
theorem effectOf_jump {i : Instruction} {k : Condition} {target : Nat}
    (decoded : i.operation = .jump (some k) target) :
    e.effectOf p i = ⟨e.machine, e.callDepth,
      .ok (if k.holds e.machine.flags = true then .jump target else .next)⟩ := by
  rw [effectOf, decoded]
  rfl

/-- `Branches p c e op lhs rhs k target` holds when the next two instructions are a comparison and a
jump on a condition, and the limit allows both. -/
structure Branches (p : Program) (c : Config) (e : Execution) (op : CompareOp) (lhs : Place)
    (rhs : Value) (k : Condition) (target : Nat) : Prop where
  active : e.Active
  comparison : ∃ i, p.fetch? e.pc = some i ∧ i.operation = .compare op lhs rhs
  jump : ∃ i, p.fetch? (e.pc + 1) = some i ∧ i.operation = .jump (some k) target
  allowed : e.steps + 1 < c.stepLimit

/-- Where control is after a comparison and a conditional jump. -/
theorem Branches.pc_eq {op : CompareOp} {k : Condition} {target : Nat}
    (h : e.Branches p c op lhs rhs k target) (left : e.machine.load lhs = .ok a)
    (right : e.machine.value rhs = .ok b) :
    ((e.step p c).after.step p c).after.pc =
      if k.holds (op.flags a b e.machine.flags) = true then target else e.pc + 2 := by
  obtain ⟨i, fetched, compares⟩ := h.comparison
  obtain ⟨j, fetched', jumps⟩ := h.jump
  have allowed : e.steps < c.stepLimit := Nat.lt_of_succ_lt h.allowed
  have compared := effectOf_compare (p := p) compares left right
  have first := step_of_ok h.active fetched allowed (congrArg Effect.control compared)
  have flags : (e.performed p i .next).machine.flags = op.flags a b e.machine.flags := by
    rw [performed_machine, compared, Machine.setFlags_flags]
  have jumped := effectOf_jump (p := p) (e := e.performed p i .next) jumps
  rw [flags] at jumped
  have second := step_of_ok (c := c) (e := e.performed p i .next) (.inr rfl) fetched' h.allowed
    (congrArg Effect.control jumped)
  rw [first, second]
  split <;> simp

/-- After a comparison of two words, whatever the flags were, each condition holds if and only if
the words are so related. After a test, they are equal for a jump if no bit is common, neither below
nor overflowing, and less if both highest bits are set. A program that compares and then jumps on a
condition jumps if and only if the words are so related. -/
theorem branch_on_comparison (a b : Word) (f : Flags) :
    (∀ k : Condition, k.holds (CompareOp.flags a b f .cmp) = true ↔ k.Relates a b) ∧
    (Condition.equal.holds (CompareOp.flags a b f .test) = true ↔ a &&& b = 0) ∧
    Condition.below.holds (CompareOp.flags a b f .test) = false ∧
    Condition.overflow.holds (CompareOp.flags a b f .test) = false ∧
    (Condition.less.holds (CompareOp.flags a b f .test) = true ↔
      a.getLsbD 31 = true ∧ b.getLsbD 31 = true) ∧
    ∀ (p : Program) (c : Config) (e : Execution) (lhs : Place) (rhs : Value) (k : Condition)
      (target : Nat), e.machine.load lhs = .ok a → e.machine.value rhs = .ok b →
      (e.Branches p c .cmp lhs rhs k target →
        ((e.step p c).after.step p c).after.pc = if k.Relates a b then target else e.pc + 2) ∧
      (e.Branches p c .test lhs rhs k target →
        ((e.step p c).after.step p c).after.pc =
          if k.Relates (a &&& b) 0 then target else e.pc + 2) := by
  refine ⟨Condition.holds_cmp_iff a b f, Condition.holds_test_iff a b f .equal, ?_, ?_, ?_, ?_⟩
  · rw [← Bool.not_eq_true, Condition.holds_test_iff]
    exact Condition.not_below_zero (a &&& b)
  · rw [← Bool.not_eq_true, Condition.holds_test_iff]
    exact Condition.not_overflow_zero (a &&& b)
  · rw [Condition.holds_test_iff]
    exact Condition.less_zero_iff a b
  · intro p c e lhs rhs k target left right
    constructor
    · intro branches
      rw [branches.pc_eq left right]
      simp only [Condition.holds_cmp_iff]
    · intro branches
      rw [branches.pc_eq left right]
      simp only [Condition.holds_test_iff]

/-- The least signed word is less than one and above it, and their difference overflows. -/
theorem branch_on_comparison_least :
    ∃ (p : Program) (c : Config) (e : Execution),
      e.Branches p c .cmp (.register .ax) (.immediate 1) .less 5 ∧
      e.machine.load (.register .ax) = .ok 0x80000000 ∧
      (∀ f, Condition.above.holds (CompareOp.flags 0x80000000 1 f .cmp) = true) ∧
      (∀ f, Condition.overflow.holds (CompareOp.flags 0x80000000 1 f .cmp) = true) ∧
      ((e.step p c).after.step p c).after.pc = 5 := by
  let p : Program :=
    { instructions :=
        #[⟨1, .compare .cmp (.register .ax) (.immediate 1)⟩, ⟨2, .jump (some .less) 5⟩]
      labels := {}
      data := [] }
  let e : Execution := { machine := (Machine.new {}).setRegister .ax 0x80000000 }
  have branches : e.Branches p {} .cmp (.register .ax) (.immediate 1) .less 5 :=
    ⟨.inl rfl, ⟨_, rfl, rfl⟩, ⟨_, rfl, rfl⟩, by decide⟩
  have compared (f : Flags) := branch_on_comparison 0x80000000 1 f
  refine ⟨p, {}, e, branches, rfl, ?_, ?_, ?_⟩
  · intro f
    exact ((compared f).1 .above).2 (by decide)
  · intro f
    exact ((compared f).1 .overflow).2 (by decide)
  · obtain ⟨-, -, -, -, -, jumps⟩ := compared {}
    exact (jumps p {} e _ _ .less 5 rfl rfl).1 branches

end Execution

end AsmTrace
