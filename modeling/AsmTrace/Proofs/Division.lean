import AsmTrace.Proofs.ExactArithmetic
import AsmTrace.Proofs.Results
import AsmTrace.Proofs.Runs

/-!
# Division of double words

Dividing the double word `high:low` is dividing an exact integer and rounding toward zero. Such a
division is told by what its quotient and remainder satisfy (`Truncates`), and that leaves one
quotient and one remainder (`truncates_iff`). The quotient may be too wide for a word, and then
there is no result; the remainder never is. A word that is extended by its sign can be divided by
anything but zero, except for the least word by minus one. All this is the same for a machine that
computes in 64 bits (`idiv_eq_idiv64`).
-/

namespace AsmTrace

namespace Arithmetic

/-! ## Rounding toward zero -/

/-- `Truncates n d q r` holds when `q` and `r` are quotient and remainder of `n` by `d`, with the
quotient rounded toward zero. -/
structure Truncates (n d q r : Int) : Prop where
  whole : n = q * d + r
  smaller : r.natAbs < d.natAbs
  sign : r = 0 ∨ r.sign = n.sign

variable {n d q r : Int}

/-- The quotient and the remainder of division toward zero. -/
theorem truncates_tdiv (n : Int) (nonzero : d ≠ 0) : Truncates n d (n.tdiv d) (n.tmod d) where
  whole := (Int.tdiv_mul_add_tmod n d).symm
  smaller := by
    rw [Int.natAbs_tmod]
    exact Nat.mod_lt _ (Int.natAbs_pos.2 nonzero)
  sign := by
    have sign := Int.sign_tmod n d
    split at sign
    · exact .inl (Int.sign_eq_zero_iff_zero.1 sign)
    · exact .inr sign

/-- There is one quotient and one remainder. -/
theorem truncates_iff (nonzero : d ≠ 0) : Truncates n d q r ↔ n.tdiv d = q ∧ n.tmod d = r := by
  constructor
  · rintro ⟨whole, smaller, sign⟩
    have sum : r + d * q = n := by rw [whole, Int.mul_comm, Int.add_comm]
    rcases Int.le_total 0 n with positive | negative
    · have nonneg : 0 ≤ r := by
        rcases sign with rfl | sign
        · exact Int.le_refl 0
        · rw [← Int.sign_nonneg_iff, sign]
          exact Int.sign_nonneg_iff.2 positive
      exact (Int.tdiv_tmod_unique positive nonzero).2 ⟨sum, nonneg, by omega⟩
    · have nonpos : r ≤ 0 := by
        rcases sign with rfl | sign
        · exact Int.le_refl 0
        · rw [← Int.sign_nonpos_iff, sign]
          exact Int.sign_nonpos_iff.2 negative
      exact (Int.tdiv_tmod_unique' negative nonzero).2 ⟨sum, by omega, nonpos⟩
  · rintro ⟨rfl, rfl⟩
    exact truncates_tdiv n nonzero

/-- The quotient of a signed word is one, except that of the least word by minus one. -/
theorem fitsSigned_tdiv_iff (fits : FitsSigned n) (nonzero : d ≠ 0) :
    FitsSigned (n.tdiv d) ↔ ¬ (n = -0x80000000 ∧ d = -1) := by
  constructor
  · rintro quotient ⟨rfl, rfl⟩
    exact absurd quotient (by decide)
  · intro other
    apply Classical.byContradiction
    intro wide
    have bound := Int.natAbs_tdiv_le_natAbs n d
    obtain ⟨whole, smaller, -⟩ := truncates_tdiv n nonzero
    unfold FitsSigned at fits wide
    -- no quotient is larger than its dividend, which leaves one integer out of range
    have quotient : n.tdiv d = 0x80000000 := by omega
    rw [quotient] at whole
    omega

/-- A remainder is between the divisor and its negative, so it is a signed word if the divisor
is. -/
theorem Truncates.fitsSigned (h : Truncates n d q r) (fits : FitsSigned d) : FitsSigned r := by
  have smaller := h.smaller
  unfold FitsSigned at fits ⊢
  omega

/-- An integer that fits a word is that of its word. -/
theorem toInt_ofInt (fits : FitsSigned n) : (BitVec.ofInt 32 n).toInt = n := by
  rw [BitVec.toInt_ofInt]
  exact bmod_eq_self_iff.2 fits

/-! ## Double words -/

/-- The integer that a double word stands for: only its high word has a sign. -/
def doubleWord (high low : Word) : Int := high.toInt * 0x100000000 + low.toNat

/-- Two words read as one signed integer. -/
@[simp] theorem toInt_append_eq (high low : Word) :
    (high ++ low : BitVec 64).toInt = doubleWord high low := by
  rw [BitVec.toInt_append, doubleWord, Int.mul_comm]
  rfl

/-- A word extended with its sign is the same integer. -/
@[simp] theorem doubleWord_signExtension (a : Word) : doubleWord (signExtension a) a = a.toInt := by
  rw [BitVec.toInt_eq_msb_cond, doubleWord, signExtension]
  split
  · change -1 * 0x100000000 + (a.toNat : Int) = a.toNat - 0x100000000
    omega
  · change 0 * 0x100000000 + (a.toNat : Int) = a.toNat
    omega

variable {high low divisor : Word}

theorem toInt_ne_zero (nonzero : divisor ≠ 0) : divisor.toInt ≠ 0 := by
  intro zero
  exact nonzero (BitVec.toInt_inj.1 zero)

/-- A quotient that fits a word is given, with its remainder. -/
theorem idiv_eq_of_fits (nonzero : divisor ≠ 0)
    (fits : FitsSigned ((doubleWord high low).tdiv divisor.toInt)) :
    idiv high low divisor =
      .ok (BitVec.ofInt 32 ((doubleWord high low).tdiv divisor.toInt),
        BitVec.ofInt 32 ((doubleWord high low).tmod divisor.toInt)) := by
  simp only [idiv, toInt_append_eq, if_neg nonzero]
  exact if_pos fits

/-- A quotient that fits is given, and with it a remainder that lost nothing. -/
theorem idiv_of_fits (nonzero : divisor ≠ 0)
    (fits : FitsSigned ((doubleWord high low).tdiv divisor.toInt)) :
    ∃ q r, idiv high low divisor = .ok (q, r) ∧
      q.toInt = (doubleWord high low).tdiv divisor.toInt ∧
      r.toInt = (doubleWord high low).tmod divisor.toInt := by
  have truncates := truncates_tdiv (doubleWord high low) (toInt_ne_zero nonzero)
  exact ⟨_, _, idiv_eq_of_fits nonzero fits, toInt_ofInt fits,
    toInt_ofInt (truncates.fitsSigned (fitsSigned_toInt divisor))⟩

/-- A quotient that does not fit is an overflow. -/
theorem idiv_of_not_fits (nonzero : divisor ≠ 0)
    (wide : ¬ FitsSigned ((doubleWord high low).tdiv divisor.toInt)) :
    idiv high low divisor = .error (.overflow (doubleWord high low) divisor.toInt) := by
  simp only [idiv, toInt_append_eq, if_neg nonzero]
  exact if_neg wide

@[simp] theorem idiv_eq_byZero_iff : idiv high low divisor = .error .byZero ↔ divisor = 0 := by
  constructor
  · intro failed
    apply Classical.byContradiction
    intro nonzero
    by_cases fits : FitsSigned ((doubleWord high low).tdiv divisor.toInt)
    · obtain ⟨q, r, divided, -⟩ := idiv_of_fits nonzero fits
      cases divided.symm.trans failed
    · cases (idiv_of_not_fits nonzero fits).symm.trans failed
  · rintro rfl
    rfl

/-- What is given is a quotient that fits and the remainder of division toward zero. -/
theorem idiv_eq_ok (nonzero : divisor ≠ 0) {q r : Word}
    (divided : idiv high low divisor = .ok (q, r)) :
    FitsSigned ((doubleWord high low).tdiv divisor.toInt) ∧
      q.toInt = (doubleWord high low).tdiv divisor.toInt ∧
      Truncates (doubleWord high low) divisor.toInt q.toInt r.toInt := by
  by_cases fits : FitsSigned ((doubleWord high low).tdiv divisor.toInt)
  · obtain ⟨q', r', divided', quotient, remainder⟩ := idiv_of_fits nonzero fits
    cases divided.symm.trans divided'
    refine ⟨fits, quotient, ?_⟩
    exact (truncates_iff (toInt_ne_zero nonzero)).2 ⟨quotient.symm, remainder.symm⟩
  · cases divided.symm.trans (idiv_of_not_fits nonzero fits)

/-! ## Division in 64 bits

The quotient of exact integers is the one that a machine gets that computes in 64 bits and looks for
what has no result there. -/

/-- The double words that have no quotient in 64 bits. -/
def NoQuotient (a b : BitVec 64) : Prop := b = 0 ∨ a = BitVec.intMin 64 ∧ b = -1

instance (a b : BitVec 64) : Decidable (NoQuotient a b) := inferInstanceAs (Decidable (_ ∨ _))

def quotient64? (a b : BitVec 64) : Option (BitVec 64) :=
  if NoQuotient a b then none else some (a.sdiv b)

def remainder64? (a b : BitVec 64) : Option (BitVec 64) :=
  if NoQuotient a b then none else some (a.srem b)

/-- The word that has the value of a signed double word. -/
def narrow? (a : BitVec 64) : Option Word :=
  if FitsSigned a.toInt then some (a.setWidth 32) else none

def idiv64 (high low divisor : Word) : Except DivisionError (Word × Word) :=
  if divisor = 0 then .error .byZero
  else
    let dividend : BitVec 64 := high.signExtend 64 <<< 32 ||| low.setWidth 64
    let divisor := divisor.signExtend 64
    let result := do
      let quotient ← quotient64? dividend divisor
      let remainder ← remainder64? dividend divisor
      let quotient ← narrow? quotient
      return (quotient, remainder.setWidth 32)
    result.elim (.error (.overflow dividend.toInt divisor.toInt)) .ok

theorem shiftLeft_or_eq (high low : Word) :
    (high.signExtend 64 <<< 32 ||| low.setWidth 64 : BitVec 64) = high ++ low := by
  apply BitVec.eq_of_getLsbD_eq
  intro i lt
  have appended : (high ++ low : BitVec 64).getLsbD i =
      if i < 32 then low.getLsbD i else high.getLsbD (i - 32) := BitVec.getLsbD_append
  rw [appended, BitVec.getLsbD_or, BitVec.getLsbD_shiftLeft, BitVec.getLsbD_setWidth,
    BitVec.getLsbD_signExtend]
  by_cases lower : i < 32
  · simp [lower, lt]
  · have upper : i - 32 < 32 := by omega
    have beyond : low.getLsbD i = false := BitVec.getLsbD_of_ge low i (Nat.le_of_not_lt lower)
    have inside : i - 32 < 64 := by omega
    simp [lower, lt, upper, inside, beyond]

theorem setWidth_eq_ofInt (a : BitVec 64) : a.setWidth 32 = BitVec.ofInt 32 a.toInt := by
  apply BitVec.eq_of_toInt_eq
  rw [BitVec.toInt_setWidth, BitVec.toInt_ofInt, BitVec.toInt_eq_toNat_bmod,
    Int.bmod_bmod_of_dvd (by decide)]

theorem narrow?_eq (a : BitVec 64) :
    narrow? a = if FitsSigned a.toInt then some (BitVec.ofInt 32 a.toInt) else none := by
  rw [narrow?, setWidth_eq_ofInt]

/-- Computing in 64 bits makes no difference: the quotient that it misses, of the least double word
and minus one, has no place in a word either. -/
theorem idiv_eq_idiv64 (high low divisor : Word) :
    idiv high low divisor = idiv64 high low divisor := by
  by_cases zero : divisor = 0
  · simp only [idiv, idiv64, if_pos zero]
  · have value : (divisor.signExtend 64).toInt = divisor.toInt :=
      BitVec.toInt_signExtend_of_le (by decide)
    have nonzero : divisor.signExtend 64 ≠ 0 := by
      intro extended
      rw [extended] at value
      exact toInt_ne_zero zero value.symm
    have dividend := toInt_append_eq high low
    simp only [idiv64, if_neg zero, shiftLeft_or_eq, value, dividend]
    by_cases none : NoQuotient (high ++ low) (divisor.signExtend 64)
    · obtain ⟨least, minusOne⟩ := none.resolve_left nonzero
      rw [minusOne] at value
      have wide : ¬ FitsSigned ((doubleWord high low).tdiv divisor.toInt) := by
        rw [← dividend, least, ← value]
        decide
      rw [idiv_of_not_fits zero wide, quotient64?, if_pos none]
      rfl
    · have apart : (high ++ low : BitVec 64) ≠ BitVec.intMin 64 ∨
          divisor.signExtend 64 ≠ -1#64 := by
        rw [← not_and_or]
        exact (not_or.1 none).2
      have quotient := BitVec.toInt_sdiv_of_ne_or_ne _ _ apart
      have remainder := BitVec.toInt_srem (high ++ low : BitVec 64) (divisor.signExtend 64)
      rw [value, dividend] at quotient remainder
      rw [quotient64?, if_neg none, remainder64?, if_neg none]
      simp only [Option.bind_eq_bind, Option.bind_some, narrow?_eq, setWidth_eq_ofInt, quotient,
        remainder]
      by_cases fits : FitsSigned ((doubleWord high low).tdiv divisor.toInt)
      · rw [if_pos fits, idiv_eq_of_fits zero fits]
        rfl
      · rw [if_neg fits, idiv_of_not_fits zero fits]
        rfl
end Arithmetic

/-! ## Dividing a word that was extended by its sign -/

namespace Execution

open Arithmetic Result

variable {p : Program} {c : Config} {e : Execution} {i : Instruction} {src : Value} {d q r : Word}

theorem effectOf_cqo (decoded : i.operation = .cqo) :
    e.effectOf p i = ⟨e.machine.setRegister .dx (signExtension (e.machine.register .ax)),
      e.callDepth, .ok .next⟩ := by
  rw [effectOf, decoded]
  rfl

theorem effectOf_idiv_ok (decoded : i.operation = .idiv src) (value : e.machine.value src = .ok d)
    (divided : idiv (e.machine.register .dx) (e.machine.register .ax) d = .ok (q, r)) :
    e.effectOf p i =
      ⟨(e.machine.setRegister .ax q).setRegister .dx r, e.callDepth, .ok .next⟩ := by
  have result : Operation.divide e.machine src = .ok _ :=
    bind_eq_ok.2 ⟨d, value, bind_eq_ok.2 ⟨(q, r), mapError_eq_ok.2 divided, rfl⟩⟩
  rw [effectOf, decoded, Operation.execute, result]
  rfl

theorem effectOf_idiv_error {cause : DivisionError} (decoded : i.operation = .idiv src)
    (value : e.machine.value src = .ok d)
    (failed : idiv (e.machine.register .dx) (e.machine.register .ax) d = .error cause) :
    e.effectOf p i = ⟨e.machine, e.callDepth, .error (Fault.ofDivision cause)⟩ := by
  have result : Operation.divide e.machine src = .error (Fault.ofDivision cause) :=
    bind_eq_error.2 (.inr ⟨d, value,
      bind_eq_error.2 (.inl (mapError_eq_error.2 ⟨cause, failed, rfl⟩))⟩)
  rw [effectOf, decoded, Operation.execute, result]
  rfl

/-- `DividesExtended p c e src d` holds when the next two instructions extend `AX` and divide by
`src`, the limit allows both, and `d` is what the division finds in `src`. -/
structure DividesExtended (p : Program) (c : Config) (e : Execution) (src : Value) (d : Word) :
    Prop where
  active : e.Active
  extension : ∃ i, p.fetch? e.pc = some i ∧ i.operation = .cqo
  division : ∃ i, p.fetch? (e.pc + 1) = some i ∧ i.operation = .idiv src
  allowed : e.steps + 1 < c.stepLimit
  value : (e.step p c).after.machine.value src = .ok d

namespace DividesExtended

/-- What the division finds: the extended `AX` is `AX` as an integer. -/
theorem extended (h : e.DividesExtended p c src d) :
    ∃ e₁, (e.step p c).after = e₁ ∧ e₁.Active ∧ e₁.pc = e.pc + 1 ∧ e₁.steps = e.steps + 1 ∧
      e₁.machine.value src = .ok d ∧
      doubleWord (e₁.machine.register .dx) (e₁.machine.register .ax) =
        (e.machine.register .ax).toInt := by
  obtain ⟨i, fetched, decoded⟩ := h.extension
  have effect := effectOf_cqo (p := p) (e := e) decoded
  have stepped := step_of_ok h.active fetched (Nat.lt_of_succ_lt h.allowed)
    (congrArg Effect.control effect)
  have machine : (e.step p c).after.machine =
      e.machine.setRegister .dx (signExtension (e.machine.register .ax)) := by
    rw [stepped, performed_machine, effect]
  refine ⟨(e.step p c).after, rfl, ?_, ?_, ?_, h.value, ?_⟩
  · exact .inr (by rw [stepped, performed_next_status])
  · rw [stepped, performed_next_pc]
  · rw [stepped, performed_steps]
  · rw [machine, Machine.setRegister_register, Machine.setRegister_register_of_ne _ _ (by decide)]
    exact doubleWord_signExtension (e.machine.register .ax)

/-- The least word cannot be divided by minus one. -/
theorem overflows (h : e.DividesExtended p c src d)
    (least : (e.machine.register .ax).toInt = -0x80000000) (minusOne : d.toInt = -1) :
    ((e.step p c).after.step p c).answer = .error (.divisionOverflow (-0x80000000) (-1)) := by
  obtain ⟨e₁, stepped, active, pc, steps, value, extended⟩ := h.extended
  obtain ⟨i, fetched, decoded⟩ := h.division
  have nonzero : d ≠ 0 := by
    rintro rfl
    cases minusOne
  have wide : ¬ FitsSigned ((doubleWord (e₁.machine.register .dx)
      (e₁.machine.register .ax)).tdiv d.toInt) := by
    rw [extended, least, minusOne]
    decide
  have failed := idiv_of_not_fits nonzero wide
  rw [extended, least, minusOne] at failed
  have effect := effectOf_idiv_error (p := p) decoded value failed
  rw [stepped, step_of_fault active (pc ▸ fetched) (steps ▸ h.allowed)
    (congrArg Effect.control effect)]
  rfl

/-- Everything else is divided. -/
theorem divides (h : e.DividesExtended p c src d) (nonzero : d ≠ 0)
    (other : ¬ ((e.machine.register .ax).toInt = -0x80000000 ∧ d.toInt = -1)) :
    ((e.step p c).after.step p c).answer = .ok .running ∧
      (((e.step p c).after.step p c).after.machine.register .ax).toInt =
        (e.machine.register .ax).toInt.tdiv d.toInt ∧
      (((e.step p c).after.step p c).after.machine.register .dx).toInt =
        (e.machine.register .ax).toInt.tmod d.toInt := by
  obtain ⟨e₁, stepped, active, pc, steps, value, extended⟩ := h.extended
  obtain ⟨i, fetched, decoded⟩ := h.division
  have fits : FitsSigned ((doubleWord (e₁.machine.register .dx)
      (e₁.machine.register .ax)).tdiv d.toInt) := by
    rw [extended]
    exact (fitsSigned_tdiv_iff (fitsSigned_toInt _) (toInt_ne_zero nonzero)).2 other
  obtain ⟨q, r, divided, quotient, remainder⟩ := idiv_of_fits nonzero fits
  rw [extended] at quotient remainder
  have effect := effectOf_idiv_ok (p := p) decoded value divided
  rw [stepped, step_of_ok active (pc ▸ fetched) (steps ▸ h.allowed)
    (congrArg Effect.control effect)]
  refine ⟨by rw [performed_next_status], ?_, ?_⟩
  · rw [performed_machine, effect, Machine.setRegister_register_of_ne _ _ (by decide),
      Machine.setRegister_register]
    exact quotient
  · rw [performed_machine, effect, Machine.setRegister_register]
    exact remainder

end DividesExtended

/-- Division is exact. It fails for a divisor of zero; otherwise it has a result if and only if the
quotient of the double word, rounded toward zero, is a signed word, and then the result is this
quotient with its remainder; if not, the fault gives both operands. After an extension of `AX`,
division by anything but zero fails only for the least word and minus one, and otherwise leaves
quotient and remainder of `AX` as it was before. -/
theorem division_exact (high low divisor : Word) :
    (idiv high low divisor = .error .byZero ↔ divisor = 0) ∧
    (divisor ≠ 0 →
      ((∃ q r, idiv high low divisor = .ok (q, r)) ↔
        FitsSigned ((doubleWord high low).tdiv divisor.toInt)) ∧
      (∀ q r, idiv high low divisor = .ok (q, r) →
        q.toInt = (doubleWord high low).tdiv divisor.toInt ∧
        Truncates (doubleWord high low) divisor.toInt q.toInt r.toInt) ∧
      (¬ FitsSigned ((doubleWord high low).tdiv divisor.toInt) →
        idiv high low divisor = .error (.overflow (doubleWord high low) divisor.toInt))) ∧
    idiv 0x80000000 0 (-1) = .error (.overflow (-0x8000000000000000) (-1)) ∧
    ∀ (p : Program) (c : Config) (e : Execution) (src : Value) (d : Word),
      e.DividesExtended p c src d → d ≠ 0 →
      ((e.machine.register .ax).toInt = -0x80000000 → d.toInt = -1 →
        ((e.step p c).after.step p c).answer = .error (.divisionOverflow (-0x80000000) (-1))) ∧
      (¬ ((e.machine.register .ax).toInt = -0x80000000 ∧ d.toInt = -1) →
        ((e.step p c).after.step p c).answer = .ok .running ∧
        (((e.step p c).after.step p c).after.machine.register .ax).toInt =
          (e.machine.register .ax).toInt.tdiv d.toInt ∧
        (((e.step p c).after.step p c).after.machine.register .dx).toInt =
          (e.machine.register .ax).toInt.tmod d.toInt) := by
  refine ⟨idiv_eq_byZero_iff, ?_, by decide, ?_⟩
  · intro nonzero
    refine ⟨⟨?_, ?_⟩, ?_, idiv_of_not_fits nonzero⟩
    · rintro ⟨q, r, divided⟩
      exact (idiv_eq_ok nonzero divided).1
    · intro fits
      obtain ⟨q, r, divided, -⟩ := idiv_of_fits nonzero fits
      exact ⟨q, r, divided⟩
    · intro q r divided
      exact (idiv_eq_ok nonzero divided).2
  · intro p c e src d h nonzero
    exact ⟨h.overflows, h.divides nonzero⟩

/-- A quotient and a remainder below zero; and the least word, divided by what its own extension has
put into `DX`. -/
theorem division_exact_negative :
    (∃ q r, idiv (-1) (-17) 5 = .ok (q, r) ∧ q.toInt = -3 ∧ Truncates (-17) 5 (-3) r.toInt) ∧
    ∃ (p : Program) (c : Config) (e : Execution),
      e.DividesExtended p c (.register .dx) (-1) ∧
      (e.machine.register .ax).toInt = -0x80000000 ∧
      ((e.step p c).after.step p c).answer = .error (.divisionOverflow (-0x80000000) (-1)) := by
  constructor
  · obtain ⟨-, exact, -⟩ := division_exact (-1) (-17) 5
    obtain ⟨ok_iff, result, -⟩ := exact (by decide)
    obtain ⟨q, r, divided⟩ := ok_iff.2 (by decide)
    obtain ⟨quotient, truncates⟩ := result q r divided
    rw [quotient] at truncates
    exact ⟨q, r, divided, quotient, truncates⟩
  · let p : Program :=
      { instructions := #[⟨1, .cqo⟩, ⟨2, .idiv (.register .dx)⟩], labels := {}, data := [] }
    let e : Execution := { machine := (Machine.new {}).setRegister .ax 0x80000000 }
    have divides : e.DividesExtended p {} (.register .dx) (-1) :=
      ⟨.inl rfl, ⟨_, rfl, rfl⟩, ⟨_, rfl, rfl⟩, by decide, by decide +kernel⟩
    obtain ⟨-, -, -, extended⟩ := division_exact 0 0 1
    exact ⟨p, {}, e, divides, by decide, (extended p {} e _ _ divides (by decide)).1 (by decide)
      (by decide)⟩

end Execution

end AsmTrace
