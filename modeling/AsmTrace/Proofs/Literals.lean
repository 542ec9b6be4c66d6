import AsmTrace.Line.Literal
import AsmTrace.Proofs.Lexemes
import Mathlib.Data.List.Induction

/-!
# Literals and the grammar

The literals that are read are the numbers of the grammar, with the values that their digits have by
position.
-/

namespace AsmTrace.Line

open Grammar

/-! ## Digits -/

instance (radix : Nat) (c : Char) (d : Nat) : Decidable (Digit radix c d) :=
  inferInstanceAs (Decidable (_ ∧ _))

/-- A statement about digits need only be looked at for ASCII characters. -/
theorem forall_ascii {P : Char → Prop} (ascii : ∀ n < 128, P (Char.ofNat n)) {c : Char}
    (h : c.toNat < 128) : P c := by
  simpa using ascii c.toNat h

/-- Hexadecimal digits are ASCII. -/
theorem toNat_lt_of_isHexDigit {c : Char} (h : isHexDigit c = true) : c.toNat < 128 := by
  simp only [isHexDigit, Char.isDigit, Bool.or_eq_true, Bool.and_eq_true, decide_eq_true_eq,
    Char.le_def, UInt32.le_iff_toNat_le, ge_iff_le] at h
  change c.val.toNat < 128
  rcases h with (⟨-, h⟩ | ⟨-, h⟩) | ⟨-, h⟩
  all_goals exact Nat.lt_of_le_of_lt h (by decide)

/-- So are the digits of the grammar. -/
theorem toNat_lt_of_digit {radix d : Nat} {c : Char} (h : Digit radix c d) : c.toNat < 128 := by
  have ascii : digits.all (fun x => x.toNat < 128) = true := by decide
  have mem : c.toLower.toNat < 128 := by
    simpa using List.all_eq_true.1 ascii _ (List.mem_of_getElem? h.2)
  unfold Char.toLower at mem
  split at mem
  · next upper => exact Nat.lt_of_le_of_lt (UInt32.le_iff_toNat_le.1 upper.2) (by decide)
  · exact mem

/-- `IsDigitOf radix p` holds when the class `p` is that of the digits of a radix. -/
def IsDigitOf (radix : Nat) (p : Char → Bool) : Prop :=
  ∀ c, p c = true ↔ Digit radix c (digitValue c)

/-- A class of ASCII characters is that of the digits if a table says so. -/
theorem isDigitOf_of_ascii {radix : Nat} {p : Char → Bool} (ascii : ∀ c, p c = true → c.toNat < 128)
    (table : ∀ n < 128, p (Char.ofNat n) = true ↔
      Digit radix (Char.ofNat n) (digitValue (Char.ofNat n))) : IsDigitOf radix p := by
  intro c
  by_cases h : c.toNat < 128
  · exact forall_ascii (P := fun c => p c = true ↔ Digit radix c (digitValue c)) table h
  · exact iff_of_false (fun hp => h (ascii c hp)) fun hd => h (toNat_lt_of_digit hd)

/-- Hexadecimal digits are those of radix sixteen. -/
theorem isDigitOf_hexadecimal : IsDigitOf 16 isHexDigit :=
  isDigitOf_of_ascii (fun _ => toNat_lt_of_isHexDigit) (by decide +kernel)

/-- Decimal digits are those of radix ten. -/
theorem isDigitOf_decimal : IsDigitOf 10 Char.isDigit :=
  isDigitOf_of_ascii (fun c h => toNat_lt_of_isHexDigit (by simp [isHexDigit, h]))
    (by decide +kernel)

/-- Binary digits are those of radix two. -/
theorem isDigitOf_binary : IsDigitOf 2 isBinaryDigit := by
  refine isDigitOf_of_ascii (fun c h => ?_) (by decide +kernel)
  rcases (by simpa [isBinaryDigit] using h : c = '0' ∨ c = '1') with rfl | rfl <;> decide

/-- The value of a digit is what the grammar says. -/
theorem digitValue_of_digit {radix d : Nat} {c : Char} (h : Digit radix c d) :
    digitValue c = d := by
  obtain ⟨lt, -⟩ := List.getElem?_eq_some_iff.1 h.2
  exact forall_ascii (P := fun c => ∀ d < 16, digits[d]? = some c.toLower → digitValue c = d)
    (by decide +kernel) (toNat_lt_of_digit h) d lt h.2

theorem isIdentifierPart_of_digit {radix d : Nat} {c : Char} (h : Digit radix c d) :
    isIdentifierPart c = true := by
  obtain ⟨lt, -⟩ := List.getElem?_eq_some_iff.1 h.2
  exact forall_ascii
    (P := fun c => ∀ d < 16, digits[d]? = some c.toLower → isIdentifierPart c = true)
    (by decide +kernel) (toNat_lt_of_digit h) d lt h.2

/-! ## Numerals -/

/-- The value of digits is computed from left to right, as the grammar builds it up. -/
theorem numeral_iff {radix : Nat} {l : List Char} {n : Nat} :
    Numeral radix l n ↔
      l ≠ [] ∧ (∀ c ∈ l, Digit radix c (digitValue c)) ∧ ofDigits radix l = n := by
  constructor
  · intro h
    induction h with
    | digit h =>
      cases digitValue_of_digit h
      exact ⟨List.cons_ne_nil _ _, by simpa using h, by simp [ofDigits]⟩
    | @snoc cs c n d _ h ih =>
      obtain ⟨-, inside, rfl⟩ := ih
      cases digitValue_of_digit h
      refine ⟨by simp, ?_, by simp [ofDigits]⟩
      simpa [or_imp, forall_and] using ⟨inside, h⟩
  · rintro ⟨ne, inside, rfl⟩
    induction l using List.reverseRecOn with
    | nil => exact absurd rfl ne
    | append_singleton cs c ih =>
      have last : Digit radix c (digitValue c) := inside c (by simp)
      cases cs with
      | nil => simpa [ofDigits] using Numeral.digit last
      | cons x xs =>
        have rest := ih (List.cons_ne_nil _ _) fun d hd => inside d (List.mem_append_left _ hd)
        simpa [ofDigits] using Numeral.snoc rest last

/-- A run of digits is a numeral, and it is as long as possible. -/
theorem readRun_digits {radix : Nat} {p : Char → Bool} (digit : IsDigitOf radix p)
    {cs l r : List Char} :
    readRun p p cs = some (l, r) ↔
      cs = l ++ r ∧ Numeral radix l (ofDigits radix l) ∧ Stops p r := by
  rw [readRun_eq_some, numeral_iff]
  refine and_congr_right fun _ => and_congr_left fun _ => ?_
  constructor
  · rintro ⟨c, ds, rfl, first, next⟩
    refine ⟨List.cons_ne_nil _ _, fun d hd => (digit d).1 ?_, rfl⟩
    rcases List.mem_cons.1 hd with rfl | hd
    · exact first
    · exact next d hd
  · rintro ⟨ne, inside, -⟩
    obtain ⟨c, ds, rfl⟩ := List.exists_cons_of_ne_nil ne
    exact ⟨c, ds, rfl, (digit c).2 (inside c List.mem_cons_self), fun d hd =>
      (digit d).2 (inside d (List.mem_cons_of_mem c hd))⟩

/-- What is read after a mark is a numeral of its radix. -/
theorem readMarked_eq_some {radix : Nat} {p : Char → Bool} (digit : IsDigitOf radix p)
    {lower upper : Char} {cs l r : List Char} :
    readMarked lower upper p cs = some (l, r) ↔
      cs = l ++ r ∧ (∃ x ds, l = '0' :: x :: ds ∧ (x = lower ∨ x = upper) ∧
        Numeral radix ds (ofDigits radix ds)) ∧ Stops p r := by
  constructor
  · intro h
    unfold readMarked at h
    split at h
    · next x cs =>
      split at h
      · next mark =>
        obtain ⟨⟨ds, rest⟩, run, h⟩ := Option.map_eq_some_iff.1 h
        cases h
        obtain ⟨rfl, numeral, stops⟩ := (readRun_digits digit).1 run
        exact ⟨rfl, ⟨x, ds, rfl, mark, numeral⟩, stops⟩
      · cases h
    · cases h
  · rintro ⟨rfl, ⟨x, ds, rfl, mark, numeral⟩, stops⟩
    have run := (readRun_digits digit).2 ⟨rfl, numeral, stops⟩
    rw [List.cons_append, List.cons_append, readMarked, if_pos mark, run]
    rfl

/-- Nothing is read without the mark. -/
theorem readMarked_eq_none {p : Char → Bool} {lower upper : Char} {cs : List Char}
    (h : ∀ x rest, cs = '0' :: x :: rest → ¬ (x = lower ∨ x = upper)) :
    readMarked lower upper p cs = none := by
  unfold readMarked
  split
  · next x rest => rw [if_neg (h x rest rfl)]
  · rfl

/-- A digit is not a radix mark. -/
theorem not_mark_of_digit {x : Char} (h : Digit 10 x (digitValue x)) :
    ¬ (x = 'x' ∨ x = 'X') ∧ ¬ (x = 'b' ∨ x = 'B') := by
  constructor
  all_goals
    rintro (rfl | rfl)
    all_goals exact absurd h (by decide)

/-- The magnitude that is computed is what the grammar says. -/
theorem magnitude_of_unsigned {l : List Char} {n : Nat} (h : Unsigned l n) : magnitude l = n := by
  cases h with
  | decimal numeral =>
    obtain ⟨-, inside, rfl⟩ := numeral_iff.1 numeral
    unfold magnitude
    split
    · next x ds =>
      obtain ⟨notHex, notBinary⟩ := not_mark_of_digit (inside x (by simp))
      rw [if_neg notHex, if_neg notBinary]
    · rfl
  | hexadecimal mark numeral =>
    rw [magnitude, if_pos mark]
    exact (numeral_iff.1 numeral).2.2
  | binary mark numeral =>
    rw [magnitude, if_neg (by rcases mark with rfl | rfl <;> decide), if_pos mark]
    exact (numeral_iff.1 numeral).2.2

/-- What is read as a literal without a sign is one. -/
theorem unsigned_of_readUnsigned {cs l r : List Char} (h : readUnsigned cs = some (l, r)) :
    cs = l ++ r ∧ Unsigned l (magnitude l) := by
  have exactly {n : Nat} (u : Unsigned l n) : Unsigned l (magnitude l) := by
    rwa [magnitude_of_unsigned u]
  rw [readUnsigned, Option.or_eq_some_iff, Option.or_eq_some_iff] at h
  rcases h with hex | ⟨-, binary | ⟨-, decimal⟩⟩
  · obtain ⟨split, ⟨x, ds, rfl, mark, numeral⟩, -⟩ :=
      (readMarked_eq_some isDigitOf_hexadecimal).1 hex
    exact ⟨split, exactly (.hexadecimal mark numeral)⟩
  · obtain ⟨split, ⟨x, ds, rfl, mark, numeral⟩, -⟩ := (readMarked_eq_some isDigitOf_binary).1 binary
    exact ⟨split, exactly (.binary mark numeral)⟩
  · obtain ⟨split, numeral, -⟩ := (readRun_digits isDigitOf_decimal).1 decimal
    exact ⟨split, exactly (.decimal numeral)⟩

/-- The characters after a digit of a decimal numeral are digits or end the numeral, so a leading
zero is not followed by a radix mark. -/
theorem not_mark_after_zero {l r rest : List Char} {x : Char} {n : Nat} (numeral : Numeral 10 l n)
    (ends : Stops isIdentifierPart r) (split : l ++ r = '0' :: x :: rest) :
    ¬ (x = 'x' ∨ x = 'X') ∧ ¬ (x = 'b' ∨ x = 'B') := by
  obtain ⟨ne, inside, -⟩ := numeral_iff.1 numeral
  match l, ne with
  | [c], _ =>
    cases r with
    | nil => cases split
    | cons y r =>
      cases split
      have := stops_cons.1 ends
      constructor
      all_goals
        rintro (rfl | rfl)
        all_goals cases this
  | c :: d :: ds, _ =>
    cases split
    exact not_mark_of_digit (inside x (by simp))

/-- A literal without a sign is read whole. -/
theorem readUnsigned_append {l r : List Char} {n : Nat} (h : Unsigned l n)
    (ends : Stops isIdentifierPart r) : readUnsigned (l ++ r) = some (l, r) := by
  have stops {radix : Nat} {p : Char → Bool} (digit : IsDigitOf radix p) : Stops p r :=
    ends.of_imp fun c hc => isIdentifierPart_of_digit ((digit c).1 hc)
  rw [readUnsigned]
  cases h with
  | decimal numeral =>
    obtain ⟨-, -, rfl⟩ := numeral_iff.1 numeral
    rw [readMarked_eq_none fun x rest split => (not_mark_after_zero numeral ends split).1,
      readMarked_eq_none fun x rest split => (not_mark_after_zero numeral ends split).2]
    exact (readRun_digits isDigitOf_decimal).2 ⟨rfl, numeral, stops isDigitOf_decimal⟩
  | @hexadecimal x cs _ mark numeral =>
    obtain ⟨-, -, rfl⟩ := numeral_iff.1 numeral
    rw [(readMarked_eq_some isDigitOf_hexadecimal).2
      ⟨rfl, ⟨x, cs, rfl, mark, numeral⟩, stops isDigitOf_hexadecimal⟩]
    rfl
  | @binary x cs _ mark numeral =>
    obtain ⟨-, -, rfl⟩ := numeral_iff.1 numeral
    rw [readMarked_eq_none, (readMarked_eq_some isDigitOf_binary).2
      ⟨rfl, ⟨x, cs, rfl, mark, numeral⟩, stops isDigitOf_binary⟩]
    · rfl
    · intro y rest split
      cases split
      rcases mark with rfl | rfl <;> decide

/-! ## Numbers -/

/-- A magnitude starts with a decimal digit. -/
theorem exists_digit_of_unsigned {l : List Char} {n : Nat} (h : Unsigned l n) :
    ∃ c cs, l = c :: cs ∧ c.isDigit = true := by
  cases h with
  | decimal numeral =>
    obtain ⟨ne, inside, -⟩ := numeral_iff.1 numeral
    obtain ⟨c, cs, rfl⟩ := List.exists_cons_of_ne_nil ne
    exact ⟨c, cs, rfl, (isDigitOf_decimal c).2 (inside c List.mem_cons_self)⟩
  | hexadecimal mark numeral => exact ⟨'0', _, rfl, rfl⟩
  | binary mark numeral => exact ⟨'0', _, rfl, rfl⟩

theorem readNumber_of_ne {c : Char} (h : c ≠ '-') (cs : List Char) :
    readNumber (c :: cs) = readUnsigned (c :: cs) := by
  unfold readNumber
  split
  · next eq => cases eq; exact absurd rfl h
  · rfl

/-- A literal without a sign has its magnitude as value, if that fits 64 bits. -/
theorem literalValue?_of_unsigned {l : List Char} {n : Nat} (h : Unsigned l n) :
    literalValue? l = if n < 0x8000000000000000 then some (n : Int) else none := by
  obtain ⟨c, cs, rfl, digit⟩ := exists_digit_of_unsigned h
  unfold literalValue?
  split
  · next eq => cases eq; cases digit
  · rw [magnitude_of_unsigned h]

/-- A literal with a sign has the negation, if the magnitude fits 64 bits. -/
theorem literalValue?_neg_of_unsigned {l : List Char} {n : Nat} (h : Unsigned l n) :
    literalValue? ('-' :: l) = if n < 0x8000000000000000 then some (-n : Int) else none := by
  rw [literalValue?, magnitude_of_unsigned h]

/-- What is read as a number is one, if it is in range. -/
theorem number_of_readNumber {cs l r : List Char} (h : readNumber cs = some (l, r)) :
    cs = l ++ r ∧ ∀ n, literalValue? l = some n → Number l n := by
  unfold readNumber at h
  split at h
  · obtain ⟨⟨ds, rest⟩, read, h⟩ := Option.map_eq_some_iff.1 h
    cases h
    obtain ⟨rfl, unsigned⟩ := unsigned_of_readUnsigned read
    refine ⟨rfl, fun n value => ?_⟩
    rw [literalValue?_neg_of_unsigned unsigned, Option.ite_none_right_eq_some] at value
    obtain ⟨range, ⟨⟩⟩ := value
    exact .negative ⟨unsigned, range⟩
  · obtain ⟨rfl, unsigned⟩ := unsigned_of_readUnsigned h
    refine ⟨rfl, fun n value => ?_⟩
    rw [literalValue?_of_unsigned unsigned, Option.ite_none_right_eq_some] at value
    obtain ⟨range, ⟨⟩⟩ := value
    exact .positive ⟨unsigned, range⟩

/-- A literal of any size is read whole, with or without a sign. -/
theorem readNumber_of_unsigned {l r : List Char} {n : Nat} (h : Unsigned l n)
    (ends : Stops isIdentifierPart r) :
    readNumber (l ++ r) = some (l, r) ∧ readNumber ('-' :: l ++ r) = some ('-' :: l, r) := by
  have read := readUnsigned_append h ends
  constructor
  · obtain ⟨c, cs, rfl, digit⟩ := exists_digit_of_unsigned h
    rw [← read]
    exact readNumber_of_ne (by rintro rfl; cases digit) _
  · rw [List.cons_append, readNumber, read]
    rfl

/-- A number is read whole. -/
theorem readNumber_append {l r : List Char} {n : Int} (h : Number l n)
    (ends : Stops isIdentifierPart r) :
    readNumber (l ++ r) = some (l, r) ∧ literalValue? l = some n := by
  cases h with
  | positive h =>
    exact ⟨(readNumber_of_unsigned h.1 ends).1, (literalValue?_of_unsigned h.1).trans (if_pos h.2)⟩
  | negative h =>
    exact ⟨(readNumber_of_unsigned h.1 ends).2,
      (literalValue?_neg_of_unsigned h.1).trans (if_pos h.2)⟩

theorem readUnsigned_eq_none {c : Char} (h : c.isDigit = false) (cs : List Char) :
    readUnsigned (c :: cs) = none := by
  cases read : readUnsigned (c :: cs) with
  | none => rfl
  | some lr =>
    obtain ⟨l, r⟩ := lr
    obtain ⟨split, unsigned⟩ := unsigned_of_readUnsigned read
    obtain ⟨d, ds, rfl, digit⟩ := exists_digit_of_unsigned unsigned
    cases split
    exact absurd digit (by simp [h])

theorem not_isDigit_of_isAlpha {c : Char} (h : c.isAlpha = true) : c.isDigit = false := by
  refine Bool.eq_false_iff.2 fun digit => ?_
  have ascii := toNat_lt_of_isHexDigit (c := c) (by simp [isHexDigit, digit])
  have notAlpha := forall_ascii (P := fun c => c.isDigit = true → c.isAlpha = false)
    (by decide +kernel) ascii digit
  rw [h] at notAlpha
  cases notAlpha

/-- An identifier is not read as a number. -/
theorem readNumber_identifier {l : List Char} (h : Identifier l) (r : List Char) :
    readNumber (l ++ r) = none := by
  obtain @⟨c, cs, first, -⟩ := h
  have notDigit : c.isDigit = false := by
    rcases first with letter | rfl | rfl
    · exact not_isDigit_of_isAlpha letter
    · rfl
    · rfl
  rw [List.cons_append, readNumber_of_ne, readUnsigned_eq_none notDigit]
  rintro rfl
  simp at first

end AsmTrace.Line
