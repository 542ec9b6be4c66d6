import AsmTrace.Proofs.Rendering

/-!
# Numbers as written

A number is written as a sign, a radix mark and digits, each of which may be missing but the digits.
It may have any size, and as many leading zeros as one likes: what is read is the whole text of such
a number (`readNumber_eq_self_iff`), and its value is the positional one if it is in range
(`literal_of_numberText`).
-/

namespace AsmTrace.Line

namespace Grammar

/-- A minus sign or nothing, with the factor that it stands for. -/
inductive SignText : List Char → Int → Prop
  | none : SignText [] 1
  | minus : SignText ['-'] (-1)

/-- What marks the radix of the digits after it. -/
inductive RadixText : List Char → Nat → Prop
  | decimal : RadixText [] 10
  | hexadecimal {x : Char} (mark : x = 'x' ∨ x = 'X') : RadixText ['0', x] 16
  | binary {x : Char} (mark : x = 'b' ∨ x = 'B') : RadixText ['0', x] 2

/-- The value of digits by their positions: a digit that `k` others follow counts `radix ^ k`
times. -/
def positional (radix : Nat) : List Nat → Nat
  | [] => 0
  | d :: ds => d * radix.pow ds.length + positional radix ds

/-- A number of any size with its value. -/
inductive NumberText : List Char → Int → Prop
  | mk {sign mark cs : List Char} {factor : Int} {radix : Nat} {ds : List Nat} :
      SignText sign factor → RadixText mark radix → ds ≠ [] →
      List.Forall₂ (Digit radix) cs ds →
      NumberText (sign ++ (mark ++ cs)) (factor * positional radix ds)

end Grammar

open Grammar Result

/-! ## Digits by their positions -/

/-- Reading digits from left to right comes to their positional value. -/
theorem ofDigits_eq_positional (radix : Nat) (cs : List Char) :
    ofDigits radix cs = positional radix (cs.map digitValue) := by
  have carry (n : Nat) : cs.foldl (fun n c => radix * n + digitValue c) n =
      n * radix.pow cs.length + positional radix (cs.map digitValue) := by
    induction cs generalizing n with
    | nil => simp [positional]
    | cons c cs ih =>
      rw [List.foldl_cons, ih, List.map_cons, positional, List.length_map, List.length_cons]
      have place : radix.pow (cs.length + 1) = radix.pow cs.length * radix := rfl
      rw [place, Nat.add_mul, Nat.mul_comm radix n, Nat.mul_assoc, Nat.mul_comm radix,
        Nat.add_assoc]
  rw [ofDigits, carry, Nat.zero_mul, Nat.zero_add]

/-- A numeral has the positional value of its digits. -/
theorem numeral_iff_positional {radix : Nat} {cs : List Char} {n : Nat} :
    Numeral radix cs n ↔
      ∃ ds, ds ≠ [] ∧ List.Forall₂ (Digit radix) cs ds ∧ n = positional radix ds := by
  rw [numeral_iff]
  constructor
  · rintro ⟨ne, inside, rfl⟩
    refine ⟨cs.map digitValue, by simpa using ne, ?_, ofDigits_eq_positional radix cs⟩
    exact List.forall₂_map_right_iff.2 (List.forall₂_same.2 inside)
  · rintro ⟨ds, ne, digits, rfl⟩
    have values : cs.map digitValue = ds := by
      rw [← List.forall₂_eq_eq_eq, List.forall₂_map_left_iff]
      exact digits.imp fun c d => digitValue_of_digit
    cases values
    refine ⟨by simpa using ne, ?_, ofDigits_eq_positional radix cs⟩
    exact List.forall₂_same.1 (List.forall₂_map_right_iff.1 digits)

/-! ## Numbers -/

/-- A magnitude is a mark of its radix and a numeral. -/
theorem unsigned_iff {l : List Char} {k : Nat} :
    Unsigned l k ↔ ∃ mark cs radix, RadixText mark radix ∧ Numeral radix cs k ∧ l = mark ++ cs := by
  constructor
  · intro h
    cases h with
    | decimal numeral => exact ⟨[], l, 10, .decimal, numeral, rfl⟩
    | @hexadecimal x cs _ mark numeral => exact ⟨['0', x], cs, 16, .hexadecimal mark, numeral, rfl⟩
    | @binary x cs _ mark numeral => exact ⟨['0', x], cs, 2, .binary mark, numeral, rfl⟩
  · rintro ⟨mark, cs, radix, isMark, numeral, rfl⟩
    cases isMark with
    | decimal => exact .decimal numeral
    | hexadecimal mark => exact .hexadecimal mark numeral
    | binary mark => exact .binary mark numeral

/-- A number is one without a sign, or one with a minus sign before it. -/
theorem numberText_iff {t : List Char} {n : Int} :
    NumberText t n ↔ ∃ l k, Unsigned l k ∧ (t = l ∧ n = k ∨ t = '-' :: l ∧ n = -k) := by
  constructor
  · rintro @⟨sign, mark, cs, factor, radix, ds, isSign, isMark, ne, digits⟩
    have numeral := numeral_iff_positional.2 ⟨ds, ne, digits, rfl⟩
    refine ⟨mark ++ cs, _, unsigned_iff.2 ⟨mark, cs, radix, isMark, numeral, rfl⟩, ?_⟩
    cases isSign with
    | none => exact .inl ⟨rfl, Int.one_mul _⟩
    | minus => exact .inr ⟨rfl, Int.neg_one_mul _⟩
  · rintro ⟨l, k, unsigned, signed⟩
    obtain ⟨mark, cs, radix, isMark, numeral, rfl⟩ := unsigned_iff.1 unsigned
    obtain ⟨ds, ne, digits, rfl⟩ := numeral_iff_positional.1 numeral
    rcases signed with ⟨rfl, rfl⟩ | ⟨rfl, rfl⟩
    · simpa using NumberText.mk .none isMark ne digits
    · simpa using NumberText.mk .minus isMark ne digits

/-- A number has one value. -/
theorem numberText_unique {t : List Char} {n n' : Int} (h : NumberText t n) (h' : NumberText t n') :
    n = n' := by
  obtain ⟨l, k, unsigned, same⟩ := numberText_iff.1 h
  obtain ⟨l', k', unsigned', same'⟩ := numberText_iff.1 h'
  obtain ⟨c, cs, rfl, digit⟩ := exists_digit_of_unsigned unsigned
  obtain ⟨c', cs', rfl, digit'⟩ := exists_digit_of_unsigned unsigned'
  have values (texts : c :: cs = c' :: cs') : k = k' := by
    rw [← magnitude_of_unsigned unsigned, texts, magnitude_of_unsigned unsigned']
  rcases same with ⟨rfl, rfl⟩ | ⟨rfl, rfl⟩ <;> rcases same' with ⟨texts, rfl⟩ | ⟨texts, rfl⟩
  · rw [values texts]
  · cases texts
    cases digit
  · cases texts
    cases digit'
  · rw [values (List.cons.inj texts).2]

/-- A number is read back as its text. -/
theorem readNumber_of_numberText {t r : List Char} {n : Int} (h : NumberText t n)
    (ends : Stops isIdentifierPart r) : readNumber (t ++ r) = some (t, r) := by
  obtain ⟨l, k, unsigned, ⟨rfl, -⟩ | ⟨rfl, -⟩⟩ := numberText_iff.1 h
  · exact (readNumber_of_unsigned unsigned ends).1
  · exact (readNumber_of_unsigned unsigned ends).2

/-- A text is read as a number to its end if and only if it is one. -/
theorem readNumber_eq_self_iff {t : List Char} :
    readNumber t = some (t, []) ↔ ∃ n, NumberText t n := by
  constructor
  · intro h
    unfold readNumber at h
    split at h
    · obtain ⟨⟨l, rest⟩, read, same⟩ := Option.map_eq_some_iff.1 h
      cases same
      obtain ⟨-, unsigned⟩ := unsigned_of_readUnsigned read
      exact ⟨_, numberText_iff.2 ⟨_, _, unsigned, .inr ⟨rfl, rfl⟩⟩⟩
    · obtain ⟨-, unsigned⟩ := unsigned_of_readUnsigned h
      exact ⟨_, numberText_iff.2 ⟨t, _, unsigned, .inl ⟨rfl, rfl⟩⟩⟩
  · rintro ⟨n, h⟩
    simpa using readNumber_of_numberText h (stops_nil _)

/-- A number is accepted with its value, if that fits 64 bits. -/
theorem literal_of_numberText {t : List Char} {n : Int} (h : NumberText t n) :
    literal t = if n.natAbs < 0x8000000000000000 then .ok n
      else .error (.numberOutOfRange (String.ofList t)) := by
  have value : literalValue? t = if n.natAbs < 0x8000000000000000 then some n else none := by
    obtain ⟨l, k, unsigned, ⟨rfl, rfl⟩ | ⟨rfl, rfl⟩⟩ := numberText_iff.1 h
    · rw [literalValue?_of_unsigned unsigned, Int.natAbs_natCast]
    · rw [literalValue?_neg_of_unsigned unsigned, Int.natAbs_neg, Int.natAbs_natCast]
  rw [literal, value]
  by_cases small : n.natAbs < 0x8000000000000000
  · simp only [if_pos small]
  · simp only [if_neg small]

/-- A number consists of atomic characters, and there is one. -/
theorem numberText_isAtomic {t : List Char} {n : Int} (h : NumberText t n) :
    t ≠ [] ∧ ∀ c ∈ t, IsAtomic c := by
  obtain ⟨l, k, unsigned, same⟩ := numberText_iff.1 h
  obtain ⟨c, cs, rfl, -⟩ := exists_digit_of_unsigned unsigned
  have atomic := isAtomic_of_unsigned unsigned
  rcases same with ⟨rfl, -⟩ | ⟨rfl, -⟩
  · exact ⟨List.cons_ne_nil _ _, atomic⟩
  · exact ⟨List.cons_ne_nil _ _, List.forall_mem_cons.2 ⟨.inr rfl, atomic⟩⟩

/-! ## A place for a number in a line -/

/-- A line with a place among its operands that a number is yet to be written in: what stands on the
line around that place, and what it says. Operands are taken with the blanks around them. -/
structure Slot where
  front : List Char
  labels : List Statement.Body
  isFront : Front front labels
  mnemonic : List Char
  isMnemonic : Mnemonic mnemonic
  left : List (List Char)
  before : List Operand
  isLeft : List.Forall₂ Padded left before
  gap₁ : List Char
  gap₂ : List Char
  isGap : Blanks gap₁ ∧ Blanks gap₂
  right : List (List Char)
  after : List Operand
  isRight : List.Forall₂ Padded right after
  comment : List Char
  isComment : CommentText comment

namespace Slot

/-- What stands between the mnemonic and the comment once `t` is written in the place. -/
def operands (s : Slot) (t : List Char) : List Char :=
  s.left.flatMap (· ++ [',']) ++ (s.gap₁ ++ (t ++ s.gap₂) ++ s.right.flatMap (',' :: ·))

/-- The line with `t` written in the place. -/
def fill (s : Slot) (t : List Char) : String :=
  String.ofList (s.front ++ (s.mnemonic ++ s.operands t) ++ s.comment)

/-- With `t` written in the place, the mnemonic still ends where it did. -/
def Fits (s : Slot) (t : List Char) : Prop := Stops Char.isAlphanum (s.operands t)

end Slot

theorem inner_of_padded {parts : List (List Char)} {os : List Operand}
    (h : List.Forall₂ Padded parts os) : ∀ part ∈ parts, Inner part := by
  induction h with
  | nil => exact List.forall_mem_nil _
  | cons padded _ ih =>
    obtain ⟨b₁, l, b₂, blanks₁, operand, blanks₂, rfl⟩ := padded
    refine List.forall_mem_cons.2 ⟨?_, ih⟩
    simp [inner_of_blanks blanks₁, inner_of_operand operand, inner_of_blanks blanks₂]

theorem splitCommas_left {left : List (List Char)} (inner : ∀ part ∈ left, Inner part)
    (rest : List Char) :
    splitCommas (left.flatMap (· ++ [',']) ++ rest) = left ++ splitCommas rest := by
  induction left with
  | nil => rfl
  | cons part left ih =>
    obtain ⟨first, next⟩ := List.forall_mem_cons.1 inner
    have cut := splitCommas_append first (left.flatMap (· ++ [',']) ++ rest)
    simpa [ih next] using cut

theorem splitCommas_right {right : List (List Char)} (inner : ∀ part ∈ right, Inner part)
    {cs : List Char} (h : Inner cs) :
    splitCommas (cs ++ right.flatMap (',' :: ·)) = cs :: right := by
  induction right generalizing cs with
  | nil => simpa using splitCommas_of_inner h
  | cons part right ih =>
    obtain ⟨first, next⟩ := List.forall_mem_cons.1 inner
    rw [List.flatMap_cons, List.cons_append, splitCommas_append h, ih next first]

/-- A number between blanks is an operand. -/
theorem operand?_of_numberText {b₁ t b₂ : List Char} {n : Int} (blanks₁ : Blanks b₁)
    (h : NumberText t n) (blanks₂ : Blanks b₂) :
    operand? (b₁ ++ (t ++ b₂)) = some (.atom (.number t)) := by
  obtain ⟨ne, atomic⟩ := numberText_isAtomic h
  have ends : Stops isIdentifierPart b₂ := by
    simpa using stops_part_append blanks₂ (stops_nil isIdentifierPart)
  rw [operand?, skipBlanks_append blanks₁, skipBlanks_of_stops (stops_blank_append ne atomic b₂),
    readOperand_of_atomic ne atomic, readAtom, readNumber_of_numberText h ends]
  simp [skipBlanks_blanks blanks₂]

namespace Slot

variable {t : List Char} {n : Int} (s : Slot)

/-- The operands around a number are cut at their commas. -/
theorem splitCommas_operands (h : NumberText t n) :
    splitCommas (s.operands t) = s.left ++ (s.gap₁ ++ (t ++ s.gap₂)) :: s.right := by
  have middle : Inner (s.gap₁ ++ (t ++ s.gap₂)) := by
    simp [inner_of_blanks s.isGap.1, inner_of_isAtomic (numberText_isAtomic h).2,
      inner_of_blanks s.isGap.2]
  rw [operands, splitCommas_left (inner_of_padded s.isLeft),
    splitCommas_right (inner_of_padded s.isRight) middle]

/-- The operands are read around the place, and a number in it. -/
theorem operands?_operands (h : NumberText t n) :
    ∃ fs gs, operands? (s.operands t) = some (fs ++ .atom (.number t) :: gs) ∧
      fs.mapM OperandForm.toOperand = .ok s.before ∧
      gs.mapM OperandForm.toOperand = .ok s.after := by
  have read {parts : List (List Char)} {os : List Operand} (padded : List.Forall₂ Padded parts os) :
      ∃ fs, parts.mapM operand? = some fs ∧ fs.mapM OperandForm.toOperand = .ok os := by
    simpa only [mapM_eq_some, mapM_eq_ok, forall₂_comp_iff, padded_iff] using padded
  obtain ⟨fs, left, before⟩ := read s.isLeft
  obtain ⟨gs, right, after⟩ := read s.isRight
  refine ⟨fs, gs, ?_, before, after⟩
  have nonblank : ¬ (skipBlanks (s.operands t)).isEmpty = true := by
    intro empty
    obtain ⟨ne, atomic⟩ := numberText_isAtomic h
    obtain ⟨c, cs, rfl⟩ := List.exists_cons_of_ne_nil ne
    have blank := blanks_of_skipBlanks_isEmpty empty c (by simp [operands])
    rw [← isBlank_iff, (atomic c List.mem_cons_self).apart.1] at blank
    cases blank
  rw [operands?, if_neg nonblank, s.splitCommas_operands h]
  rw [mapM_eq_some] at left right ⊢
  exact List.rel_append left (.cons (operand?_of_numberText s.isGap.1 h s.isGap.2) right)

theorem plain_operands (h : NumberText t n) : ';' ∉ s.operands t ∧ ':' ∉ s.operands t := by
  have left part mem := not_mem_of_inner (inner_of_padded s.isLeft part mem)
  have right part mem := not_mem_of_inner (inner_of_padded s.isRight part mem)
  have number := not_mem_of_inner (inner_of_isAtomic (numberText_isAtomic h).2)
  have gap₁ := not_mem_of_inner (inner_of_blanks s.isGap.1)
  have gap₂ := not_mem_of_inner (inner_of_blanks s.isGap.2)
  simp only [operands, List.mem_append, List.mem_flatMap, List.mem_cons, List.not_mem_nil, not_or,
    not_exists, not_and, or_false, number, gap₁, gap₂, not_false_eq_true, true_and]
  constructor
  · exact ⟨fun part mem => ⟨(left part mem).1, by decide⟩,
      fun part mem => ⟨by decide, (right part mem).1⟩⟩
  · exact ⟨fun part mem => ⟨(left part mem).2, by decide⟩,
      fun part mem => ⟨by decide, (right part mem).2⟩⟩

/-- A line with a number in the place has the form that it should, whatever the size of the
number. -/
theorem parse?_fill (h : NumberText t n) (fits : s.Fits t) :
    ∃ name fs gs,
      (name.map fun name => Statement.Body.label (String.ofList name)).toList = s.labels ∧
      Form.parse? (s.fill t).toList =
        some ⟨name, some ⟨s.mnemonic, fs ++ .atom (.number t) :: gs⟩⟩ ∧
      fs.mapM OperandForm.toOperand = .ok s.before ∧
      gs.mapM OperandForm.toOperand = .ok s.after := by
  obtain ⟨fs, gs, read, before, after⟩ := s.operands?_operands h
  have plain : ';' ∉ s.mnemonic ++ s.operands t ∧ ':' ∉ s.mnemonic ++ s.operands t := by
    have first := not_mem_of_inner (inner_of_mnemonic s.isMnemonic)
    simp [first, s.plain_operands h]
  obtain ⟨name, labels, parsed⟩ := parse?_append s.isFront plain s.isComment
  rw [skipBlanks_of_stops (stops_blank_mnemonic s.isMnemonic _),
    instruction?_mnemonic s.isMnemonic fits, read] at parsed
  exact ⟨name, fs, gs, labels, by rw [fill, String.toList_ofList, parsed]; rfl, before, after⟩

/-- A line with a number in the place is read if the number is in range, and then the number is the
operand that stands there. -/
theorem bodies_fill (h : NumberText t n) (fits : s.Fits t) {bs : List Statement.Body} :
    bodies (s.fill t) = .ok bs ↔ n.natAbs < 0x8000000000000000 ∧
      ∃ body, Says s.mnemonic (s.before ++ .immediate n :: s.after) body ∧
        bs = s.labels ++ [body] := by
  obtain ⟨name, fs, gs, labels, parsed, before, after⟩ := s.parse?_fill h fits
  have number : (OperandForm.atom (.number t)).toOperand = (literal t).map .immediate := rfl
  rw [bodies, parsed, formBodies_eq_ok, labels]
  simp only [instructionBodies, map_eq_ok, toBody_eq_ok, List.mapM_append, List.mapM_cons, before,
    after, number, literal_of_numberText h]
  by_cases small : n.natAbs < 0x8000000000000000
  · simp only [if_pos small]
    constructor
    · rintro ⟨_, ⟨body, ⟨os, values, said⟩, rfl⟩, rfl⟩
      cases values
      exact ⟨small, body, said, rfl⟩
    · rintro ⟨-, body, said, rfl⟩
      exact ⟨[body], ⟨body, ⟨_, rfl, said⟩, rfl⟩, rfl⟩
  · simp only [if_neg small]
    constructor
    · rintro ⟨_, ⟨body, ⟨os, values, said⟩, rfl⟩, rfl⟩
      cases values
    · rintro ⟨small', -⟩
      exact absurd small' small

end Slot

end AsmTrace.Line
