import AsmTrace.Line.Expectation
import AsmTrace.Proofs.Remainders

/-!
# The lines that are matched

What a malformed line lacks is found by a match of the grammar that is not the parser: it tries
alternatives in order, goes from left to right and skips a comment wherever it finds one, where the
parser drops the comment first and cuts operands apart at their commas. Both accept the same lines
(`Matcher.isSome_line`).

They are compared by what each part of the grammar leaves of a text. A matcher leaves the same
whatever its position is and whichever failures were kept (`Matcher.Leaves`).
-/

namespace AsmTrace.Line

/-! ## Blanks and comments -/

/-- A text after blanks and a comment, which takes all that is left. -/
def skipComment (cs : List Char) : List Char :=
  match skipBlanks cs with
  | ';' :: _ => []
  | rest => rest

/-- What is skipped is the end of the text, or goes up to a character of the line. -/
theorem skipComment_cases (cs : List Char) :
    skipComment cs = [] ∧ skipBlanks (withoutComment cs) = [] ∨
      ∃ c rest, c ≠ ';' ∧ skipBlanks cs = c :: rest ∧ skipComment cs = c :: rest ∧
        skipBlanks (withoutComment cs) = c :: withoutComment rest := by
  have uncommented : skipBlanks (withoutComment cs) = before ';' (skipBlanks cs) :=
    (before_skipBlanks rfl cs).symm
  rw [uncommented, skipComment]
  rcases skipBlanks cs with _ | ⟨c, rest⟩
  · exact .inl ⟨rfl, rfl⟩
  · by_cases semicolon : c = ';'
    · subst semicolon
      exact .inl ⟨rfl, before_cons_self ';' rest⟩
    · refine .inr ⟨c, rest, semicolon, rfl, ?_, before_cons_of_ne semicolon rest⟩
      simp [semicolon]

/-- Nothing is left of a line but blanks and a comment. -/
def atEnd (cs : List Char) : Bool := (skipComment cs).isEmpty

/-- A text is at its end if it is blank up to its comment. -/
theorem atEnd_eq (cs : List Char) : atEnd cs = (skipBlanks (withoutComment cs)).isEmpty := by
  rcases skipComment_cases cs with ⟨skipped, uncommented⟩ | ⟨c, rest, -, -, skipped, uncommented⟩
  · rw [atEnd, skipped, uncommented]
  · rw [atEnd, skipped, uncommented]
    rfl

/-- Skipping a comment as well as blanks skips only the blanks of what comes before it. -/
theorem withoutComment_skipComment (cs : List Char) :
    withoutComment (skipComment cs) = skipBlanks (withoutComment cs) := by
  rcases skipComment_cases cs with ⟨skipped, uncommented⟩ | ⟨c, rest, ne, -, skipped, uncommented⟩
  · rw [skipped, uncommented]
    rfl
  · rw [skipped, uncommented]
    exact before_cons_of_ne ne rest

/-- There is nothing to skip after skipping. -/
@[simp] theorem skipComment_skipComment (cs : List Char) :
    skipComment (skipComment cs) = skipComment cs := by
  rcases skipComment_cases cs with ⟨skipped, -⟩ | ⟨c, rest, ne, blank, skipped, -⟩
  · rw [skipped]
    rfl
  · have start : Stops isBlank (c :: rest) := blank ▸ stops_skipBlanks cs
    rw [skipped, skipComment, skipBlanks_of_stops start]
    simp [ne]

/-- After skipping, only the empty text is at its end. -/
@[simp] theorem atEnd_skipComment (cs : List Char) :
    atEnd (skipComment cs) = (skipComment cs).isEmpty := by
  rw [atEnd, skipComment_skipComment]

/-- After skipping, a text is a comment only if it is empty. -/
theorem isEmpty_withoutComment (cs : List Char) :
    (withoutComment (skipComment cs)).isEmpty = (skipComment cs).isEmpty := by
  rw [withoutComment_skipComment, ← atEnd_eq, atEnd]

/-- Skipping does not lengthen a text. -/
theorem length_skipComment_le (cs : List Char) : (skipComment cs).length ≤ cs.length := by
  rcases skipComment_cases cs with ⟨skipped, -⟩ | ⟨c, rest, -, blank, skipped, -⟩
  · rw [skipped]
    exact Nat.zero_le _
  · rw [skipped, ← blank]
    exact length_skipBlanks_le cs

/-- One part after another, with blanks or a comment between them. -/
def Remainder.andSkipping (f g : Remainder) : Remainder :=
  f.followedBy fun cs => g (skipComment cs)

/-- Parts after one another, at most `bound` of them. -/
def Remainder.repeated (f : Remainder) : Nat → List Char → List Char
  | 0, cs => cs
  | bound + 1, cs => (f (skipBlanks cs)).elim cs (f.repeated bound)

/-- Operands with commas between them, at most `length` after the first. -/
def Remainder.operands (length : Nat) : Remainder := fun cs =>
  (ofReader readOperand cs).map (((char ',').andThen (ofReader readOperand)).repeated length)

def Remainder.instruction (length : Nat) : Remainder :=
  (ofReader readMnemonic).andSkipping (operands length).optional

/-- A part that cannot be empty finds no comment either, so only blanks are skipped before it. -/
theorem Remainder.Cuts.skipComment_eq {f : Remainder} (h : f.Cuts ';') (nil : f [] = none)
    (cs : List Char) : f (skipComment cs) = f (skipBlanks cs) := by
  rw [skipComment]
  split
  · next rest found => rw [found, nil, h.eq_none_of_nil nil]
  · rfl

/-! ## What matchers leave -/

namespace Matcher

/-- `Leaves m f` holds when `m` succeeds where `f` does and leaves the same of the text, whatever
the position is and whichever failures were kept. -/
def Leaves (m : Matcher) (f : Remainder) : Prop :=
  ∀ cur attempts, (m cur attempts).1.map Cursor.rest = f cur.rest

variable {m m' : Matcher} {f g : Remainder}

/-- The matcher skips blanks and a comment. -/
@[simp] theorem rest_skip (cur : Cursor) : (skip cur).rest = skipComment cur.rest := by
  rw [skip, skipComment, skipBlanks]
  split <;> simp_all

/-- Matching one character. -/
theorem leaves_char (c : Char) : (char c).Leaves (.char c) := by
  rintro ⟨position, _ | ⟨d, rest⟩⟩ attempts
  · rfl
  · by_cases same : d = c <;> simp [char, Remainder.char, same]

/-- Matching what a reader reads. -/
theorem leaves_lexeme (read : List Char → Option (List Char × List Char)) :
    (lexeme read).Leaves (.ofReader read) := by
  intro cur attempts
  simp [lexeme, Remainder.ofReader, Function.comp_def]

namespace Leaves

/-- A name changes what is expected, and not what is left. -/
theorem named (h : m.Leaves f) (rule : Rule) : (named rule m).Leaves f := by
  intro cur attempts
  rw [← h cur attempts, Matcher.named]
  rcases m cur attempts with ⟨_ | next, attempts⟩ <;> rfl

/-- An ordered choice. -/
theorem orElse (h : m.Leaves f) (h' : m'.Leaves g) : (orElse m m').Leaves (f.orElse g) := by
  intro cur attempts
  rw [Remainder.orElse, ← h cur attempts, Matcher.orElse]
  rcases m cur attempts with ⟨_ | next, attempts⟩
  · exact h' cur attempts
  · rfl

/-- A part or nothing. -/
theorem optional (h : m.Leaves f) : (optional m).Leaves f.optional := by
  intro cur attempts
  rw [Remainder.optional, ← h cur attempts, Matcher.optional]
  rcases m cur attempts with ⟨_ | next, attempts⟩ <;> rfl

/-- A sequence, with blanks and comments skipped in between. -/
theorem andThen (h : m.Leaves f) (h' : m'.Leaves g) :
    (andThen m m').Leaves (f.andSkipping g) := by
  intro cur attempts
  rw [Remainder.andSkipping, Remainder.followedBy, ← h cur attempts, Matcher.andThen]
  rcases m cur attempts with ⟨_ | next, attempts⟩
  · rfl
  · exact (h' (skip next) attempts).trans (congrArg g (rest_skip next))

/-- Inside of a part there is no comment. -/
theorem andThen_of_cuts (h : m.Leaves f) (h' : m'.Leaves g) (cuts : g.Cuts ';')
    (nil : g [] = none) : (Matcher.andThen m m').Leaves (f.andThen g) := by
  have same : f.andSkipping g = f.andThen g := by
    simp only [Remainder.andSkipping, Remainder.andThen, cuts.skipComment_eq nil]
  exact same ▸ h.andThen h'

/-- A repetition, of a part that stays in front of comments and takes something. -/
theorem many (h : m.Leaves f) (cuts : f.Cuts ';') (nil : f [] = none) (bound : Nat) :
    (many m bound).Leaves fun cs => some (f.repeated bound cs) := by
  induction bound with
  | zero => exact fun cur attempts => rfl
  | succ bound ih =>
    intro cur attempts
    have first := h (skip cur) attempts
    rw [rest_skip, cuts.skipComment_eq nil] at first
    simp only [Matcher.many, Remainder.repeated, ← first]
    rcases m (skip cur) attempts with ⟨_ | next, attempts⟩
    · rfl
    · exact ih next attempts

end Leaves

/-- An identifier. -/
theorem leaves_identifier : identifier.Leaves (.ofReader readIdentifier) :=
  (leaves_lexeme readIdentifier).named .identifier

/-- A magnitude: the same three readers in the same order. -/
theorem leaves_unsigned : unsigned.Leaves (.ofReader readUnsigned) :=
  (leaves_lexeme readUnsigned).named .unsigned

/-- A number. -/
theorem leaves_number : number.Leaves (.ofReader readNumber) :=
  (leaves_lexeme readNumber).named .number

/-- An operand. -/
theorem leaves_operand : operand.Leaves (.ofReader readOperand) := by
  have unsigned : Remainder.Cuts ';' (.ofReader readUnsigned) := .readUnsigned (.inr rfl)
  have atom : Remainder.Cuts ';' (.ofReader readAtom) := .readAtom (.inr rfl)
  have base := leaves_number.orElse leaves_identifier
  rw [← Remainder.readAtom_eq] at base
  have sign := ((leaves_char '+').orElse (leaves_char '-')).named .sign
  have offset := (sign.andThen_of_cuts leaves_unsigned unsigned rfl).named .displacement
  have cutsOffset : Remainder.Cuts ';' .displacement :=
    ((Remainder.Cuts.char (by decide)).orElse (.char (by decide))).andThen unsigned rfl
  have closing : Remainder.Cuts ';' (.char ']') := .char (by decide)
  have cutsClosed := cutsOffset.optional.andThen closing rfl
  have closed := offset.optional.andThen_of_cuts (leaves_char ']') closing rfl
  have inside := (base.named .memoryBase).andThen_of_cuts closed cutsClosed rfl
  have memory := (leaves_char '[').andThen_of_cuts inside (atom.andThen cutsClosed rfl) rfl
  rw [Remainder.readOperand_eq]
  exact ((memory.named .memory).orElse base).named .operand

/-- A label. -/
theorem leaves_label : label.Leaves (.ofReader readLabel) := by
  rw [Remainder.readLabel_eq]
  exact (leaves_identifier.andThen_of_cuts (leaves_char ':') (.char (by decide)) rfl).named .label

/-- Operands: one, and any number more after commas. -/
theorem leaves_operands (length : Nat) : (operands length).Leaves (.operands length) := by
  refine Leaves.named (fun cur attempts => ?_) .operands
  have more : (andThen (char ',') operand).Leaves _ :=
    (leaves_char ',').andThen_of_cuts leaves_operand (.readOperand (.inr rfl)) rfl
  have cuts : Remainder.Cuts ';' (.andThen (.char ',') (.ofReader readOperand)) :=
    (Remainder.Cuts.char (by decide)).andThen (.readOperand (.inr rfl)) rfl
  rw [Remainder.operands, ← leaves_operand cur attempts]
  rcases operand cur attempts with ⟨_ | next, attempts⟩
  · rfl
  · exact more.many cuts rfl length next attempts

/-- An instruction: a mnemonic and perhaps operands. -/
theorem leaves_instruction (length : Nat) : (instruction length).Leaves (.instruction length) :=
  (((leaves_lexeme readMnemonic).named .mnemonic).andThen (leaves_operands length).optional).named
    .instruction

end Matcher

/-! ## Operands -/

/-- Cutting at commas: what comes before the first, and what comes after it cut likewise. -/
theorem splitCommas_eq (cs : List Char) :
    splitCommas cs = before ',' cs :: (since ',' cs).tail?.elim [] splitCommas := by
  induction cs with
  | nil => rfl
  | cons c cs ih =>
    by_cases comma : c = ','
    · subst comma
      simp [splitCommas]
    · rw [splitCommas, if_neg comma, ih, before_cons_of_ne comma, since_cons_of_ne comma]

/-- A piece is an operand if reading one leaves blanks. -/
theorem isSome_operand? (cs : List Char) :
    (operand? cs).isSome =
      (Remainder.ofReader readOperand (skipBlanks cs)).any
        fun rest => (skipBlanks rest).isEmpty := by
  rw [operand?, Remainder.ofReader]
  cases readOperand (skipBlanks cs) with
  | none => rfl
  | some read => by_cases empty : (skipBlanks read.2).isEmpty = true <;> simp [empty]

/-- All of a list can be read if the first can and the others can. -/
theorem isSome_mapM_cons {α β : Type} (f : α → Option β) (a : α) (l : List α) :
    ((a :: l).mapM f).isSome = ((f a).isSome && (l.mapM f).isSome) := by
  rw [List.mapM_cons]
  cases f a with
  | none => rfl
  | some b => cases l.mapM f <;> rfl

/-- What may follow an operand: nothing, or a comma and operands. -/
def moreOperands : List Char → Bool
  | [] => true
  | c :: cs => c = ',' && ((splitCommas cs).mapM operand?).isSome

/-- The operands between commas are an operand and what may follow it. -/
theorem isSome_mapM_operand? (cs : List Char) :
    ((splitCommas cs).mapM operand?).isSome =
      (Remainder.ofReader readOperand (skipBlanks cs)).any fun rest =>
        moreOperands (skipBlanks rest) := by
  have cuts : Remainder.Cuts ',' (.ofReader readOperand) := .readOperand (.inl rfl)
  rw [splitCommas_eq, isSome_mapM_cons, isSome_operand?, ← before_skipBlanks rfl, cuts.cut]
  cases left : Remainder.ofReader readOperand (skipBlanks cs) with
  | none => rfl
  | some rest =>
    have since_eq : since ',' cs = since ',' (skipBlanks rest) := by
      rw [since_skipBlanks rfl, cuts.since_eq left, since_skipBlanks rfl]
    rw [since_eq, Option.map_some, Option.any_some, Option.any_some, ← before_skipBlanks rfl]
    rcases skipBlanks rest with _ | ⟨c, rest⟩
    · rfl
    · by_cases comma : c = ','
      · subst comma
        simp [moreOperands]
      · simp [moreOperands, comma, before_cons_of_ne comma]

/-- After an operand the match goes on to the end of the line exactly if operands may follow. -/
theorem atEnd_repeated {bound : Nat} {cs : List Char} (le : cs.length ≤ bound) :
    atEnd (((Remainder.char ',').andThen (.ofReader readOperand)).repeated bound cs) =
      moreOperands (skipBlanks (withoutComment cs)) := by
  have cuts : Remainder.Cuts ';' (.ofReader readOperand) := .readOperand (.inr rfl)
  -- on the bound: each round reads a comma at least
  induction bound generalizing cs with
  | zero =>
    obtain rfl := List.eq_nil_of_length_eq_zero (Nat.le_zero.1 le)
    rfl
  | succ bound ih =>
    have shorter := length_skipBlanks_le cs
    have ends := atEnd_eq cs
    have uncommented : skipBlanks (withoutComment cs) = before ';' (skipBlanks cs) :=
      (before_skipBlanks rfl cs).symm
    rw [uncommented] at ends ⊢
    rw [Remainder.repeated]
    generalize skipBlanks cs = z at shorter ends ⊢
    rcases z with _ | ⟨c, rest⟩
    · exact ends
    · by_cases comma : c = ','
      · subst comma
        have more : moreOperands (before ';' (',' :: rest)) =
            ((Remainder.ofReader readOperand (skipBlanks rest)).map (before ';')).any fun rest =>
              moreOperands (skipBlanks rest) := by
          rw [before_cons_of_ne (by decide), moreOperands, isSome_mapM_operand?,
            ← before_skipBlanks rfl, cuts.cut]
          rfl
        rw [more]
        change atEnd (Option.elim (Remainder.ofReader readOperand (skipBlanks rest)) _ _) = _
        cases left : Remainder.ofReader readOperand (skipBlanks rest) with
        | none => exact ends
        | some rest' =>
          refine ih ?_
          calc rest'.length
            _ ≤ (skipBlanks rest).length := cuts.length_le left
            _ ≤ rest.length := length_skipBlanks_le rest
            _ ≤ bound := Nat.le_of_succ_le_succ (Nat.le_trans shorter le)
      · have stuck : (Remainder.char ',').andThen (.ofReader readOperand) (c :: rest) = none := by
          simp [Remainder.andThen, Remainder.followedBy, Remainder.char, comma]
        rw [stuck, Option.elim_none, ends]
        by_cases semicolon : c = ';'
        · subst semicolon
          rw [before_cons_self]
          rfl
        · rw [before_cons_of_ne semicolon]
          simp [moreOperands, comma]

/-- Matching operands ends the line if the pieces between commas are operands. -/
theorem atEnd_operands {length : Nat} {cs : List Char} (le : cs.length ≤ length) :
    ((Remainder.operands length).optional (skipComment cs)).any atEnd =
      (operands? (withoutComment cs)).isSome := by
  have cuts : Remainder.Cuts ';' (.ofReader readOperand) := .readOperand (.inr rfl)
  have uncommented := withoutComment_skipComment cs
  rw [Remainder.optional, Option.any_some, operands?, ← uncommented, isEmpty_withoutComment]
  by_cases empty : (skipComment cs).isEmpty = true
  · rw [if_pos empty, List.isEmpty_iff.1 empty]
    rfl
  · have cut : Remainder.ofReader readOperand (withoutComment (skipComment cs)) =
      (Remainder.ofReader readOperand (skipComment cs)).map withoutComment := cuts.cut _
    rw [if_neg empty, isSome_mapM_operand?, ← uncommented, cut, Remainder.operands]
    cases left : Remainder.ofReader readOperand (skipComment cs) with
    | none => simpa using empty
    | some rest =>
      have shorter : rest.length ≤ length :=
        Nat.le_trans (cuts.length_le left) (Nat.le_trans (length_skipComment_le cs) le)
      exact atEnd_repeated shorter

/-! ## Lines -/

/-- A sequence succeeds if its second part does after the first. -/
theorem Remainder.isSome_andSkipping (f g : Remainder) (cs : List Char) :
    (f.andSkipping g cs).isSome = (f cs).any fun rest => (g (skipComment rest)).isSome := by
  rw [andSkipping, followedBy]
  cases f cs <;> rfl

/-- A text that is not empty is an instruction if operands follow its mnemonic. -/
theorem isSome_instruction? {cs : List Char} (nonempty : ¬ cs.isEmpty = true) :
    (instruction? cs).isSome =
      (Remainder.ofReader readMnemonic cs).any fun rest => (operands? rest).isSome := by
  rw [instruction?, if_neg nonempty, Remainder.ofReader]
  cases readMnemonic cs with
  | none => rfl
  | some read => simp

/-- Matching an instruction ends the line if its text is one or is blank. -/
theorem atEnd_instruction {length : Nat} {cs : List Char} (le : cs.length ≤ length) :
    ((Remainder.instruction length).optional (skipComment cs)).any atEnd =
      (instruction? (skipBlanks (withoutComment cs))).isSome := by
  have cuts := Remainder.Cuts.readMnemonic
  rw [Remainder.optional, Option.any_some, ← withoutComment_skipComment]
  by_cases empty : (skipComment cs).isEmpty = true
  · rw [List.isEmpty_iff.1 empty]
    rfl
  · have cut : Remainder.ofReader readMnemonic (withoutComment (skipComment cs)) =
      (Remainder.ofReader readMnemonic (skipComment cs)).map withoutComment := cuts.cut _
    rw [isSome_instruction? (by rwa [isEmpty_withoutComment]), cut, Remainder.instruction,
      Remainder.andSkipping, Remainder.followedBy]
    cases left : Remainder.ofReader readMnemonic (skipComment cs) with
    | none => simpa using empty
    | some rest =>
      have shorter : rest.length ≤ length :=
        Nat.le_trans (cuts.length_le left) (Nat.le_trans (length_skipComment_le cs) le)
      exact atEnd_operands shorter

/-- What is left of a line after its label, if it has one. -/
theorem isSome_parse? (text : List Char) :
    (Form.parse? text).isSome =
      ((Remainder.ofReader readLabel).optional (skipBlanks (withoutComment text))).any fun rest =>
        (instruction? (skipBlanks rest)).isSome := by
  rw [Form.parse?, Remainder.optional, Remainder.ofReader]
  cases readLabel (skipBlanks (withoutComment text)) with
  | none =>
    rw [Option.map_none, Option.getD_none, Option.any_some,
      skipBlanks_of_stops (stops_skipBlanks _), Option.isSome_map]
  | some read => simp

namespace Matcher

/-- The end of the line. -/
theorem leaves_endOfLine : endOfLine.Leaves fun cs => if cs.isEmpty then some cs else none := by
  refine Leaves.named (fun cur attempts => ?_) .endOfLine
  by_cases empty : cur.rest.isEmpty = true <;> simp [empty]

/-- A line: perhaps a label, perhaps an instruction, and the end. -/
theorem leaves_line (length : Nat) : (line length).Leaves fun cs =>
    (Remainder.ofReader readLabel).optional.andSkipping
      ((Remainder.instruction length).optional.andSkipping
        fun cs => if cs.isEmpty then some cs else none) (skipComment cs) := by
  refine Leaves.named (fun cur attempts => ?_) .line
  have parts := leaves_label.optional.andThen
    ((leaves_instruction length).optional.andThen leaves_endOfLine)
  exact (parts (skip cur) attempts).trans (congrArg _ (rest_skip cur))

/-- A line is matched exactly if it has a form, wherever it starts and whichever failures were kept
before. -/
theorem isSome_line {length : Nat} {cur : Cursor} (le : cur.rest.length ≤ length)
    (attempts : Attempts) :
    (line length cur attempts).1.isSome = (Form.parse? cur.rest).isSome := by
  have cuts := Remainder.Cuts.readLabel.optional
  have ends (cs : List Char) :
      (if (skipComment cs).isEmpty then some (skipComment cs) else none).isSome = atEnd cs := by
    rw [atEnd]
    cases (skipComment cs).isEmpty <;> rfl
  have cut : (Remainder.ofReader readLabel).optional (withoutComment (skipComment cur.rest)) =
      ((Remainder.ofReader readLabel).optional (skipComment cur.rest)).map withoutComment :=
    cuts.cut _
  rw [← Option.isSome_map (f := Cursor.rest), leaves_line length cur attempts,
    Remainder.isSome_andSkipping, isSome_parse?, ← withoutComment_skipComment, cut]
  simp only [Remainder.isSome_andSkipping, ends]
  cases left : (Remainder.ofReader readLabel).optional (skipComment cur.rest) with
  | none => rfl
  | some rest =>
    have shorter : rest.length ≤ length :=
      Nat.le_trans (cuts.length_le left) (Nat.le_trans (length_skipComment_le cur.rest) le)
    exact atEnd_instruction shorter

/-- The match from which the report on a line comes succeeds exactly if the line has a form. -/
theorem isSome_line_start (text : List Char) :
    (line text.length ⟨0, text⟩ {}).1.isSome = (Form.parse? text).isSome :=
  isSome_line (Nat.le_refl text.length) {}

end Matcher

end AsmTrace.Line
