import AsmTrace.Proofs.Operands

/-!
# What is left of a text

A reader gives what it has read and what follows. Here only what follows counts (`Remainder`), and
readers are put together from those of single characters and runs of them. Every part of a line
stops before a comment, and every operand before a comma as well (`Cuts`), so that it makes no
difference whether the text was cut there.
-/

namespace AsmTrace.Line

/-! ## Texts cut at a character -/

/-- A text up to a character. -/
def before (d : Char) (cs : List Char) : List Char := cs.takeWhile (· != d)

/-- A text from a character on. -/
def since (d : Char) (cs : List Char) : List Char := cs.dropWhile (· != d)

variable {d : Char} {cs rest : List Char}

@[simp] theorem before_nil (d : Char) : before d [] = [] := rfl

@[simp] theorem since_nil (d : Char) : since d [] = [] := rfl

@[simp] theorem before_cons_self (d : Char) (cs : List Char) : before d (d :: cs) = [] := by
  simp [before]

@[simp] theorem since_cons_self (d : Char) (cs : List Char) : since d (d :: cs) = d :: cs := by
  simp [since]

theorem before_cons_of_ne {c : Char} (ne : c ≠ d) (cs : List Char) :
    before d (c :: cs) = c :: before d cs := by
  simp [before, ne]

theorem since_cons_of_ne {c : Char} (ne : c ≠ d) (cs : List Char) :
    since d (c :: cs) = since d cs := by
  simp [since, ne]

/-- A stretch without the separator makes no difference to what starts there. -/
theorem since_append {l : List Char} (notMem : d ∉ l) (cs : List Char) :
    since d (l ++ cs) = since d cs := by
  refine List.dropWhile_append_of_pos fun c mem => bne_iff_ne.2 ?_
  rintro rfl
  exact notMem mem

/-- A separator that is no blank is not among the blanks. -/
theorem ne_of_isBlank {c : Char} (solid : isBlank d = false) (blank : isBlank c = true) :
    c ≠ d := by
  rintro rfl
  rw [solid] at blank
  cases blank

/-- Blanks are skipped in front of the separator, or not at all. -/
theorem before_skipBlanks (solid : isBlank d = false) (cs : List Char) :
    before d (skipBlanks cs) = skipBlanks (before d cs) := by
  induction cs with
  | nil => rfl
  | cons c cs ih =>
    by_cases blank : isBlank c = true
    · rw [before_cons_of_ne (ne_of_isBlank solid blank)]
      simpa [skipBlanks, blank] using ih
    · rw [skipBlanks_of_stops (stops_cons.2 (Bool.eq_false_iff.2 blank))]
      by_cases eq : c = d
      · subst eq
        simp [skipBlanks]
      · rw [before_cons_of_ne eq,
          skipBlanks_of_stops (stops_cons.2 (Bool.eq_false_iff.2 blank))]

/-- Blanks at the front of a text, apart from a character that is none. -/
theorem exists_blanks (solid : isBlank d = false) (cs : List Char) :
    ∃ b, cs = b ++ skipBlanks cs ∧ d ∉ b := by
  obtain ⟨b, blanks, split⟩ := exists_skipBlanks cs
  exact ⟨b, split, fun mem => ne_of_isBlank solid (isBlank_iff.2 (blanks d mem)) rfl⟩

/-- Skipping blanks does not go past the separator. -/
theorem since_skipBlanks (solid : isBlank d = false) (cs : List Char) :
    since d (skipBlanks cs) = since d cs := by
  obtain ⟨b, split, notMem⟩ := exists_blanks solid cs
  rw [← since_append notMem (skipBlanks cs), ← split]

/-- Skipping blanks does not lengthen a text. -/
theorem length_skipBlanks_le (cs : List Char) : (skipBlanks cs).length ≤ cs.length :=
  (List.dropWhile_suffix isBlank).length_le

/-! ## What is left of a text -/

/-- What a part of the grammar leaves of a text that starts with it. -/
abbrev Remainder : Type := List Char → Option (List Char)

namespace Remainder

def ofReader {α : Type} (read : List Char → Option (α × List Char)) : Remainder :=
  fun cs => (read cs).map Prod.snd

def char (c : Char) : Remainder
  | [] => none
  | x :: cs => if x = c then some cs else none

/-- One part directly after another. -/
def followedBy (f g : Remainder) : Remainder := fun cs => (f cs).bind g

/-- One part after another, with blanks between them. -/
def andThen (f g : Remainder) : Remainder := f.followedBy fun cs => g (skipBlanks cs)

def orElse (f g : Remainder) : Remainder := fun cs => (f cs).or (g cs)

def optional (f : Remainder) : Remainder := fun cs => some ((f cs).getD cs)

/-- `Cuts d f` holds when `f` does not read as far as the character `d`: it leaves the same of a
text whether or not the text is cut there, and what it reads is without `d`. -/
structure Cuts (d : Char) (f : Remainder) : Prop where
  cut : ∀ cs, f (before d cs) = (f cs).map (before d)
  taken : ∀ {cs rest}, f cs = some rest → ∃ l, cs = l ++ rest ∧ d ∉ l

namespace Cuts

variable {f g : Remainder}

/-- A part that stays in front of the separator leaves what starts there. -/
theorem since_eq (h : Cuts d f) (left : f cs = some rest) : since d rest = since d cs := by
  obtain ⟨l, rfl, notMem⟩ := h.taken left
  exact (since_append notMem rest).symm

/-- Such a part does not lengthen the text. -/
theorem length_le (h : Cuts d f) (left : f cs = some rest) : rest.length ≤ cs.length := by
  obtain ⟨l, rfl, -⟩ := h.taken left
  simp

/-- Where there is nothing to read for `f`, there is nothing to read for it before `d`. -/
theorem eq_none_of_nil (h : Cuts d f) (nil : f [] = none) (cs : List Char) :
    f (d :: cs) = none := by
  have cut := h.cut (d :: cs)
  rw [before_cons_self, nil] at cut
  exact Option.map_eq_none_iff.1 cut.symm

/-- Any other character than the separator. -/
theorem char {c : Char} (ne : c ≠ d) : Cuts d (.char c) where
  cut := by
    rintro (_ | ⟨x, cs⟩)
    · rfl
    · by_cases eq : x = d
      · subst eq
        simp [Remainder.char, Ne.symm ne]
      · rw [before_cons_of_ne eq]
        by_cases same : x = c <;> simp [Remainder.char, same]
  taken := by
    rintro (_ | ⟨x, cs⟩) rest left
    · cases left
    · obtain ⟨rfl, ⟨⟩⟩ := Option.ite_none_right_eq_some.1 left
      exact ⟨[x], rfl, by simpa using Ne.symm ne⟩

/-- Blanks, unless the separator is one. -/
theorem blanks (solid : isBlank d = false) : Cuts d fun cs => some (skipBlanks cs) where
  cut cs := by rw [Option.map_some, before_skipBlanks solid]
  taken := by
    rintro cs rest ⟨⟩
    exact exists_blanks solid cs

/-- One part and then another. -/
theorem followedBy (hf : Cuts d f) (hg : Cuts d g) : Cuts d (f.followedBy g) where
  cut cs := by
    rw [Remainder.followedBy, Remainder.followedBy, hf.cut]
    cases f cs with
    | none => rfl
    | some rest => exact hg.cut rest
  taken := by
    intro cs rest left
    obtain ⟨middle, first, second⟩ := Option.bind_eq_some_iff.1 left
    obtain ⟨l, rfl, notMem⟩ := hf.taken first
    obtain ⟨l', rfl, notMem'⟩ := hg.taken second
    exact ⟨l ++ l', (List.append_assoc ..).symm, by simp [notMem, notMem']⟩

/-- One part, blanks and then another. -/
theorem andThen (hf : Cuts d f) (hg : Cuts d g) (solid : isBlank d = false) :
    Cuts d (f.andThen g) :=
  hf.followedBy ((blanks solid).followedBy hg)

/-- One part or else another. -/
theorem orElse (hf : Cuts d f) (hg : Cuts d g) : Cuts d (f.orElse g) where
  cut cs := by
    rw [Remainder.orElse, Remainder.orElse, hf.cut, hg.cut]
    cases f cs <;> rfl
  taken := by
    intro cs rest left
    rcases Option.or_eq_some_iff.1 left with first | ⟨-, second⟩
    · exact hf.taken first
    · exact hg.taken second

/-- A part or nothing. -/
theorem optional (hf : Cuts d f) : Cuts d f.optional where
  cut cs := by
    rw [Remainder.optional, Remainder.optional, hf.cut]
    cases f cs <;> rfl
  taken := by
    rintro cs rest ⟨⟩
    cases left : f cs with
    | none => exact ⟨[], rfl, List.not_mem_nil⟩
    | some rest => exact hf.taken left

/-- A run of characters among which the separator is not. -/
theorem readRun {first next : Char → Bool} (notFirst : first d = false) (notNext : next d = false) :
    Cuts d (.ofReader (readRun first next)) where
  cut := by
    have cut (cs : List Char) : (before d cs).dropWhile next = before d (cs.dropWhile next) := by
      induction cs with
      | nil => rfl
      | cons c cs ih =>
        by_cases eq : c = d
        · subst eq
          simp [notNext]
        · rw [before_cons_of_ne eq]
          by_cases inside : next c = true
          · simpa [inside] using ih
          · simp [inside, before_cons_of_ne eq]
    rintro (_ | ⟨c, cs⟩)
    · rfl
    · by_cases eq : c = d
      · subst eq
        simp [ofReader, Line.readRun, notFirst]
      · rw [before_cons_of_ne eq]
        by_cases start : first c = true <;> simp [ofReader, Line.readRun, start, cut]
  taken := by
    intro cs rest left
    obtain ⟨⟨l, rest⟩, read, ⟨⟩⟩ := Option.map_eq_some_iff.1 left
    obtain ⟨split, ⟨c, ds, rfl, start, inside⟩, -⟩ := readRun_eq_some.1 read
    refine ⟨_, split, ?_⟩
    rintro (_ | ⟨_, mem⟩)
    · simp [notFirst] at start
    · simpa [notNext] using inside d mem

end Cuts

/-! ## The parts of a line -/

/-- A marked magnitude: a zero, the mark in either case, and digits. -/
theorem readMarked_eq (lower upper : Char) (isDigit : Char → Bool) :
    ofReader (readMarked lower upper isDigit) =
      (char '0').followedBy (((char lower).orElse (char upper)).followedBy
        (ofReader (readRun isDigit isDigit))) := by
  funext cs
  rcases cs with _ | ⟨c, _ | ⟨x, cs⟩⟩
  · rfl
  · by_cases zero : c = '0' <;>
      simp [ofReader, readMarked, followedBy, orElse, char, zero]
  · by_cases zero : c = '0'
    · subst zero
      by_cases isLower : x = lower
      · simp [ofReader, readMarked, followedBy, orElse, char, isLower, Function.comp_def]
      · by_cases isUpper : x = upper
        · subst isUpper
          simp [ofReader, readMarked, followedBy, orElse, char, isLower, Function.comp_def]
        · simp [ofReader, readMarked, followedBy, orElse, char, isLower, isUpper]
    · simp [ofReader, readMarked, followedBy, char, zero]

/-- A magnitude: hexadecimal, else binary, else decimal. -/
theorem readUnsigned_eq : ofReader readUnsigned =
    (ofReader (readMarked 'x' 'X' isHexDigit)).orElse
      ((ofReader (readMarked 'b' 'B' isBinaryDigit)).orElse
        (ofReader (readRun Char.isDigit Char.isDigit))) := by
  funext cs
  simp only [ofReader, readUnsigned, orElse, Option.map_or]

/-- A number: a magnitude, with a minus sign or without. -/
theorem readNumber_eq : ofReader readNumber =
    ((char '-').followedBy (ofReader readUnsigned)).orElse (ofReader readUnsigned) := by
  funext cs
  rcases cs with _ | ⟨c, cs⟩
  · rfl
  · by_cases sign : c = '-'
    · subst sign
      simp [ofReader, readNumber, followedBy, orElse, char, readUnsigned_eq_none,
        Function.comp_def]
    · simp [ofReader, readNumber_of_ne sign, followedBy, orElse, char, sign]

/-- An operand without brackets: a number, else an identifier. -/
theorem readAtom_eq :
    ofReader readAtom = (ofReader readNumber).orElse (ofReader readIdentifier) := by
  funext cs
  simp only [ofReader, readAtom, orElse]
  cases readNumber cs with
  | some read => rfl
  | none => simp [Function.comp_def]

/-- What is added to the base of a memory operand, with its sign. -/
def displacement : Remainder := ((char '+').orElse (char '-')).andThen (ofReader readUnsigned)

/-- A memory operand. -/
def memory : Remainder :=
  (char '[').andThen ((ofReader readAtom).andThen (displacement.optional.andThen (char ']')))

/-- What follows a base: perhaps a displacement, and the closing bracket. -/
theorem readOffset_eq : ofReader readOffset =
    fun cs => displacement.optional.andThen (char ']') (skipBlanks cs) := by
  funext cs
  have start := stops_skipBlanks cs
  rw [ofReader, readOffset]
  generalize skipBlanks cs = z at start ⊢
  rcases z with _ | ⟨c, z⟩
  · rfl
  · have kept : skipBlanks (c :: z) = c :: z := skipBlanks_of_stops start
    by_cases closing : c = ']'
    · subst closing
      simp [andThen, followedBy, optional, displacement, orElse, char, kept]
    · by_cases sign : c = '+' ∨ c = '-'
      · have signed : ((char '+').orElse (char '-')) (c :: z) = some z := by
          rcases sign with rfl | rfl <;> rfl
        simp only [sign, if_true]
        cases read : readUnsigned (skipBlanks z) with
        | none =>
          have none : displacement (c :: z) = none := by
            simp [displacement, andThen, followedBy, signed, ofReader, read]
          simp [andThen, followedBy, optional, none, kept, char, closing]
        | some result =>
          obtain ⟨text, rest⟩ := result
          have left : displacement (c :: z) = some rest := by
            simp [displacement, andThen, followedBy, signed, ofReader, read]
          simp only [andThen, followedBy, optional, left, Option.getD_some, Option.bind_some]
          rcases skipBlanks rest with _ | ⟨x, rest⟩
          · rfl
          · by_cases same : x = ']' <;> simp [char, same]
      · have none : displacement (c :: z) = none := by
          simp [displacement, andThen, followedBy, orElse, char, not_or.1 sign]
        simp [andThen, followedBy, optional, none, kept, char, closing, sign]

/-- An operand: in brackets, else without. -/
theorem readOperand_eq : ofReader readOperand = memory.orElse (ofReader readAtom) := by
  funext cs
  rcases cs with _ | ⟨c, cs⟩
  · rfl
  · by_cases opening : c = '['
    · subst opening
      have notAtom : ofReader readAtom ('[' :: cs) = none := rfl
      have isMemory : memory ('[' :: cs) =
          (ofReader readAtom (skipBlanks cs)).bind (ofReader readOffset) := by
        rw [readOffset_eq]
        rfl
      rw [orElse, notAtom, Option.or_none, isMemory, ofReader, readOperand, ofReader]
      cases readAtom (skipBlanks cs) with
      | none => rfl
      | some read => simp [ofReader, Function.comp_def]
    · have notMemory : memory (c :: cs) = none := by
        simp [memory, andThen, followedBy, char, opening]
      simp [orElse, notMemory, ofReader, readOperand, opening, Function.comp_def]

/-- A label: an identifier and a colon. -/
theorem readLabel_eq : ofReader readLabel = (ofReader readIdentifier).andThen (char ':') := by
  funext cs
  simp only [ofReader, readLabel, andThen, followedBy]
  cases readIdentifier cs with
  | none => rfl
  | some read =>
    obtain ⟨name, rest⟩ := read
    simp only [Option.map_some, Option.bind_some]
    rcases skipBlanks rest with _ | ⟨c, rest⟩
    · rfl
    · by_cases colon : c = ':' <;> simp [char, colon]

namespace Cuts

/-- A marked magnitude has no separator that is neither mark nor digit. -/
theorem readMarked {lower upper : Char} {isDigit : Char → Bool} (lowerNe : lower ≠ d)
    (upperNe : upper ≠ d) (zeroNe : '0' ≠ d) (notDigit : isDigit d = false) :
    Cuts d (.ofReader (readMarked lower upper isDigit)) := by
  rw [readMarked_eq]
  exact (Cuts.char zeroNe).followedBy
    (((Cuts.char lowerNe).orElse (.char upperNe)).followedBy (readRun notDigit notDigit))

/-- A magnitude has neither a comma nor a semicolon. -/
theorem readUnsigned (separator : d = ',' ∨ d = ';') : Cuts d (.ofReader readUnsigned) := by
  rw [readUnsigned_eq]
  rcases separator with rfl | rfl
  all_goals
    refine (readMarked ?_ ?_ ?_ ?_).orElse ((readMarked ?_ ?_ ?_ ?_).orElse (readRun ?_ ?_))
    all_goals decide

/-- Nor has an operand without brackets. -/
theorem readAtom (separator : d = ',' ∨ d = ';') : Cuts d (.ofReader readAtom) := by
  have unsigned := readUnsigned separator
  rw [readAtom_eq, readNumber_eq]
  rcases separator with rfl | rfl
  all_goals
    exact (((Cuts.char (by decide)).followedBy unsigned).orElse unsigned).orElse
      (readRun (by decide) (by decide))

/-- No operand reads as far as a comma or a comment. -/
theorem readOperand (separator : d = ',' ∨ d = ';') : Cuts d (.ofReader readOperand) := by
  have unsigned := readUnsigned separator
  have atom := readAtom separator
  rw [readOperand_eq]
  rcases separator with rfl | rfl
  all_goals
    have offset : Cuts _ displacement :=
      ((Cuts.char (by decide)).orElse (.char (by decide))).andThen unsigned rfl
    exact ((Cuts.char (by decide)).andThen (atom.andThen
      (offset.optional.andThen (.char (by decide)) rfl) rfl) rfl).orElse atom

/-- A mnemonic has no semicolon. -/
theorem readMnemonic : Cuts ';' (.ofReader readMnemonic) := .readRun (by decide) (by decide)

/-- Nor has a label. -/
theorem readLabel : Cuts ';' (.ofReader readLabel) := by
  rw [readLabel_eq]
  exact (readRun (by decide) (by decide)).andThen (.char (by decide)) (by decide)

end Cuts

end Remainder

end AsmTrace.Line
