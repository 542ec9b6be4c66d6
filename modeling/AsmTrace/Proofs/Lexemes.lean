import AsmTrace.Line.Lexeme
import AsmTrace.Proofs.Grammar

/-!
# Lexemes and the grammar

A reader takes the lexeme that the grammar describes from the front of a text. What it takes is a
lexeme, and a lexeme is taken whole where the text goes on with a character that no lexeme has.
-/

namespace AsmTrace.Line

open Grammar

/-! ## Character classes -/

/-- `Stops p cs` holds when `cs` does not start with a character of the class `p`. -/
def Stops (p : Char → Bool) (cs : List Char) : Prop := ∀ c ∈ cs.head?, p c = false

@[simp] theorem stops_nil (p : Char → Bool) : Stops p [] := by simp [Stops]

@[simp] theorem stops_cons {p : Char → Bool} {c : Char} {cs : List Char} :
    Stops p (c :: cs) ↔ p c = false := by simp [Stops]

/-- A text that does not start with a character of a class does not start with one of a smaller
class. -/
theorem Stops.of_imp {p q : Char → Bool} {cs : List Char} (h : Stops q cs)
    (imp : ∀ c, p c = true → q c = true) : Stops p cs := by
  intro c hc
  exact Bool.eq_false_iff.2 fun hp => Bool.eq_false_iff.1 (h c hc) (imp c hp)

/-- The blanks that are skipped are those of the grammar. -/
theorem isBlank_iff {c : Char} : isBlank c = true ↔ Blank c := by
  simp [isBlank, Blank, or_assoc]

/-- The characters that an identifier may start with. -/
theorem isIdentifierStart_iff {c : Char} :
    isIdentifierStart c = true ↔ c.isAlpha ∨ c = '_' ∨ c = '.' := by
  simp [isIdentifierStart, or_assoc]

/-- The characters that an identifier may go on with. -/
theorem isIdentifierPart_iff {c : Char} :
    isIdentifierPart c = true ↔ c.isAlphanum ∨ c = '_' ∨ c = '.' := by
  simp [isIdentifierPart, or_assoc]

theorem isIdentifierPart_of_isAlphanum (c : Char) (h : c.isAlphanum = true) :
    isIdentifierPart c = true := isIdentifierPart_iff.2 (.inl h)

/-- A blank ends every identifier and every literal. -/
theorem not_isIdentifierPart_of_blank {c : Char} (h : Blank c) : isIdentifierPart c = false := by
  rcases h with rfl | rfl | rfl <;> decide

/-! ## Runs of characters -/

/-- A run that ends where the class does is taken whole. -/
theorem takeWhile_append_of_stops {p : Char → Bool} {l r : List Char} (inside : ∀ c ∈ l, p c = true)
    (stops : Stops p r) : (l ++ r).takeWhile p = l := by
  rw [List.takeWhile_append_of_pos inside]
  cases r with
  | nil => simp
  | cons c cs => simp [stops_cons.1 stops]

/-- A run that ends where the class does is dropped whole. -/
theorem dropWhile_append_of_stops {p : Char → Bool} {l r : List Char} (inside : ∀ c ∈ l, p c = true)
    (stops : Stops p r) : (l ++ r).dropWhile p = r := by
  rw [List.dropWhile_append_of_pos inside]
  cases r with
  | nil => rfl
  | cons c cs => simp [stops_cons.1 stops]

/-- After a run the text goes on with a character of another class, or ends. -/
theorem stops_dropWhile (p : Char → Bool) (cs : List Char) : Stops p (cs.dropWhile p) := by
  intro c hc
  have := List.head?_dropWhile_not p cs
  rw [Option.mem_def.1 hc] at this
  exact Bool.eq_false_iff.2 (by simpa using this)

/-- What a reader of a run takes: as much as there is of it. -/
theorem readRun_eq_some {first next : Char → Bool} {cs l r : List Char} :
    readRun first next cs = some (l, r) ↔
      cs = l ++ r ∧ (∃ c ds, l = c :: ds ∧ first c = true ∧ ∀ d ∈ ds, next d = true) ∧
        Stops next r := by
  constructor
  · intro h
    refine ⟨(append_eq_of_readRun h).symm, ?_⟩
    cases cs with
    | nil => cases h
    | cons c cs =>
      rw [readRun] at h
      split at h
      · next start =>
        cases h
        have inside := List.all_eq_true.1 (List.all_takeWhile (p := next) (l := cs))
        exact ⟨⟨c, _, rfl, start, inside⟩, stops_dropWhile next cs⟩
      · cases h
  · rintro ⟨rfl, ⟨c, ds, rfl, start, inside⟩, stops⟩
    rw [List.cons_append, readRun, if_pos start, takeWhile_append_of_stops inside stops,
      dropWhile_append_of_stops inside stops]

/-- What is read as an identifier is one, and it is as long as possible. -/
theorem readIdentifier_eq_some {cs l r : List Char} :
    readIdentifier cs = some (l, r) ↔ cs = l ++ r ∧ Identifier l ∧ Stops isIdentifierPart r := by
  rw [readIdentifier, readRun_eq_some]
  refine and_congr_right fun _ => and_congr_left fun _ => ?_
  constructor
  · rintro ⟨c, ds, rfl, start, inside⟩
    exact .mk (isIdentifierStart_iff.1 start) fun d hd => isIdentifierPart_iff.1 (inside d hd)
  · rintro ⟨start, inside⟩
    exact ⟨_, _, rfl, isIdentifierStart_iff.2 start,
      fun d hd => isIdentifierPart_iff.2 (inside d hd)⟩

/-- What is read as a mnemonic is one, and it is as long as possible. -/
theorem readMnemonic_eq_some {cs l r : List Char} :
    readMnemonic cs = some (l, r) ↔ cs = l ++ r ∧ Mnemonic l ∧ Stops Char.isAlphanum r := by
  rw [readMnemonic, readRun_eq_some]
  refine and_congr_right fun _ => and_congr_left fun _ => ?_
  constructor
  · rintro ⟨c, ds, rfl, start, inside⟩
    exact .mk start inside
  · rintro ⟨start, inside⟩
    exact ⟨_, _, rfl, start, inside⟩

/-! ## Blanks -/

@[simp] theorem blanks_nil : Blanks [] := List.forall_mem_nil _

/-- A text is blanks and what is left after skipping them. -/
theorem exists_skipBlanks (cs : List Char) : ∃ b, Blanks b ∧ cs = b ++ skipBlanks cs := by
  refine ⟨cs.takeWhile isBlank, ?_, List.takeWhile_append_dropWhile.symm⟩
  intro c hc
  exact isBlank_iff.1 (List.all_eq_true.1 List.all_takeWhile c hc)

/-- What is left after skipping blanks does not start with one. -/
theorem stops_skipBlanks (cs : List Char) : Stops isBlank (skipBlanks cs) :=
  stops_dropWhile isBlank cs

/-- Blanks before a text make no difference to what is left. -/
theorem skipBlanks_append {b : List Char} (h : Blanks b) (cs : List Char) :
    skipBlanks (b ++ cs) = skipBlanks cs :=
  List.dropWhile_append_of_pos fun c hc => isBlank_iff.2 (h c hc)

/-- A text that does not start with a blank is left as it is. -/
theorem skipBlanks_of_stops {cs : List Char} (h : Stops isBlank cs) : skipBlanks cs = cs :=
  dropWhile_append_of_stops (l := []) (by simp) h

/-- Blanks are skipped up to the first other character. -/
theorem skipBlanks_cons {b : List Char} (h : Blanks b) {c : Char} (hc : isBlank c = false)
    (cs : List Char) : skipBlanks (b ++ c :: cs) = c :: cs := by
  rw [skipBlanks_append h, skipBlanks_of_stops (stops_cons.2 hc)]

/-- Nothing is left of blanks alone. -/
theorem skipBlanks_blanks {b : List Char} (h : Blanks b) : skipBlanks b = [] := by
  simpa [skipBlanks] using skipBlanks_append h []

end AsmTrace.Line
