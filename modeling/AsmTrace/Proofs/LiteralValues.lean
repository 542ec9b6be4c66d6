import AsmTrace.Proofs.Numerals
import AsmTrace.Proofs.OperandShapes
import AsmTrace.Proofs.Renumbering

/-!
# Numbers in a source text

A number that stands in a source text as an operand or as a data value becomes the word that is
congruent to it. Whether the source text assembles depends on that number only through its range:
statements that differ in no more than which words they hold assemble alike (`ofStatements_alike`),
so a number in range can be written in the place of another.
-/

namespace AsmTrace

namespace Word

/-- The integers that a word is written as, either a signed value or an unsigned bit pattern. -/
def Admits (n : Int) : Prop := -0x80000000 ≤ n ∧ n ≤ 0xffffffff

/-- A word that is congruent to an integer is that integer, cut to a word. -/
theorem congruent_iff {w : Word} {n : Int} :
    w.toInt % 0x100000000 = n % 0x100000000 ↔ w = BitVec.ofInt 32 n := by
  have residue : (BitVec.ofInt 32 n).toInt % 0x100000000 = n % 0x100000000 := by
    rw [BitVec.toInt_ofInt]
    exact Int.bmod_emod
  constructor
  · intro same
    have low := BitVec.le_toInt w
    have high := BitVec.toInt_lt (x := w)
    have low' := BitVec.le_toInt (BitVec.ofInt 32 n)
    have high' := BitVec.toInt_lt (x := BitVec.ofInt 32 n)
    refine BitVec.eq_of_toInt_eq ?_
    omega
  · rintro rfl
    exact residue

/-- A literal that becomes a word is admitted. -/
theorem admits_of_ofLiteral? {n : Int} {w : Word} (h : ofLiteral? n = some w) :
    Admits n ∧ w = BitVec.ofInt 32 n := by
  obtain ⟨⟨lower, upper⟩, rfl⟩ := ofLiteral?_eq_some_iff.1 h
  exact ⟨⟨lower, by omega⟩, rfl⟩

/-- An admitted literal becomes a word. -/
theorem Admits.ofLiteral? {n : Int} (h : Admits n) :
    Word.ofLiteral? n = some (BitVec.ofInt 32 n) :=
  ofLiteral?_eq_some_iff.2 ⟨⟨h.1, Int.lt_add_one_of_le h.2⟩, rfl⟩

theorem Admits.natAbs_lt {n : Int} (h : Admits n) : n.natAbs < 0x8000000000000000 := by
  obtain ⟨lower, upper⟩ := h
  omega

end Word

open Assembly Result

/-! ## Statements that hold other words -/

/-- Operands of which one is the other, or which are both written words. -/
inductive Operand.Alike : Operand → Operand → Prop
  | same (o : Operand) : Alike o o
  | words {n n' : Int} : Word.Admits n → Word.Admits n' → Alike (.immediate n) (.immediate n')

/-- Statements that differ in no more than which words they hold. -/
inductive Statement.Alike : Statement → Statement → Prop
  | label (line : Nat) (name : String) : Alike ⟨line, .label name⟩ ⟨line, .label name⟩
  | data {line : Nat} {values values' : List Int}
      (alike : List.Forall₂ (fun n n' => Operand.Alike (.immediate n) (.immediate n'))
        values values') :
      Alike ⟨line, .data values⟩ ⟨line, .data values'⟩
  | instruction {line : Nat} {opcode : Opcode} {os os' : List Operand}
      (alike : List.Forall₂ Operand.Alike os os') :
      Alike ⟨line, .instruction opcode os⟩ ⟨line, .instruction opcode os'⟩

theorem Statement.Alike.refl (s : Statement) : s.Alike s := by
  obtain ⟨line, body⟩ := s
  cases body with
  | label name => exact .label line name
  | data values => exact .data (List.forall₂_same.2 fun n _ => .same (.immediate n))
  | instruction opcode os => exact .instruction (List.forall₂_same.2 fun o _ => .same o)

/-- Only literals are alike to literals. -/
theorem exists_words {values : List Int} {os : List Operand}
    (alike : List.Forall₂ Operand.Alike (values.map Operand.immediate) os) :
    ∃ values', os = values'.map Operand.immediate ∧
      List.Forall₂ (fun n n' => Operand.Alike (.immediate n) (.immediate n')) values values' := by
  induction values generalizing os with
  | nil =>
    cases alike
    exact ⟨[], rfl, .nil⟩
  | cons n values ih =>
    obtain _ | ⟨head, tail⟩ := alike
    obtain ⟨values', rfl, alike⟩ := ih tail
    cases head with
    | same => exact ⟨n :: values', rfl, .cons (.same _) alike⟩
    | @words _ n' admits admits' => exact ⟨n' :: values', rfl, .cons (.words admits admits') alike⟩

/-- What a mnemonic says with some operands it says with others like them. -/
theorem says_alike {mnemonic : List Char} {os os' : List Operand} {body : Statement.Body}
    (said : Line.Grammar.Says mnemonic os body) (alike : List.Forall₂ Operand.Alike os os')
    (line : Nat) :
    ∃ body', Line.Grammar.Says mnemonic os' body' ∧ Statement.Alike ⟨line, body⟩ ⟨line, body'⟩ := by
  cases said with
  | instruction mem spells => exact ⟨_, .instruction mem spells, .instruction alike⟩
  | data spells nonempty numbers =>
    subst numbers
    obtain ⟨values', rfl, words⟩ := exists_words alike
    refine ⟨.data values', .data spells ?_ rfl, .data words⟩
    rintro rfl
    exact nonempty (List.forall₂_nil_right_iff.1 words)

namespace Assembly

variable {labels : Labels} {opcode : Opcode} {o o' : Operand}

/-- A literal alike to one that fits a word fits a word. -/
theorem decodeImmediate_alike {n n' : Int} (alike : Operand.Alike (.immediate n) (.immediate n'))
    {w : Word} (h : decodeImmediate n = .ok w) : ∃ w', decodeImmediate n' = .ok w' := by
  cases alike with
  | same => exact ⟨w, h⟩
  | words _ admits => exact ⟨_, Program.decodeImmediate_eq_ok.2 admits.ofLiteral?⟩

/-- An operand alike to a value is a value, and in memory only if that is. -/
theorem decodeValue_alike (alike : o.Alike o') {v : Value} (h : decodeValue labels o = .ok v) :
    ∃ v', decodeValue labels o' = .ok v' ∧ v'.isMemory = v.isMemory := by
  cases alike with
  | same => exact ⟨v, h, rfl⟩
  | words _ admits =>
    refine ⟨_, decodeValue_eq_ok.2 (.immediate admits.1 admits.2), ?_⟩
    cases decodeValue_eq_ok.1 h
    rfl

/-- An operand alike to a place is that place. -/
theorem decodePlace_alike (alike : o.Alike o') {p : Place}
    (h : decodePlace labels opcode o = .ok p) :
    decodePlace labels opcode o' = .ok p := by
  cases alike with
  | same => exact h
  | words => cases h

/-- So for a place to write to. -/
theorem decodeWritable_alike (alike : o.Alike o') {p : Place}
    (h : decodeWritable labels opcode o = .ok p) : decodeWritable labels opcode o' = .ok p := by
  cases alike with
  | same => exact h
  | words => cases h

/-- So for a target. -/
theorem decodeTarget_alike (alike : o.Alike o') {index : Nat}
    (h : decodeTarget labels opcode o = .ok index) : decodeTarget labels opcode o' = .ok index := by
  cases alike with
  | same => exact h
  | words => cases h

/-- An opcode that takes some operands takes others like them. -/
theorem Decoded.alike {os os' : List Operand} {op : Operation} (h : Decoded labels opcode os op)
    (alike : List.Forall₂ Operand.Alike os os') : ∃ op', Decoded labels opcode os' op' := by
  cases h with
  | mov place value apart | binary place value apart =>
    obtain _ | ⟨dst, _ | ⟨src, _ | _⟩⟩ := alike
    obtain ⟨v, value, memory⟩ := decodeValue_alike src value
    have place := decodeWritable_alike dst place
    rw [← memory] at apart
    exact ⟨_, by constructor <;> assumption⟩
  | compare place value apart =>
    obtain _ | ⟨lhs, _ | ⟨rhs, _ | _⟩⟩ := alike
    obtain ⟨v, value, memory⟩ := decodeValue_alike rhs value
    rw [← memory] at apart
    exact ⟨_, .compare (decodePlace_alike lhs place) value apart⟩
  | imul place value =>
    obtain _ | ⟨dst, _ | ⟨src, _ | _⟩⟩ := alike
    obtain ⟨v, value, -⟩ := decodeValue_alike src value
    exact ⟨_, .imul (decodeWritable_alike dst place) value⟩
  | shift place value count =>
    obtain _ | ⟨dst, _ | ⟨src, _ | _⟩⟩ := alike
    obtain ⟨v, value, memory⟩ := decodeValue_alike src value
    rw [← memory] at count
    exact ⟨_, .shift (decodeWritable_alike dst place) value count⟩
  | unary place | pop place =>
    obtain _ | ⟨dst, _ | _⟩ := alike
    have place := decodeWritable_alike dst place
    exact ⟨_, by constructor; exact place⟩
  | push value | idiv value =>
    obtain _ | ⟨src, _ | _⟩ := alike
    obtain ⟨v, value, -⟩ := decodeValue_alike src value
    exact ⟨_, by constructor; exact value⟩
  | jump target | loop target | call target =>
    obtain _ | ⟨operand, _ | _⟩ := alike
    have target := decodeTarget_alike operand target
    exact ⟨_, by constructor; exact target⟩
  | cqo | ret | nop | hlt =>
    cases alike
    exact ⟨_, by constructor⟩

/-- Labels are the same whatever words the statements hold. -/
theorem Labels.collectFrom_alike {statements statements' : List Statement}
    (alike : List.Forall₂ Statement.Alike statements statements') (ls : Labels)
    (waiting : List (Nat × String)) (index address : Nat) :
    ls.collectFrom waiting index address statements' =
      ls.collectFrom waiting index address statements := by
  induction alike generalizing ls waiting index address with
  | nil => rfl
  | cons head _ ih =>
    cases head with
    | label line name => simp only [collectFrom, ih]
    | data alike => simp only [collectFrom, ih, alike.length_eq]
    | instruction alike => simp only [collectFrom, ih]

end Assembly

namespace Program

/-- Data alike to data that can be laid out can be laid out. -/
theorem layOut_alike {line : Nat} {values values' : List Int}
    (alike : List.Forall₂ (fun n n' => Operand.Alike (.immediate n) (.immediate n')) values values')
    {count : Nat} {words : List DataWord} (h : layOut line count values = .ok words) :
    ∃ words', layOut line count values' = .ok words' := by
  induction alike generalizing count words with
  | nil => exact ⟨words, h⟩
  | cons head _ ih =>
    obtain ⟨w, first, h⟩ := bind_eq_ok.1 h
    obtain ⟨rest, next, -⟩ := bind_eq_ok.1 h
    obtain ⟨w', first'⟩ := decodeImmediate_alike head first
    obtain ⟨rest', next'⟩ := ih next
    exact ⟨_, bind_eq_ok.2 ⟨w', first', bind_eq_ok.2 ⟨rest', next', rfl⟩⟩⟩

/-- Statements alike to statements that can be decoded can be decoded. -/
theorem decodeFrom_alike {labels : Labels} {statements statements' : List Statement}
    (alike : List.Forall₂ Statement.Alike statements statements') {count : Nat}
    {instructions : List Instruction} {data : List DataWord}
    (h : decodeFrom labels count statements = .ok (instructions, data)) :
    ∃ instructions' data', decodeFrom labels count statements' = .ok (instructions', data') ∧
      instructions'.length = instructions.length := by
  induction alike generalizing count instructions data with
  | nil => exact ⟨instructions, data, h, rfl⟩
  | cons head _ ih =>
    cases head with
    | label line name => exact ih h
    | data alike =>
      obtain ⟨words, laid, h⟩ := bind_eq_ok.1 h
      obtain ⟨⟨is, ds⟩, rest, h⟩ := bind_eq_ok.1 h
      cases h
      obtain ⟨words', laid'⟩ := layOut_alike alike (mapError_eq_ok.1 laid)
      rw [alike.length_eq] at rest
      obtain ⟨is', ds', rest', length⟩ := ih rest
      refine ⟨is', words' ++ ds', ?_, length⟩
      exact bind_eq_ok.2 ⟨words', mapError_eq_ok.2 laid', bind_eq_ok.2 ⟨(is', ds'), rest', rfl⟩⟩
    | @instruction line opcode os os' alike =>
      obtain ⟨op, decoded, h⟩ := bind_eq_ok.1 h
      obtain ⟨⟨is, ds⟩, rest, h⟩ := bind_eq_ok.1 h
      cases h
      obtain ⟨op', decoded'⟩ := (decoded_of_decode (mapError_eq_ok.1 decoded)).alike alike
      obtain ⟨is', ds', rest', length⟩ := ih rest
      refine ⟨⟨line, op'⟩ :: is', ds', ?_, by rw [List.length_cons, List.length_cons, length]⟩
      exact bind_eq_ok.2 ⟨op', mapError_eq_ok.2 (decode_of_decoded decoded'),
        bind_eq_ok.2 ⟨(is', ds'), rest', rfl⟩⟩

/-- Statements that differ in no more than which words they hold assemble alike. -/
theorem ofStatements_alike {statements statements' : List Statement} {p : Program}
    (alike : List.Forall₂ Statement.Alike statements statements')
    (h : ofStatements statements = .ok p) : ∃ p', ofStatements statements' = .ok p' := by
  obtain ⟨labels, collected, h⟩ := bind_eq_ok.1 h
  obtain ⟨⟨instructions, data⟩, decoded, h⟩ := bind_eq_ok.1 h
  obtain ⟨instructions', data', decoded', length⟩ := decodeFrom_alike alike decoded
  have collected' : Labels.collect statements' = .ok labels :=
    (Labels.collectFrom_alike alike {} [] 0 0).trans collected
  have nonempty : ¬ instructions'.isEmpty = true := by
    intro empty
    rw [List.isEmpty_iff.1 empty, List.length_nil, eq_comm, List.length_eq_zero_iff] at length
    subst length
    cases h
  refine ⟨⟨instructions'.toArray, labels, data'⟩, bind_eq_ok.2 ⟨labels, collected',
    bind_eq_ok.2 ⟨(instructions', data'), decoded', ?_⟩⟩⟩
  simp only [if_neg nonempty]
  rfl

end Program

/-! ## A place for a number in a source text -/

/-- Lines with their numbers, which go on after `k`. -/
def Source.numberFrom (k : Nat) (lines : List String) : List (Nat × String) :=
  (lines.zipIdx k).map fun (l, i) => (i + 1, l)

/-- The lines around one line keep their numbers. -/
theorem Source.numbered_append {source : Source} {above below : List String} {text : String}
    (h : source.lines = above ++ text :: below) :
    source.numbered = numberFrom 0 above ++
      (above.length + 1, text) :: numberFrom (above.length + 1) below := by
  rw [numbered, h, List.zipIdx_append, List.map_append, List.zipIdx_cons, List.map_cons]
  simp [numberFrom]

namespace Program

/-- Lines are read in two parts as in one. -/
theorem parseLines_append {lines lines' : List (Nat × String)} {statements : List Statement} :
    parseLines (lines ++ lines') = .ok statements ↔ ∃ first rest, parseLines lines = .ok first ∧
      parseLines lines' = .ok rest ∧ statements = first ++ rest := by
  induction lines generalizing statements with
  | nil =>
    constructor
    · intro h
      exact ⟨[], statements, rfl, h, rfl⟩
    · rintro ⟨first, rest, h, parsed, rfl⟩
      cases h
      exact parsed
  | cons line lines ih =>
    obtain ⟨n, text⟩ := line
    simp only [List.cons_append, parseLines_cons, bind_eq_ok, pure_eq_ok, ih]
    constructor
    · rintro ⟨group, parsed, _, ⟨first, rest, above, below, rfl⟩, rfl⟩
      exact ⟨group ++ first, rest, ⟨group, parsed, first, above, rfl⟩, below, by simp⟩
    · rintro ⟨_, rest, ⟨group, parsed, first, above, rfl⟩, below, rfl⟩
      exact ⟨group, parsed, first ++ rest, ⟨first, rest, above, below, rfl⟩, by simp⟩

/-- What is read from a stretch of lines has its numbers. -/
theorem line_of_mem_parseLines {k : Nat} {lines : List String} {statements : List Statement}
    (parsed : parseLines (Source.numberFrom k lines) = .ok statements) {s : Statement}
    (mem : s ∈ statements) : k < s.line ∧ s.line ≤ k + lines.length := by
  obtain ⟨groups, grouped, rfl⟩ := map_eq_ok.1 parsed
  obtain ⟨text, -, inLines, -⟩ := exists_line_of_mem (mapM_eq_ok.1 grouped) mem
  obtain ⟨⟨l, i⟩, inLines, same⟩ := List.mem_map.1 inLines
  have low := List.le_snd_of_mem_zipIdx inLines
  have high := List.snd_lt_add_of_mem_zipIdx inLines
  obtain ⟨line, -⟩ := Prod.mk.inj same
  omega

end Program

/-- A place for a number in a source text: one on a line, and the lines around that one. -/
structure Site extends Line.Slot where
  above : List String
  below : List String

namespace Site

open Line.Grammar

variable {site : Site} {source source' : Source} {t t' : List Char} {n n' : Int}

/-- The number of the line that has the place. -/
def line (site : Site) : Nat := site.above.length + 1

/-- The source text has `t` written in the place. -/
structure Holds (site : Site) (source : Source) (t : List Char) : Prop where
  lines : source.lines = site.above ++ site.fill t :: site.below
  fits : site.Fits t

/-- The statements of the lines around the place. -/
structure Around (site : Site) (front back : List Statement) : Prop where
  above : Program.parseLines (Source.numberFrom 0 site.above) = .ok front
  below : Program.parseLines (Source.numberFrom site.line site.below) = .ok back

/-- A source with a number at a site is read exactly if the number fits 64 bits and the rest is
read. -/
theorem Holds.parse_eq_ok (holds : site.Holds source t) (number : NumberText t n)
    {statements : List Statement} :
    Program.parse source = .ok statements ↔ n.natAbs < 0x8000000000000000 ∧
      ∃ front body back, site.Around front back ∧
        Says site.mnemonic (site.before ++ .immediate n :: site.after) body ∧
        statements = front ++ ((site.labels ++ [body]).map (Statement.mk site.line) ++ back) := by
  have lines : Program.parse source = Program.parseLines (Source.numberFrom 0 site.above ++
      (site.line, site.fill t) :: Source.numberFrom site.line site.below) := by
    rw [line, ← Source.numbered_append holds.lines]
    rfl
  simp only [lines, Program.parseLines_append, Program.parseLines_cons, bind_eq_ok, pure_eq_ok,
    Line.parse_eq_ok, Line.Slot.bodies_fill _ number holds.fits]
  constructor
  · rintro ⟨front, _, above, ⟨_, ⟨_, ⟨small, body, said, rfl⟩, rfl⟩, back, below, rfl⟩, rfl⟩
    exact ⟨small, front, body, back, ⟨above, below⟩, said, rfl⟩
  · rintro ⟨small, front, body, back, ⟨above, below⟩, said, rfl⟩
    exact ⟨front, _, above, ⟨_, ⟨_, ⟨small, body, said, rfl⟩, rfl⟩, back, below, rfl⟩, rfl⟩

/-- Where a number in range is written, any other may be. -/
theorem Holds.assemble_of_admits (holds : site.Holds source t) (holds' : site.Holds source' t')
    (number : NumberText t n) (number' : NumberText t' n') (admits : Word.Admits n)
    (admits' : Word.Admits n') (h : ∃ p, Program.assemble source = .ok p) :
    ∃ p, Program.assemble source' = .ok p := by
  obtain ⟨p, h⟩ := h
  obtain ⟨statements, parsed, assembled⟩ := bind_eq_ok.1 h
  obtain ⟨-, front, body, back, around, said, rfl⟩ := (holds.parse_eq_ok number).1 parsed
  have operands : List.Forall₂ Operand.Alike (site.before ++ .immediate n :: site.after)
      (site.before ++ .immediate n' :: site.after) := by
    have same (os : List Operand) : List.Forall₂ Operand.Alike os os :=
      List.forall₂_same.2 fun o _ => .same o
    exact List.rel_append (same _) (.cons (.words admits admits') (same _))
  obtain ⟨body', said', alike⟩ := says_alike said operands site.line
  have parsed' := (holds'.parse_eq_ok number').2
    ⟨admits'.natAbs_lt, front, body', back, around, said', rfl⟩
  have statements : List.Forall₂ Statement.Alike
      (front ++ ((site.labels ++ [body]).map (Statement.mk site.line) ++ back))
      (front ++ ((site.labels ++ [body']).map (Statement.mk site.line) ++ back)) := by
    have same (ss : List Statement) : List.Forall₂ Statement.Alike ss ss :=
      List.forall₂_same.2 fun s _ => .refl s
    rw [List.map_append, List.map_append]
    have here :=
      List.rel_append (same (site.labels.map (Statement.mk site.line))) (.cons alike .nil)
    exact List.rel_append (same front) (List.rel_append here (same back))
  obtain ⟨p', assembled'⟩ := Program.ofStatements_alike statements assembled
  exact ⟨p', bind_eq_ok.2 ⟨_, parsed', assembled'⟩⟩

end Site

/-! ## What stands on a line -/

/-- What stands on a line of the source text: the operands of its instruction, or its data words. -/
def Program.operandsOn (p : Program) (line : Nat) : List Denotation :=
  (p.instructions.toList.filter (·.line == line)).flatMap (·.operation.operands) ++
    (p.data.filter (·.line == line)).map fun word => .value (.immediate word.value)

/-- The data of a statement has its line. -/
theorem Statement.filter_items (s : Statement) (line : Nat) :
    s.items.filter (·.1 == line) = if s.line == line then s.items else [] := by
  have lines : ∀ item ∈ s.items, item.1 = s.line := by
    unfold items
    split
    · intro item mem
      obtain ⟨n, -, rfl⟩ := List.mem_map.1 mem
      rfl
    · exact List.forall_mem_nil _
  split
  · next here =>
    exact List.filter_eq_self.2 fun item mem => by rw [lines item mem, here]
  · next elsewhere =>
    exact List.filter_eq_nil_iff.2 fun item mem => by rwa [lines item mem]

namespace Program

variable {statements : List Statement} {p : Program}

/-- The instructions and data words on a line are those of the statements on it. -/
theorem Resolves.onLine (r : Resolves statements p) (line : Nat) {here : List Statement}
    (stand : statements.filter (·.line == line) = here) :
    List.Forall₂ (Decodes p.labels) (here.filter Statement.isInstruction)
        (p.instructions.toList.filter (·.line == line)) ∧
      List.Forall₂ Holds (here.flatMap Statement.items) (p.data.filter (·.line == line)) := by
  subst stand
  constructor
  · rw [List.filter_comm]
    refine List.rel_filter ?_ r.instructions
    rintro s i ⟨-, -, -, -, same⟩
    simp only [same]
  · have items : (statements.flatMap Statement.items).filter (·.1 == line) =
        (statements.filter (·.line == line)).flatMap Statement.items := by
      clear r
      induction statements with
      | nil => rfl
      | cons s rest ih =>
        rw [List.flatMap_cons, List.filter_append, ih, Statement.filter_items, List.filter_cons]
        split
        · rw [List.flatMap_cons]
        · rfl
    rw [← items]
    refine List.rel_filter ?_ r.data
    rintro item word ⟨-, same⟩
    simp only [same]

end Program

namespace Site

open Line.Grammar Program

variable {site : Site} {source : Source} {t : List Char} {n : Int}

/-- Of the statements around the place none is on its line. -/
theorem Around.filter_line {front back : List Statement} (around : site.Around front back)
    (bodies : List Statement.Body) :
    (front ++ (bodies.map (Statement.mk site.line) ++ back)).filter (·.line == site.line) =
      bodies.map (Statement.mk site.line) := by
  have above : front.filter (·.line == site.line) = [] := by
    refine List.filter_eq_nil_iff.2 fun s mem => ?_
    have := (line_of_mem_parseLines around.above mem).2
    rw [beq_iff_eq, line]
    omega
  have below : back.filter (·.line == site.line) = [] := by
    refine List.filter_eq_nil_iff.2 fun s mem => ?_
    have := (line_of_mem_parseLines around.below mem).1
    rw [beq_iff_eq]
    omega
  have here : (bodies.map (Statement.mk site.line)).filter (·.line == site.line) =
      bodies.map (Statement.mk site.line) := by
    refine List.filter_eq_self.2 fun s mem => ?_
    obtain ⟨body, -, rfl⟩ := List.mem_map.1 mem
    exact beq_self_eq_true _
  rw [List.filter_append, List.filter_append, above, below, here, List.nil_append, List.append_nil]

theorem isLabel_of_front {front : List Char} {ls : List Statement.Body} (h : Line.Front front ls)
    (line : Nat) : ∀ s ∈ ls.map (Statement.mk line), s.isLabel = true := by
  obtain ⟨-, isLabel, -⟩ := h
  cases isLabel with
  | none => exact List.forall_mem_nil _
  | some label =>
    cases label
    exact List.forall_mem_singleton.2 rfl

/-- A number in the place of a source text that assembles is in range, and the operand or the data
word that stands there is the word of that number. -/
theorem Holds.operand (holds : site.Holds source t) (number : NumberText t n) {p : Program}
    (assembled : assemble source = .ok p) :
    Word.Admits n ∧ (p.operandsOn site.line)[site.before.length]? =
      some (.value (.immediate (BitVec.ofInt 32 n))) := by
  obtain ⟨statements, parsed, resolves⟩ := resolves_of_assemble assembled
  obtain ⟨-, front, body, back, around, said, rfl⟩ := (holds.parse_eq_ok number).1 parsed
  obtain ⟨instructions, data⟩ := resolves.onLine site.line (around.filter_line _)
  have labels := isLabel_of_front site.isFront site.line
  rw [List.map_append, List.filter_append, filter_isInstruction_labels labels] at instructions
  rw [List.map_append, List.flatMap_append, flatMap_items_labels labels] at data
  have here : (site.before ++ Operand.immediate n :: site.after)[site.before.length]? =
      some (.immediate n) := by simp
  cases said with
  | instruction mem spells =>
    obtain ⟨i, none, decodes, rest, onLine⟩ := List.forall₂_cons_left_iff.1 instructions
    obtain ⟨opcode, os, same, decoded, -⟩ := decodes
    cases same
    cases rest
    have noData : p.data.filter (·.line == site.line) = [] := List.forall₂_nil_left_iff.1 data
    obtain ⟨d, found, denotes⟩ := exists_right (decoded_of_decode decoded).takes.2.2 here
    rw [operandsOn, onLine, noData, List.flatMap_singleton, List.map_nil, List.append_nil, found]
    cases denotes with
    | immediate lower upper => exact ⟨⟨lower, upper⟩, rfl⟩
  | @data values spells nonempty numbers =>
    have noInstruction : p.instructions.toList.filter (·.line == site.line) = [] :=
      List.forall₂_nil_left_iff.1 instructions
    have value : values[site.before.length]? = some n := by
      rw [numbers, List.getElem?_map] at here
      simpa using here
    have item : (values.map fun n => (site.line, n))[site.before.length]? =
        some (site.line, n) := by
      rw [List.getElem?_map, value, Option.map_some]
    have data : List.Forall₂ Program.Holds (values.map fun n => (site.line, n))
        (p.data.filter (·.line == site.line)) := by simpa [Statement.items] using data
    obtain ⟨word, found, held, -⟩ := exists_right data item
    obtain ⟨admits, same⟩ := Word.admits_of_ofLiteral? held
    rw [operandsOn, noInstruction, List.flatMap_nil, List.nil_append, List.getElem?_map, found,
      Option.map_some, same]
    exact ⟨admits, rfl⟩

end Site

namespace Line

open Grammar Program

/-- Numbers denote their value. A text is read as a number if and only if it is one, which has one
value, the positional one; the literal has that value if it is in range, and is refused if not. As
an operand or a data value it can stand where another number in range can if and only if a word is
written as that value, and then what stands there is the one word that is congruent to it. -/
theorem numbers_denote (t : List Char) :
    (readNumber t = some (t, []) ↔ ∃! n, NumberText t n) ∧
      ∀ n, NumberText t n →
        (literal t = if n.natAbs < 0x8000000000000000 then .ok n
          else .error (.numberOutOfRange (String.ofList t))) ∧
        ∀ (site : Site) (source : Source), site.Holds source t →
          (∀ t' n' source', NumberText t' n' → Word.Admits n' → site.Holds source' t' →
            ((∃ p, assemble source = .ok p) ↔
              (∃ p, assemble source' = .ok p) ∧ -0x80000000 ≤ n ∧ n ≤ 0xffffffff)) ∧
          ∀ p, assemble source = .ok p → ∃ w : Word,
            (p.operandsOn site.line)[site.before.length]? = some (.value (.immediate w)) ∧
            ∀ w' : Word, w'.toInt % 0x100000000 = n % 0x100000000 ↔ w' = w := by
  refine ⟨readNumber_eq_self_iff.trans ⟨?_, ExistsUnique.exists⟩, fun n number => ?_⟩
  · rintro ⟨n, number⟩
    exact ⟨n, number, fun n' number' => numberText_unique number' number⟩
  refine ⟨literal_of_numberText number, fun site source holds => ⟨?_, fun p assembled => ?_⟩⟩
  · intro t' n' source' number' admits' holds'
    constructor
    · rintro ⟨p, assembled⟩
      have admits := (holds.operand number assembled).1
      exact ⟨holds.assemble_of_admits holds' number number' admits admits' ⟨p, assembled⟩, admits⟩
    · rintro ⟨assembled', admits⟩
      exact holds'.assemble_of_admits holds number' number admits' admits assembled'
  · exact ⟨_, (holds.operand number assembled).2, fun w => Word.congruent_iff⟩

/-- As a data value, `0XFFFFFFFF` is the word of all ones, however many zeros and capitals it has,
and the next number is none. -/
theorem numbers_denote_all_ones :
    NumberText ['0', 'X', '0', '0', 'f', 'F', 'f', 'F', 'f', 'F', 'f', 'F'] 0xffffffff ∧
      NumberText ['4', '2', '9', '4', '9', '6', '7', '2', '9', '6'] 0x100000000 ∧
      (∃ p, assemble (.ofText "nop\nd: dw 007 , 0X00fFfFfFfF ; end") = .ok p ∧
        (p.operandsOn 2)[1]? = some (.value (.immediate (-1)))) ∧
      ¬ ∃ p, assemble (.ofText "nop\nd: dw 007 , 4294967296 ; end") = .ok p := by
  have seven : Padded [' ', '0', '0', '7', ' '] (.immediate 7) :=
    padded_iff.1 ⟨.atom (.number ['0', '0', '7']), by decide, by decide⟩
  let site : Site :=
    { front := [] ++ (['d'] ++ [] ++ [':']) ++ [' ']
      labels := [.label "d"]
      isFront := .mk blanks_nil (.some (.mk (.mk (.inl rfl) (by simp)) blanks_nil)) blanks_space
      mnemonic := ['d', 'w']
      isMnemonic := .mk rfl (by simp)
      left := [[' ', '0', '0', '7', ' ']]
      before := [.immediate 7]
      isLeft := .cons seven .nil
      gap₁ := [' ']
      gap₂ := [' ']
      isGap := ⟨blanks_space, blanks_space⟩
      right := []
      after := []
      isRight := .nil
      comment := [';', ' ', 'e', 'n', 'd']
      isComment := .some _
      above := ["nop"]
      below := [] }
  have ones :
      NumberText ['0', 'X', '0', '0', 'f', 'F', 'f', 'F', 'f', 'F', 'f', 'F'] 0xffffffff := by
    have text := NumberText.mk .none (.hexadecimal (.inr rfl)) (List.cons_ne_nil _ _)
      (show List.Forall₂ (Digit 16) ['0', '0', 'f', 'F', 'f', 'F', 'f', 'F', 'f', 'F']
        [0, 0, 15, 15, 15, 15, 15, 15, 15, 15] by decide)
    exact text
  have beyond : NumberText ['4', '2', '9', '4', '9', '6', '7', '2', '9', '6'] 0x100000000 := by
    have text := NumberText.mk .none .decimal (List.cons_ne_nil _ _)
      (show List.Forall₂ (Digit 10) ['4', '2', '9', '4', '9', '6', '7', '2', '9', '6']
        [4, 2, 9, 4, 9, 6, 7, 2, 9, 6] by decide)
    exact text
  have one : NumberText ['1'] 1 := by
    have text := NumberText.mk .none .decimal (List.cons_ne_nil _ _)
      (show List.Forall₂ (Digit 10) ['1'] [1] by decide)
    exact text
  have holds {source : Source} {t : List Char} (lines : source.lines =
      ["nop", String.ofList ("d: dw 007 , ".toList ++ (t ++ " ; end".toList))]) :
      site.Holds source t := by
    refine ⟨lines.trans ?_, stops_cons.2 rfl⟩
    simp [site, Slot.fill, Slot.operands]
  have small : site.Holds (.ofText "nop\nd: dw 007 , 1 ; end") ['1'] := holds (by decide +kernel)
  have assembled : ∃ p, assemble (.ofText "nop\nd: dw 007 , 1 ; end") = .ok p :=
    ⟨⟨#[⟨1, .nop⟩], ⟨[("d", .data 0)]⟩, [⟨0, 7, 2⟩, ⟨1, 1, 2⟩]⟩, by decide +kernel⟩
  have large : site.Holds (.ofText "nop\nd: dw 007 , 0X00fFfFfFfF ; end")
      ['0', 'X', '0', '0', 'f', 'F', 'f', 'F', 'f', 'F', 'f', 'F'] := holds (by decide +kernel)
  have huge : site.Holds (.ofText "nop\nd: dw 007 , 4294967296 ; end")
      ['4', '2', '9', '4', '9', '6', '7', '2', '9', '6'] := holds (by decide +kernel)
  obtain ⟨fits, word⟩ := ((numbers_denote _).2 _ ones).2 site _ large
  obtain ⟨refused, -⟩ := ((numbers_denote _).2 _ beyond).2 site _ huge
  obtain ⟨p, denoted⟩ := (fits _ _ _ one ⟨by decide, by decide⟩ small).2
    ⟨assembled, by decide, by decide⟩
  obtain ⟨w, stands, congruent⟩ := word p denoted
  have same : (-1 : Word) = w := (congruent (-1)).1 (by decide)
  refine ⟨ones, beyond, ⟨p, denoted, same ▸ stands⟩, fun assembles => ?_⟩
  exact absurd ((refused _ _ _ one ⟨by decide, by decide⟩ small).1 assembles).2.2 (by decide)

end Line

end AsmTrace
