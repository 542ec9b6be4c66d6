import AsmTrace.Proofs.Decoding
import AsmTrace.Proofs.LabelTable
import AsmTrace.Proofs.Lines

/-!
# Label resolution

Labels are collected with counters of their own, before any statement is decoded. What a label is
then said to name is where decoding puts the statement that follows it (`Resolves.namesNext`).
-/

namespace AsmTrace

namespace Statement

def isLabel (s : Statement) : Bool :=
  match s.body with
  | .label _ => true
  | _ => false

/-- The first of some statements that is not a label. -/
def next? (statements : List Statement) : Option Statement := statements.find? fun s => !s.isLabel

/-- A label is no instruction. -/
theorem isInstruction_of_label {s : Statement} (h : s.isLabel = true) :
    s.isInstruction = false := by
  obtain ⟨line, _ | _ | _⟩ := s
  · rfl
  · cases h
  · cases h

/-- A label has no data. -/
theorem items_of_label {s : Statement} (h : s.isLabel = true) : s.items = [] := by
  obtain ⟨line, _ | _ | _⟩ := s
  · rfl
  · cases h
  · cases h

end Statement

open Assembly Result Program

namespace Assembly.Labels

theorem addressAfter_eq {address count : Nat} (h : address + count < 0x100000000) :
    addressAfter address count = address + count := by
  rw [addressAfter, Nat.mod_eq_of_lt (by omega)]
  omega

/-- The table has the labels that the statements define, in order. -/
@[simp] theorem map_fst_table (index address : Nat) (statements : List Statement) :
    (table index address statements).map Prod.fst =
      statements.filterMap Statement.labelName? := by
  induction statements generalizing index address with
  | nil => rfl
  | cons s rest ih =>
    obtain ⟨line, name | values | ⟨opcode, operands⟩⟩ := s
    · exact congrArg (name :: ·) (ih index address)
    · exact ih index _
    · exact ih (index + 1) address

/-- The entry of a label. Addresses count the data words before it as long as there are fewer words
than addresses. -/
theorem mem_table (index : Nat) {address : Nat} {before : List Statement}
    (small : address + wordCount before < 0x100000000) (line : Nat) (name : String)
    (after : List Statement) :
    (name, targetBefore (index + instructionCount before) (address + wordCount before) after) ∈
      table index address (before ++ ⟨line, .label name⟩ :: after) := by
  induction before generalizing index address with
  | nil => exact List.mem_cons_self
  | cons s rest ih =>
    obtain ⟨sline, other | values | ⟨opcode, operands⟩⟩ := s
    · exact List.mem_cons_of_mem _ (ih index small)
    · have words : wordCount (⟨sline, .data values⟩ :: rest) = values.length + wordCount rest := by
        simp [wordCount]
      rw [words] at small ⊢
      rw [List.cons_append, table, addressAfter_eq (by omega), ← Nat.add_assoc]
      exact ih index (by omega)
    · have count : instructionCount (⟨sline, .instruction opcode operands⟩ :: rest) =
          1 + instructionCount rest := by
        rw [Nat.add_comm]
        rfl
      rw [count, ← Nat.add_assoc]
      exact ih (index + 1) small

/-- A label points at the next instruction or the next word, whichever comes first, or to the
end. -/
theorem targetBefore_eq (index address : Nat) (statements : List Statement) :
    targetBefore index address statements =
      match Statement.next? statements with
      | none => .code index
      | some s => if s.isInstruction then .code index else .data address := by
  induction statements with
  | nil => rfl
  | cons s rest ih =>
    obtain ⟨line, name | values | ⟨opcode, operands⟩⟩ := s
    · exact ih
    · rfl
    · rfl

end Assembly.Labels

namespace Assembly

/-- A target that is decoded is that of a label of code. -/
theorem exists_label_of_decodeTarget {labels : Labels} {opcode : Opcode} {operand : Operand}
    {target : Nat} (h : decodeTarget labels opcode operand = .ok target) :
    ∃ name, labels.find? name = some (.code target) := by
  unfold decodeTarget at h
  split at h
  · next name =>
    split at h
    · next index found =>
      cases h
      exact ⟨name, found⟩
    · cases h
    · cases h
  · cases h

/-- Where a decoded operation may jump to has a name. -/
theorem Decoded.exists_label {labels : Labels} {opcode : Opcode} {operands : List Operand}
    {op : Operation} (h : Decoded labels opcode operands op) {target : Nat}
    (jumps : op.target? = some target) : ∃ name, labels.find? name = some (.code target) := by
  cases h with
  | jump decoded | loop decoded | call decoded =>
    cases jumps
    exact exists_label_of_decodeTarget decoded
  | _ => cases jumps

end Assembly

namespace Program

variable {statements before after : List Statement} {p : Program}

/-- What the label `name` is to name after the statements `before`, by the next statement that is
not a label: the instruction that the statement decodes to, the first of its data words, or the end
of the program if there is no such statement. -/
def NamesNext (p : Program) (before : List Statement) (name : String) : Option Statement → Prop
  | none => p.labels.find? name = some (.code p.size)
  | some s =>
    if s.isInstruction then
      p.labels.find? name = some (.code (instructionCount before)) ∧
        ∃ i, p.fetch? (instructionCount before) = some i ∧ Decodes p.labels s i
    else
      p.labels.find? name = some (.data (wordCount before)) ∧
        ∃ item word, s.items.head? = some item ∧ p.data[wordCount before]? = some word ∧
          Holds item word

@[simp] theorem instructionCount_append (xs ys : List Statement) :
    instructionCount (xs ++ ys) = instructionCount xs + instructionCount ys := by
  simp [instructionCount]

@[simp] theorem wordCount_append (xs ys : List Statement) :
    wordCount (xs ++ ys) = wordCount xs + wordCount ys := by
  simp [wordCount]

/-- Labels are passed over by the count of instructions. -/
theorem filter_isInstruction_labels {labels : List Statement}
    (h : ∀ s ∈ labels, s.isLabel = true) :
    labels.filter Statement.isInstruction = [] :=
  List.filter_eq_nil_iff.2 fun s mem => by simp [Statement.isInstruction_of_label (h s mem)]

theorem flatMap_items_labels {labels : List Statement}
    (h : ∀ s ∈ labels, s.isLabel = true) : labels.flatMap Statement.items = [] :=
  List.flatMap_eq_nil_iff.2 fun s mem => Statement.items_of_label (h s mem)

/-- The labels in front of a statement do not change where it is found. -/
theorem instruction_at {labels : List Statement} (h : ∀ s ∈ labels, s.isLabel = true)
    {s : Statement} (instruction : s.isInstruction = true) (before after : List Statement) :
    ((before ++ (labels ++ s :: after)).filter Statement.isInstruction)[instructionCount before]? =
      some s := by
  rw [List.filter_append, List.filter_append, filter_isInstruction_labels h, List.nil_append,
    List.filter_cons_of_pos instruction, instructionCount,
    List.getElem?_append_right (Nat.le_refl _), Nat.sub_self, List.getElem?_cons_zero]

/-- The first word after labels stands at the number of words before them. -/
theorem word_at {labels : List Statement} (h : ∀ s ∈ labels, s.isLabel = true)
    {s : Statement} {item : Nat × Int} (first : s.items.head? = some item)
    (before after : List Statement) :
    ((before ++ (labels ++ s :: after)).flatMap Statement.items)[wordCount before]? =
      some item := by
  obtain ⟨rest, items⟩ : ∃ rest, s.items = item :: rest := List.head?_eq_some_iff.1 first
  rw [List.flatMap_append, List.flatMap_append, flatMap_items_labels h, List.nil_append,
    List.flatMap_cons, items, wordCount, List.getElem?_append_right (Nat.le_refl _), Nat.sub_self,
    List.cons_append, List.getElem?_cons_zero]

/-- A statement that is neither a label nor an instruction has a first word. -/
theorem exists_item {s : Statement} (nonempty : s.body ≠ .data [])
    (notLabel : s.isLabel = false) (notInstruction : ¬ s.isInstruction = true) :
    ∃ item, s.items.head? = some item := by
  obtain ⟨line, name | values | ⟨opcode, operands⟩⟩ := s
  · cases notLabel
  · cases values with
    | nil => exact absurd rfl nonempty
    | cons n rest => exact ⟨(line, n), rfl⟩
  · exact absurd rfl notInstruction

variable {line : Nat} {name : String}

namespace Resolves

/-- A program has as many instructions as its statements. -/
theorem size_eq (r : Resolves statements p) : p.size = instructionCount statements := by
  rw [instructionCount, r.instructions.length_eq, Array.length_toList, size]

/-- The labels of a program are those of the table, and distinct. -/
theorem entries_eq (r : Resolves statements p) :
    p.labels.entries = Labels.table 0 0 statements ∧ p.labels.names.Nodup := by
  obtain ⟨entries, nodup⟩ :=
    Labels.entries_of_ahead ((Labels.collect_eq_ahead statements).symm.trans r.labels)
  exact ⟨entries, nodup List.nodup_nil⟩

theorem names_eq (r : Resolves statements p) :
    p.labels.names = statements.filterMap Statement.labelName? := by
  rw [Labels.names, r.entries_eq.1, Labels.map_fst_table]

/-- A label is found, with where it points. -/
theorem find?_label (r : Resolves (before ++ ⟨line, .label name⟩ :: after) p)
    (small : wordCount before < 0x100000000) :
    p.labels.find? name =
      some (Labels.targetBefore (instructionCount before) (wordCount before) after) := by
  refine Labels.find?_eq_some_of_mem r.entries_eq.2 ?_
  rw [r.entries_eq.1]
  have small : 0 + wordCount before < 0x100000000 := by omega
  have mem := Labels.mem_table 0 small line name after
  rwa [Nat.zero_add, Nat.zero_add] at mem

/-- A label names the next statement that is not a label. -/
theorem namesNext (r : Resolves (before ++ ⟨line, .label name⟩ :: after) p)
    (small : wordCount before < 0x100000000) (nonempty : ∀ s ∈ after, s.body ≠ .data []) :
    NamesNext p before name (Statement.next? after) := by
  have found := r.find?_label small
  rw [Labels.targetBefore_eq] at found
  cases next : Statement.next? after with
  | none =>
    have labels : ∀ s ∈ after, s.isLabel = true := by simpa using List.find?_eq_none.1 next
    have size : p.size = instructionCount before := by
      rw [r.size_eq, instructionCount_append, Nat.add_eq_left, instructionCount,
        filter_isInstruction_labels (List.forall_mem_cons.2 ⟨rfl, labels⟩), List.length_nil]
    rw [next] at found
    rw [NamesNext, size]
    exact found
  | some s =>
    obtain ⟨notLabel, labels, rest, rfl, isLabel⟩ := List.find?_eq_some_iff_append.1 next
    have isLabel : ∀ s ∈ ⟨line, .label name⟩ :: labels, s.isLabel = true :=
      List.forall_mem_cons.2 ⟨rfl, by simpa using isLabel⟩
    rw [next] at found
    by_cases instruction : s.isInstruction = true
    · rw [NamesNext, if_pos instruction]
      simp only [instruction, if_true] at found
      obtain ⟨i, hi, decodes⟩ :=
        exists_right r.instructions (instruction_at isLabel instruction _ _)
      exact ⟨found, i, by rwa [Array.getElem?_toList] at hi, decodes⟩
    · rw [NamesNext, if_neg instruction]
      simp only [instruction] at found
      obtain ⟨item, first⟩ :=
        exists_item (nonempty s (by simp)) (by simpa using notLabel) instruction
      obtain ⟨word, hw, holds⟩ := exists_right r.data (word_at isLabel first _ _)
      exact ⟨found, item, word, first, hw, holds⟩

end Resolves

/-- A target is in a program: an instruction of it or its end, or a data word. -/
def Contains (p : Program) : LabelTarget → Prop
  | .code index => index ≤ p.size
  | .data address => address < p.data.length

/-- A label that names what comes next is found in the program. -/
theorem NamesNext.contains {next : Option Statement} (h : NamesNext p before name next) :
    ∃ target, p.labels.find? name = some target ∧ p.Contains target := by
  cases next with
  | none => exact ⟨.code p.size, h, Nat.le_refl _⟩
  | some s =>
    rw [NamesNext] at h
    split at h
    · obtain ⟨found, i, fetched, -⟩ := h
      exact ⟨_, found, Nat.le_of_lt (Array.getElem?_eq_some_iff.1 fetched).1⟩
    · obtain ⟨found, item, word, -, hw, -⟩ := h
      exact ⟨_, found, (List.getElem?_eq_some_iff.1 hw).1⟩

/-- What a label names is in the program. -/
theorem Resolves.contains (r : Resolves statements p) (small : wordCount statements < 0x100000000)
    (nonempty : ∀ s ∈ statements, s.body ≠ .data []) {target : LabelTarget}
    (found : p.labels.find? name = some target) : p.Contains target := by
  have defined : name ∈ statements.filterMap Statement.labelName? := by
    rw [← r.names_eq]
    exact List.mem_map_of_mem (Labels.mem_of_find?_eq_some found)
  obtain ⟨⟨line, body⟩, mem, label⟩ := List.mem_filterMap.1 defined
  cases body with
  | data values => cases label
  | instruction opcode operands => cases label
  | label other =>
    cases label
    obtain ⟨before, after, rfl⟩ := List.append_of_mem mem
    rw [wordCount_append] at small
    have names := r.namesNext (by omega) fun s hs =>
      nonempty s (List.mem_append_right _ (List.mem_cons_of_mem _ hs))
    obtain ⟨target', found', contains⟩ := names.contains
    cases found.symm.trans found'
    exact contains

/-- Data statements that are parsed have values. -/
theorem nonempty_of_parse {source : Source} (h : parse source = .ok statements) :
    ∀ s ∈ statements, s.body ≠ .data [] := by
  obtain ⟨lines, parsed, rfl⟩ := map_eq_ok.1 h
  intro s mem
  obtain ⟨line, inLines, inLine⟩ := List.mem_flatten.1 mem
  obtain ⟨k, hk⟩ := List.mem_iff_getElem?.1 inLines
  obtain ⟨⟨n, text⟩, -, ofText⟩ := exists_left (mapM_eq_ok.1 parsed) hk
  obtain ⟨bs, said, rfl⟩ := Line.parse_eq_ok.1 ofText
  obtain ⟨body, inBodies, rfl⟩ := List.mem_map.1 inLine
  rintro rfl
  exact Line.data_nil_not_mem (Line.bodies_eq_ok_iff.1 said) inBodies

/-- The labels of a program name what stands after them. Every label that is defined is in the
table, once and with no other, and names the next instruction, the next data word or the end; data
words are at the addresses that count them. So every jump stays in the program, and every data label
is that of a word. -/
theorem labels_resolved {source : Source} {statements : List Statement} {p : Program}
    (parsed : parse source = .ok statements) (small : wordCount statements < 0x100000000)
    (resolved : ofStatements statements = .ok p) :
    p.labels.entries.map Prod.fst = statements.filterMap Statement.labelName? ∧
      (p.labels.entries.map Prod.fst).Nodup ∧
      (∀ before line name after, statements = before ++ ⟨line, .label name⟩ :: after →
        NamesNext p before name (Statement.next? after)) ∧
      (∀ (k : Nat) (word : DataWord), p.data[k]? = some word → word.address = k) ∧
      (∀ index i target, p.fetch? index = some i → i.operation.target? = some target →
        target ≤ p.size) ∧
      ∀ name address, p.labels.find? name = some (.data address) → address < p.data.length := by
  have r := resolves_of_ofStatements resolved
  have nonempty := nonempty_of_parse parsed
  refine ⟨r.names_eq, r.entries_eq.2, ?_, ?_, ?_, ?_⟩
  · rintro before line name after rfl
    rw [wordCount_append] at small
    exact r.namesNext (by omega) fun s hs =>
      nonempty s (List.mem_append_right _ (List.mem_cons_of_mem _ hs))
  · intro k word hk
    have lt : k < wordCount statements := by
      rw [wordCount, r.data.length_eq]
      exact (List.getElem?_eq_some_iff.1 hk).1
    rw [r.addresses k word hk, Nat.mod_eq_of_lt (Nat.lt_trans lt small)]
  · intro index i target fetched jumps
    obtain ⟨opcode, operands, decoded⟩ := r.decoded fetched
    obtain ⟨name, found⟩ := decoded.exists_label jumps
    exact r.contains small nonempty found
  · intro name address found
    exact r.contains small nonempty found

/-- Data between code, labels that share a word, and a label at the end that is used before it. -/
theorem labels_resolved_interleaved :
    ∃ statements p, parse (.ofText "jmp end\na: dw 5, 6\nb:\nc: dw 7\nend:") = .ok statements ∧
      wordCount statements < 0x100000000 ∧ ofStatements statements = .ok p ∧
      p.labels.find? "b" = some (.data 2) ∧ p.labels.find? "end" = some (.code 1) ∧
      ∀ before line name after, statements = before ++ ⟨line, .label name⟩ :: after →
        NamesNext p before name (Statement.next? after) := by
  obtain ⟨statements, p, parsed, small, resolved, shared, last⟩ : ∃ statements p,
      parse (.ofText "jmp end\na: dw 5, 6\nb:\nc: dw 7\nend:") = .ok statements ∧
        wordCount statements < 0x100000000 ∧ ofStatements statements = .ok p ∧
        p.labels.find? "b" = some (.data 2) ∧ p.labels.find? "end" = some (.code 1) :=
    ⟨[⟨1, .instruction (.jump none) [.symbol "end"]⟩, ⟨2, .label "a"⟩, ⟨2, .data [5, 6]⟩,
        ⟨3, .label "b"⟩, ⟨4, .label "c"⟩, ⟨4, .data [7]⟩, ⟨5, .label "end"⟩],
      { instructions := #[⟨1, .jump none 1⟩]
        labels := ⟨[("a", .data 0), ("b", .data 2), ("c", .data 2), ("end", .code 1)]⟩
        data := [⟨0, 5, 2⟩, ⟨1, 6, 2⟩, ⟨2, 7, 4⟩] },
      rfl, by decide, rfl, by decide, by decide⟩
  exact ⟨statements, p, parsed, small, resolved, shared, last,
    (labels_resolved parsed small resolved).2.2.1⟩

end Program

end AsmTrace
