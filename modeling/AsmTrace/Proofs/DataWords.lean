import AsmTrace.Proofs.FailedSteps
import AsmTrace.Proofs.LineNumbers

/-!
# Loading data words

The values of all data statements, in the order of the source text, are laid out from address 0 on.
So loading them fills memory from below, and it comes to the end of memory, if at all, with the word
whose number is the size of memory: all words before it are in place (`loaded_of_le`), and it is the
first that is not (`loadData_of_full`).
-/

namespace AsmTrace

/-! ## The loader -/

/-- Words at the addresses from 0 on. -/
def DataWord.Consecutive (words : List DataWord) : Prop :=
  ∀ (k : Nat) (word : DataWord), words[k]? = some word → word.address = k

theorem DataWord.Consecutive.of_append {words more : List DataWord}
    (h : Consecutive (words ++ more)) : Consecutive words := by
  intro k word hk
  obtain ⟨lt, -⟩ := List.getElem?_eq_some_iff.1 hk
  exact h k word (by rwa [List.getElem?_append_left lt])

namespace Execution

open DataWord Result

variable {c : Config} {m : Machine} {words : List DataWord} {word : DataWord}

theorem loadData_append (m : Machine) (words more : List DataWord) :
    loadData m (words ++ more) = loadData m words >>= fun m' => loadData m' more := by
  induction words generalizing m with
  | nil => rfl
  | cons word words ih =>
    rw [List.cons_append, loadData, loadData]
    cases m.write word.address word.value with
    | ok m' => exact ih m'
    | error fault => rfl

/-- `Loaded c words m` holds when `m` is a new machine but for its memory, which holds those words
from address 0 on and nothing else. -/
structure Loaded (c : Config) (words : List DataWord) (m : Machine) : Prop where
  others : m = { Machine.new c with memory := m.memory }
  size : m.memory.size = c.memorySize
  cells (a : Nat) : m.memory.cells.get? a = words[a]?.map DataWord.value

theorem loaded_new (c : Config) : Loaded c [] (Machine.new c) := ⟨rfl, rfl, fun _ => rfl⟩

/-- A word can be written right after those that are loaded if there is room for it. -/
theorem Loaded.write (h : Loaded c words m) (next : word.address = words.length)
    (lt : words.length < c.memorySize.toNat) :
    ∃ m', m.write word.address word.value = .ok m' ∧ Loaded c (words ++ [word]) m' := by
  have inBounds : m.memory.InBounds word.address := by
    refine ⟨Int.natCast_nonneg _, ?_⟩
    rw [h.size, next]
    exact Int.ofNat_lt.2 lt
  refine ⟨_, congrArg (Except.map _) (if_pos inBounds), ?_, h.size, ?_⟩
  · rw [h.others]
  · intro a
    change (m.memory.cells.insert word.address word.value).get? a = _
    rw [Cells.get?_insert, h.cells, next]
    rcases Nat.lt_trichotomy a words.length with below | rfl | above
    · rw [if_neg (Nat.ne_of_lt below), List.getElem?_append_left below]
    · rw [if_pos rfl, List.getElem?_concat_length]
      rfl
    · rw [if_neg (Nat.ne_of_gt above), List.getElem?_eq_none (Nat.le_of_lt above),
        List.getElem?_eq_none (by rw [List.length_append]; exact above)]

/-- At the end of memory it cannot. -/
theorem Loaded.write_full (h : Loaded c words m) (next : word.address = words.length)
    (full : words.length = c.memorySize.toNat) :
    m.write word.address word.value = .error (.outOfBounds c.memorySize.toNat c.memorySize) := by
  have outside : ¬ m.memory.InBounds word.address := by
    rintro ⟨-, lt⟩
    rw [h.size, next, full] at lt
    exact Int.lt_irrefl _ lt
  rw [Machine.write_of_outside outside, h.size, next, full]

/-- Words that fit into memory are loaded. -/
theorem loaded_of_le (consecutive : Consecutive words) (le : words.length ≤ c.memorySize.toNat) :
    ∃ m, loadData (Machine.new c) words = .ok m ∧ Loaded c words m := by
  induction words using List.reverseRecOn with
  | nil => exact ⟨Machine.new c, rfl, loaded_new c⟩
  | append_singleton words word ih =>
    rw [List.length_append, List.length_singleton] at le
    obtain ⟨m, loading, loaded⟩ := ih consecutive.of_append (Nat.le_of_succ_le le)
    have next := consecutive words.length word List.getElem?_concat_length
    obtain ⟨m', written, loaded'⟩ := loaded.write next le
    refine ⟨m', ?_, loaded'⟩
    rw [loadData_append, loading]
    change loadData m [word] = _
    simp only [loadData, written]

/-- The word after those that fill memory cannot be loaded. -/
theorem loadData_of_full {before after : List DataWord}
    (consecutive : Consecutive (before ++ word :: after))
    (full : before.length = c.memorySize.toNat) :
    loadData (Machine.new c) (before ++ word :: after) =
      .error (word.line, .outOfBounds c.memorySize.toNat c.memorySize) := by
  obtain ⟨m, loading, loaded⟩ := loaded_of_le consecutive.of_append (Nat.le_of_eq full)
  have next : word.address = before.length := consecutive before.length word (by simp)
  have unwritten := loaded.write_full next full
  rw [loadData_append, loading]
  change loadData m (word :: after) = _
  simp only [loadData, unwritten]

end Execution

/-! ## The words of a program -/

namespace Program

open Assembly Execution Result

variable {source : Source} {statements : List Statement} {p : Program} {c : Config}

/-- Fewer than `2 ^ 32` words have consecutive addresses. -/
theorem Resolves.consecutive (r : Resolves statements p)
    (few : wordCount statements < 0x100000000) :
    DataWord.Consecutive p.data := by
  intro k word hk
  have length : wordCount statements = p.data.length := r.data.length_eq
  obtain ⟨lt, -⟩ := List.getElem?_eq_some_iff.1 hk
  rw [r.addresses k word hk]
  exact Nat.mod_eq_of_lt (by omega)

/-- The words of a program are the values of its data statements, reduced to 32 bits. -/
theorem Resolves.values_eq (r : Resolves statements p) :
    (statements.flatMap Statement.items).map (fun item => BitVec.ofInt 32 item.2) =
      p.data.map DataWord.value := by
  have values : List.Forall₂ (fun item word => BitVec.ofInt 32 item.2 = DataWord.value word)
      (statements.flatMap Statement.items) p.data :=
    r.data.imp fun item word held => (Word.ofLiteral?_eq_some_iff.1 held.1).2
  have mapped := List.forall₂_map_left_iff.2 (List.forall₂_map_right_iff.2 values)
  rwa [List.forall₂_eq_eq_eq] at mapped

/-- If there are too many words, the first that cannot be loaded has the size of memory as its
number. -/
theorem Resolves.loadData_of_lt (r : Resolves statements p)
    (few : wordCount statements < 0x100000000) (lt : c.memorySize.toNat < wordCount statements) :
    ∃ before line values after j, statements = before ++ ⟨line, .data values⟩ :: after ∧
      c.memorySize.toNat = wordCount before + j ∧ j < values.length ∧
      loadData (Machine.new c) p.data =
        .error (line, .outOfBounds c.memorySize.toNat c.memorySize) := by
  have consecutive := r.consecutive few
  have length : wordCount statements = p.data.length := r.data.length_eq
  rw [length] at lt
  obtain ⟨before, values, after, j, n, said, position, value, -⟩ :=
    r.exists_data (List.getElem?_eq_getElem lt)
  obtain ⟨inside, -⟩ := List.getElem?_eq_some_iff.1 value
  refine ⟨before, _, values, after, j, said, position, inside, ?_⟩
  have split := List.take_append_drop c.memorySize.toNat p.data
  rw [List.drop_eq_getElem_cons lt] at split
  rw [← split] at consecutive
  have full := loadData_of_full consecutive (List.length_take_of_le (Nat.le_of_lt lt))
  rwa [split] at full

/-- A source text with fewer than `2 ^ 32` data words, which are numbered from 0 on in the order of
the text. Loading them fails if and only if there are more than memory has. The run then stops, with
nothing recorded, on the line of the data statement with the word whose number is the size of
memory, and its address is out of bounds. Otherwise the run begins on a machine that is new but for
its memory, and this holds at each address below the number of words the value with that number,
reduced to 32 bits, and nothing else. -/
theorem data_words_loaded (parsed : parse source = .ok statements)
    (assembled : assemble source = .ok p) (few : wordCount statements < 0x100000000) (c : Config) :
    ((∃ failure, loadData (Machine.new c) p.data = .error failure) ↔
      c.memorySize.toNat < wordCount statements) ∧
    (c.memorySize.toNat < wordCount statements →
      ∃ before line values after j, statements = before ++ ⟨line, .data values⟩ :: after ∧
        c.memorySize.toNat = wordCount before + j ∧ j < values.length ∧
        p.run c = .error ⟨line, .outOfBounds c.memorySize.toNat c.memorySize, []⟩) ∧
    (wordCount statements ≤ c.memorySize.toNat →
      ∃ m, loadData (Machine.new c) p.data = .ok m ∧
        p.run c = runFrom p c c.stepLimit (loadedWith c m) [] ∧
        m = { Machine.new c with memory := m.memory } ∧ m.memory.size = c.memorySize ∧
        ∀ a, m.memory.cells.get? a =
          (statements.flatMap Statement.items)[a]?.map fun item => BitVec.ofInt 32 item.2) := by
  obtain ⟨_, parsed', r⟩ := resolves_of_assemble assembled
  cases parsed.symm.trans parsed'
  have length : wordCount statements = p.data.length := r.data.length_eq
  have loads (le : wordCount statements ≤ c.memorySize.toNat) :=
    loaded_of_le (c := c) (r.consecutive few) (length ▸ le)
  refine ⟨⟨?_, ?_⟩, ?_, ?_⟩
  · rintro ⟨failure, failed⟩
    apply Nat.lt_of_not_le
    intro le
    obtain ⟨m, loading, -⟩ := loads le
    cases loading.symm.trans failed
  · intro lt
    obtain ⟨-, line, -, -, -, -, -, -, failed⟩ := r.loadData_of_lt few lt
    exact ⟨_, failed⟩
  · intro lt
    obtain ⟨before, line, values, after, j, said, position, inside, failed⟩ :=
      r.loadData_of_lt few lt
    exact ⟨before, line, values, after, j, said, position, inside, run_of_loading failed⟩
  · intro le
    obtain ⟨m, loading, loaded⟩ := loads le
    refine ⟨m, loading, ?_, loaded.others, loaded.size, ?_⟩
    · rw [Program.run, Execution.run, show loadData (new c).machine p.data = _ from loading]
      rfl
    · intro a
      rw [loaded.cells, ← List.getElem?_map, ← List.getElem?_map, r.values_eq]

/-- Three words in two statements, which a memory of 2 has no room for and one of 3 has. -/
theorem data_words_loaded_scattered :
    ∃ p, assemble (.ofText "x: dw 1, 0xFFFFFFFF\nnop\ndw -3") = .ok p ∧
      p.run { memorySize := 2 } = .error ⟨3, .outOfBounds 2 2, []⟩ ∧
      ∃ m, loadData (Machine.new { memorySize := 3 }) p.data = .ok m ∧
        m.memory.cells.get? 1 = some (-1) ∧ m.memory.cells.get? 3 = none := by
  let statements : List Statement :=
    [⟨1, .label "x"⟩, ⟨1, .data [1, 0xFFFFFFFF]⟩, ⟨2, .instruction .nop []⟩, ⟨3, .data [-3]⟩]
  let p : Program :=
    { instructions := #[⟨2, .nop⟩]
      labels := ⟨[("x", .data 0)]⟩
      data := [⟨0, 1, 1⟩, ⟨1, -1, 1⟩, ⟨2, -3, 3⟩] }
  have parsed : parse (.ofText "x: dw 1, 0xFFFFFFFF\nnop\ndw -3") = .ok statements := by
    decide +kernel
  have assembled : assemble (.ofText "x: dw 1, 0xFFFFFFFF\nnop\ndw -3") = .ok p := by decide +kernel
  have loaded (c : Config) := data_words_loaded parsed assembled (by decide) c
  refine ⟨p, assembled, ?_, ?_⟩
  · obtain ⟨-, fails, -⟩ := loaded { memorySize := 2 }
    obtain ⟨-, line, -, -, -, -, -, -, failed⟩ := fails (by decide)
    have third : (p.run { memorySize := 2 }).mapError RunFailure.line = .error 3 := by
      decide +kernel
    rw [failed] at third
    cases third
    exact failed
  · obtain ⟨-, -, holds⟩ := loaded { memorySize := 3 }
    obtain ⟨m, loading, -, -, -, cells⟩ := holds (by decide)
    exact ⟨m, loading, cells 1, cells 3⟩

end Program

end AsmTrace
