import AsmTrace.Proofs.LineNumbers

/-!
# The first fault

Assembling goes over a source text three times: lines are parsed, labels are collected, statements
are decoded. Each pass goes from the first item to the last and stops at a fault, so that a pass
fails with an error if and only if that is the first fault of the items (`parse_eq_error_iff`,
`collect_eq_error_iff`, `decodeFrom_eq_error_iff`), and the first pass that fails is the one
reported. Labels are looked at late, when the statement after them is reached; as far as their
faults are concerned this is no other order than that of the source text, as looking ahead shows.
-/

namespace AsmTrace

namespace Assembly

open Result

variable {ε α β γ : Type} {wrong : List α → α → ε → Prop} {x : α} {xs : List α} {e : ε}

/-! ## First faults

What is wrong with an item may depend on the items before it: `wrong before item e` says that `e` is
wrong with `item` after the items `before`. -/

/-- Something is wrong with one of the items. -/
def Faulty (wrong : List α → α → ε → Prop) (items : List α) : Prop :=
  ∃ before item e, before ++ [item] <+: items ∧ wrong before item e

/-- `FirstAt wrong items before item e` holds when `e` is wrong with `item`, which stands in `items`
after `before`, and nothing is wrong with any item of `before`. -/
structure FirstAt (wrong : List α → α → ε → Prop) (items before : List α) (item : α) (e : ε) :
    Prop where
  stands : before ++ [item] <+: items
  fault : wrong before item e
  earlier : ∀ front x e', front ++ [x] <+: before → ¬ wrong front x e'

/-- `e` is the first thing that is wrong with the items. -/
def First (wrong : List α → α → ε → Prop) (items : List α) (e : ε) : Prop :=
  ∃ before item, FirstAt wrong items before item e

@[simp] theorem not_first_nil : ¬ First wrong [] e := by
  rintro ⟨before, item, first⟩
  simpa using first.stands

@[simp] theorem not_faulty_nil : ¬ Faulty wrong [] := by
  rintro ⟨before, item, e, stands, -⟩
  simp at stands

/-- The first fault is that of the first item, or if it has none, the first one after it. -/
@[simp] theorem first_cons :
    First wrong (x :: xs) e ↔
      wrong [] x e ∨ (∀ e', ¬ wrong [] x e') ∧ First (fun before => wrong (x :: before)) xs e := by
  constructor
  · rintro ⟨before, item, stands, fault, earlier⟩
    cases before with
    | nil =>
      obtain ⟨rfl, -⟩ := List.cons_prefix_cons.1 stands
      exact .inl fault
    | cons y before =>
      obtain ⟨rfl, rest⟩ := List.cons_prefix_cons.1 stands
      refine .inr ⟨fun e' => earlier [] y e' (List.prefix_append [y] before), before, item, rest,
        fault, ?_⟩
      intro front z e' inside
      exact earlier (y :: front) z e' (List.cons_prefix_cons.2 ⟨rfl, inside⟩)
  · rintro (fault | ⟨sound, before, item, stands, fault, earlier⟩)
    · refine ⟨[], x, List.prefix_append [x] xs, fault, ?_⟩
      intro front y e' inside
      simp at inside
    · refine ⟨x :: before, item, List.cons_prefix_cons.2 ⟨rfl, stands⟩, fault, ?_⟩
      intro front y e' inside
      cases front with
      | nil =>
        obtain ⟨rfl, -⟩ := List.cons_prefix_cons.1 inside
        exact sound e'
      | cons z front =>
        obtain ⟨rfl, rest⟩ := List.cons_prefix_cons.1 inside
        exact earlier front y e' rest

@[simp] theorem faulty_cons :
    Faulty wrong (x :: xs) ↔
      (∃ e, wrong [] x e) ∨ Faulty (fun before => wrong (x :: before)) xs := by
  constructor
  · rintro ⟨before, item, e, stands, fault⟩
    cases before with
    | nil =>
      obtain ⟨rfl, -⟩ := List.cons_prefix_cons.1 stands
      exact .inl ⟨e, fault⟩
    | cons y before =>
      obtain ⟨rfl, rest⟩ := List.cons_prefix_cons.1 stands
      exact .inr ⟨before, item, e, rest, fault⟩
  · rintro (⟨e, fault⟩ | ⟨before, item, e, stands, fault⟩)
    · exact ⟨[], x, e, List.prefix_append [x] xs, fault⟩
    · exact ⟨x :: before, item, e, List.cons_prefix_cons.2 ⟨rfl, stands⟩, fault⟩

/-- Where something is wrong, something is wrong first. -/
theorem faulty_iff_exists_first : Faulty wrong xs ↔ ∃ e, First wrong xs e := by
  constructor
  · intro faulty
    induction xs generalizing wrong with
    | nil => exact absurd faulty not_faulty_nil
    | cons x xs ih =>
      by_cases here : ∃ e, wrong [] x e
      · obtain ⟨e, fault⟩ := here
        exact ⟨e, first_cons.2 (.inl fault)⟩
      · obtain ⟨e, first⟩ := ih ((faulty_cons.1 faulty).resolve_left here)
        exact ⟨e, first_cons.2 (.inr ⟨not_exists.1 here, first⟩)⟩
  · rintro ⟨e, before, item, first⟩
    exact ⟨before, item, e, first.stands, first.fault⟩

/-- Faults that do not depend on what stands before. -/
theorem faulty_iff_exists_mem {wrong : α → ε → Prop} :
    Faulty (fun _ => wrong) xs ↔ ∃ x ∈ xs, ∃ e, wrong x e := by
  constructor
  · rintro ⟨before, item, e, stands, fault⟩
    exact ⟨item, stands.subset (List.mem_append_right before List.mem_cons_self), e, fault⟩
  · rintro ⟨x, mem, e, fault⟩
    obtain ⟨before, after, rfl⟩ := List.append_of_mem mem
    exact ⟨before, x, e, by simp, fault⟩

/-! ## Passes -/

/-- A computation that fails on the faults `P`, and then one that fails under `Q`. -/
theorem bind_eq_error_iff {m : Except ε β} {f : β → Except ε γ} {P : ε → Prop} {Q : Prop}
    (fails : ∀ e, m = .error e ↔ P e) (next : ∀ b, m = .ok b → (f b = .error e ↔ Q)) :
    m >>= f = .error e ↔ P e ∨ (∀ e', ¬ P e') ∧ Q := by
  rw [bind_eq_error, fails]
  refine or_congr_right ?_
  constructor
  · rintro ⟨b, rfl, h⟩
    exact ⟨fun e' fault => (nomatch (fails e').2 fault), (next b rfl).1 h⟩
  · rintro ⟨sound, h⟩
    cases m with
    | error e' => exact absurd ((fails e').1 rfl) (sound e')
    | ok b => exact ⟨b, rfl, (next b rfl).2 h⟩

theorem bind_pure_eq_error {m : Except ε β} {g : β → γ} :
    (do let b ← m; return g b) = .error e ↔ m = .error e := by
  cases m with
  | error e' => exact ⟨by rintro ⟨⟩; rfl, by rintro ⟨⟩; rfl⟩
  | ok b => exact iff_of_false nofun nofun

/-- A pass that fails on first faults reports the first one where there are faults. -/
theorem exists_firstAt {m : Except ε β} (fails : ∀ e, m = .error e ↔ First wrong xs e)
    (faulty : Faulty wrong xs) :
    ∃ before item e, FirstAt wrong xs before item e ∧ m = .error e := by
  obtain ⟨e, before, item, first⟩ := faulty_iff_exists_first.1 faulty
  exact ⟨before, item, e, first, (fails e).2 ⟨before, item, first⟩⟩

/-- What fails only at a first fault succeeds if nothing is faulty. -/
theorem exists_ok {m : Except ε β} (fails : ∀ e, m = .error e ↔ First wrong xs e)
    (sound : ¬ Faulty wrong xs) : ∃ b, m = .ok b := by
  cases m with
  | error e => exact absurd (faulty_iff_exists_first.2 ⟨e, (fails e).1 rfl⟩) sound
  | ok b => exact ⟨b, rfl⟩

/-- Going through a list fails with the error of the first item that has one. -/
theorem mapM_eq_error_iff {f : α → Except ε β} :
    xs.mapM f = .error e ↔ First (fun _ x e => f x = .error e) xs e := by
  induction xs with
  | nil => exact iff_of_false (by rw [List.mapM_nil]; exact nofun) not_first_nil
  | cons x xs ih =>
    rw [List.mapM_cons, first_cons]
    exact bind_eq_error_iff (fun _ => Iff.rfl) fun y _ => bind_pure_eq_error.trans ih

/-! ## Labels -/

variable {e : Error}

/-- A name is a register's, in any letter case. -/
def NamesRegister (name : String) : Prop :=
  ∃ r : Register, Text.sameIgnoringCase name r.name = true

/-- What can be wrong with a label: it is named like a register, or like a label before it. -/
inductive LabelFault (before : List Statement) : Statement → Error → Prop
  | register {line : Nat} {name : String} (named : NamesRegister name) :
      LabelFault before ⟨line, .label name⟩ (.atLine line (.labelIsRegister name))
  | repeated {line other : Nat} {name : String} (earlier : ⟨other, .label name⟩ ∈ before) :
      LabelFault before ⟨line, .label name⟩ (.atLine line (.duplicateLabel name))

theorem isSome_ofName?_iff {name : String} :
    (Register.ofName? name).isSome = true ↔ NamesRegister name := by
  rw [Register.ofName?, List.find?_isSome]
  constructor
  · rintro ⟨r, -, same⟩
    exact ⟨r, by rwa [Text.sameIgnoringCase_comm]⟩
  · rintro ⟨r, same⟩
    exact ⟨r, r.mem_all, by rwa [Text.sameIgnoringCase_comm]⟩

/-- The label with the first fault repeats another one only if it is not named like a register. -/
theorem FirstAt.kind_cases {statements before : List Statement} {s : Statement}
    (first : FirstAt LabelFault statements before s e) :
    ∃ name, s.body = .label name ∧ e.line? = some s.line ∧
      (NamesRegister name ∧ e.kind = .parse ∨
        ¬ NamesRegister name ∧ e.kind = .duplicateLabel ∧
          ∃ line, ⟨line, .label name⟩ ∈ before) := by
  obtain ⟨-, fault, sound⟩ := first
  cases fault with
  | @register line name named => exact ⟨name, rfl, rfl, .inl ⟨named, rfl⟩⟩
  | @repeated line other name earlier =>
    refine ⟨name, rfl, rfl, .inr ⟨?_, rfl, other, earlier⟩⟩
    intro named
    obtain ⟨front, rest, rfl⟩ := List.append_of_mem earlier
    exact sound front ⟨other, .label name⟩ _ (by simp) (.register named)

namespace Labels

variable {ls : Labels} {seen : List Statement}

/-- The labels are those of the statements seen, and none is named like a register. -/
structure Records (ls : Labels) (seen : List Statement) : Prop where
  names : ls.names = seen.filterMap Statement.labelName?
  proper : ∀ name ∈ ls.names, ¬ NamesRegister name

/-- The names of a table are those of the labels seen. -/
theorem Records.mem_names (h : ls.Records seen) {name : String} :
    name ∈ ls.names ↔ ∃ line, ⟨line, .label name⟩ ∈ seen := by
  rw [h.names, List.mem_filterMap]
  constructor
  · rintro ⟨⟨line, body⟩, mem, named⟩
    cases body with
    | label other =>
      cases named
      exact ⟨line, mem⟩
    | data values => cases named
    | instruction opcode operands => cases named
  · rintro ⟨line, mem⟩
    exact ⟨_, mem, rfl⟩

/-- Defining a label fails on the faults of its statement. -/
theorem Records.define_eq_error (h : ls.Records seen) {line : Nat} {name : String}
    {target : LabelTarget} :
    (ls.define name target).mapError (.atLine line) = .error e ↔
      LabelFault seen ⟨line, .label name⟩ e := by
  have known : (ls.find? name).isSome = true ↔ ∃ other, ⟨other, .label name⟩ ∈ seen := by
    rw [← h.mem_names, Option.isSome_iff_ne_none, ne_eq, find?_eq_none_iff, not_not]
  unfold define
  by_cases named : (Register.ofName? name).isSome = true
  · rw [if_pos named]
    rw [isSome_ofName?_iff] at named
    constructor
    · rintro ⟨⟩
      exact .register named
    · intro fault
      cases fault with
      | register => rfl
      | repeated earlier => exact absurd named (h.proper name (h.mem_names.2 ⟨_, earlier⟩))
  · rw [if_neg named]
    rw [isSome_ofName?_iff] at named
    by_cases repeated : (ls.find? name).isSome = true
    · rw [if_pos repeated]
      obtain ⟨other, earlier⟩ := known.1 repeated
      constructor
      · rintro ⟨⟩
        exact .repeated earlier
      · intro fault
        cases fault with
        | register named' => exact absurd named' named
        | repeated => rfl
    · rw [if_neg repeated]
      refine iff_of_false nofun ?_
      intro fault
      cases fault with
      | register named' => exact named named'
      | repeated earlier => exact repeated (known.2 ⟨_, earlier⟩)

/-- Defining a label records it. -/
theorem Records.define (h : ls.Records seen) {line : Nat} {name : String} {target : LabelTarget}
    {ls' : Labels} (defined : ls.define name target = .ok ls') :
    ls'.Records (seen ++ [⟨line, .label name⟩]) := by
  obtain ⟨unnamed, -, rfl⟩ := define_eq_ok.1 defined
  have names : Labels.names ⟨ls.entries ++ [(name, target)]⟩ = ls.names ++ [name] := by
    simp [Labels.names]
  refine ⟨?_, ?_⟩
  · rw [names, h.names, List.filterMap_append]
    rfl
  · rw [names]
    intro other mem
    rcases List.mem_append.1 mem with earlier | here
    · exact h.proper other earlier
    · rw [List.mem_singleton.1 here, ← isSome_ofName?_iff, unnamed]
      exact Bool.false_ne_true

/-- Any other statement leaves the record. -/
theorem Records.pass (h : ls.Records seen) {s : Statement} (other : s.labelName? = none) :
    ls.Records (seen ++ [s]) := by
  refine ⟨?_, h.proper⟩
  rw [h.names, List.filterMap_append, List.filterMap_cons_none other, List.filterMap_nil,
    List.append_nil]

theorem not_labelFault {s : Statement} (other : s.labelName? = none) (e : Error) :
    ¬ LabelFault seen s e := by
  intro fault
  cases fault <;> cases other

/-- Looking ahead fails on the first label that has a fault. -/
theorem ahead_eq_error_iff (h : ls.Records seen) {index address : Nat}
    {statements : List Statement} :
    ls.ahead index address statements = .error e ↔
      First (fun before => LabelFault (seen ++ before)) statements e := by
  induction statements generalizing ls seen index address with
  | nil => exact iff_of_false nofun not_first_nil
  | cons s rest ih =>
    -- the faults of the statements after `s` are those after `seen ++ [s]`
    have later : (fun before => LabelFault (seen ++ s :: before)) =
        fun before => LabelFault (seen ++ [s] ++ before) := by
      funext before
      rw [List.append_assoc, List.singleton_append]
    rw [first_cons, later, List.append_nil]
    have passes (other : s.labelName? = none) {index address : Nat} :
        ls.ahead index address rest = .error e ↔ LabelFault seen s e ∨
          (∀ e', ¬ LabelFault seen s e') ∧
            First (fun before => LabelFault (seen ++ [s] ++ before)) rest e := by
      rw [ih (h.pass other), or_iff_right (not_labelFault other e),
        and_iff_right (not_labelFault other)]
    obtain ⟨line, body⟩ := s
    cases body with
    | label name =>
      have split : ls.ahead index address (⟨line, .label name⟩ :: rest) =
          ((ls.define name (targetBefore index address rest)).mapError (.atLine line) >>= fun ls =>
            ls.ahead index address rest) := by
        rw [ahead]
        cases ls.define name (targetBefore index address rest) <;> rfl
      rw [split]
      refine bind_eq_error_iff (fun _ => h.define_eq_error) fun ls' defined => ?_
      exact ih (h.define (mapError_eq_ok.1 defined))
    | data values => exact passes rfl
    | instruction opcode operands => exact passes rfl

/-- Collecting labels fails with the first fault of a label. -/
theorem collect_eq_error_iff {statements : List Statement} :
    collect statements = .error e ↔ First LabelFault statements e := by
  have nothing : ({} : Labels).Records [] := ⟨rfl, by simp [names]⟩
  rw [collect_eq_ahead]
  exact ahead_eq_error_iff nothing

end Labels

/-! ## Statements -/

/-- What can be wrong with a value: it is too wide for a word, signed or as a bit pattern. -/
def WordFault (n : Int) (cause : Cause) : Prop :=
  ¬ (-0x80000000 ≤ n ∧ n ≤ 0xffffffff) ∧ cause = .valueTooWide n

/-- What can be wrong with an instruction or a data statement when labels are known: the operands do
not decode, or a value is too wide, of which the first one counts. -/
inductive DecodeFault (labels : Labels) : Statement → Error → Prop
  | operands {line : Nat} {opcode : Opcode} {operands : List Operand} {cause : Cause}
      (undecoded : decode labels opcode operands = .error cause) :
      DecodeFault labels ⟨line, .instruction opcode operands⟩ (.atLine line cause)
  | value {line : Nat} {values : List Int} {cause : Cause}
      (wide : First (fun _ => WordFault) values cause) :
      DecodeFault labels ⟨line, .data values⟩ (.atLine line cause)

/-- An immediate is refused exactly if it does not fit a word. -/
theorem decodeImmediate_eq_error {n : Int} {cause : Cause} :
    decodeImmediate n = .error cause ↔ WordFault n cause := by
  have range : (-0x80000000 ≤ n ∧ n < 0x100000000) ↔ (-0x80000000 ≤ n ∧ n ≤ 0xffffffff) := by omega
  unfold decodeImmediate Word.ofLiteral? WordFault
  by_cases h : -0x80000000 ≤ n ∧ n ≤ 0xffffffff
  · rw [if_pos (range.2 h)]
    exact iff_of_false nofun fun wide => wide.1 h
  · rw [if_neg fun inside => h (range.1 inside)]
    simp only [h, not_false_eq_true, true_and, Except.error.injEq, eq_comm]

end Assembly

namespace Program

open Assembly Result

variable {source : Source} {statements : List Statement} {labels : Labels} {e : Error}

/-- Laying out words fails on the first value that is too wide. -/
theorem layOut_eq_error_iff {line count : Nat} {values : List Int} {cause : Cause} :
    layOut line count values = .error cause ↔ First (fun _ => WordFault) values cause := by
  induction values generalizing count with
  | nil => exact iff_of_false nofun not_first_nil
  | cons n values ih =>
    rw [layOut, first_cons]
    exact bind_eq_error_iff (fun _ => decodeImmediate_eq_error)
      fun w _ => bind_pure_eq_error.trans ih

/-- Decoding fails on the first statement that has a fault. -/
theorem decodeFrom_eq_error_iff (count : Nat) :
    decodeFrom labels count statements = .error e ↔
      First (fun _ => DecodeFault labels) statements e := by
  induction statements generalizing count with
  | nil => exact iff_of_false nofun not_first_nil
  | cons s rest ih =>
    rw [first_cons]
    obtain ⟨line, body⟩ := s
    cases body with
    | label name =>
      have sound (e : Error) : ¬ DecodeFault labels ⟨line, .label name⟩ e := nofun
      rw [decodeFrom, ih count, or_iff_right (sound e), and_iff_right sound]
    | data values =>
      refine bind_eq_error_iff (fun e => ?_) fun words _ =>
        (bind_pure_eq_error (g := fun d => (d.1, words ++ d.2))).trans (ih _)
      rw [mapError_eq_error]
      constructor
      · rintro ⟨cause, wide, rfl⟩
        exact .value (layOut_eq_error_iff.1 wide)
      · intro fault
        cases fault with
        | value wide => exact ⟨_, layOut_eq_error_iff.2 wide, rfl⟩
    | instruction opcode operands =>
      refine bind_eq_error_iff (fun e => ?_) fun operation _ =>
        (bind_pure_eq_error (g := fun d => (⟨line, operation⟩ :: d.1, d.2))).trans (ih _)
      rw [mapError_eq_error]
      constructor
      · rintro ⟨cause, undecoded, rfl⟩
        exact .operands undecoded
      · intro fault
        cases fault with
        | operands undecoded => exact ⟨_, undecoded, rfl⟩

/-! ## Programs -/

/-- What can be wrong with a numbered line: it does not parse. -/
def LineFault (line : Nat × String) (e : Error) : Prop := Line.parse line.2 line.1 = .error e

/-- Reading a source fails with the fault of its first faulty line. -/
theorem parse_eq_error_iff :
    parse source = .error e ↔ First (fun _ => LineFault) source.numbered e := by
  rw [parse, map_eq_error]
  exact mapM_eq_error_iff

/-- A fault of a label comes before any fault of an operand. -/
theorem ofStatements_of_labelFault (faulty : Faulty LabelFault statements) :
    ∃ before s e, FirstAt LabelFault statements before s e ∧
      ofStatements statements = .error e := by
  obtain ⟨before, s, e, first, failed⟩ :=
    exists_firstAt (fun _ => Labels.collect_eq_error_iff) faulty
  exact ⟨before, s, e, first, by rw [ofStatements, failed]; rfl⟩

/-- Once the labels are collected, the first fault of an operand is reported. -/
theorem ofStatements_of_decodeFault (collected : Labels.collect statements = .ok labels)
    (faulty : Faulty (fun _ => DecodeFault labels) statements) :
    ∃ before s e, FirstAt (fun _ => DecodeFault labels) statements before s e ∧
      ofStatements statements = .error e := by
  obtain ⟨before, s, e, first, failed⟩ :=
    exists_firstAt (fun _ => decodeFrom_eq_error_iff 0) faulty
  refine ⟨before, s, e, first, ?_⟩
  exact bind_eq_error.2 (.inr ⟨labels, collected, bind_eq_error.2 (.inl failed)⟩)

/-- Statements without faults make up a program, unless none of them is an instruction. -/
theorem ofStatements_of_sound (collected : Labels.collect statements = .ok labels)
    (sound : ¬ Faulty (fun _ => DecodeFault labels) statements) :
    (∀ s ∈ statements, s.isInstruction = false) ∧ ofStatements statements = .error .emptyProgram ∨
      (∃ s ∈ statements, s.isInstruction = true) ∧ ∃ p, ofStatements statements = .ok p := by
  obtain ⟨⟨instructions, data⟩, decoded⟩ :=
    exists_ok (fun _ => decodeFrom_eq_error_iff 0) sound
  have length := (decodeFrom_spec decoded).1.length_eq
  have result : ofStatements statements =
      if instructions.isEmpty then .error .emptyProgram
      else .ok { instructions := instructions.toArray, labels, data } := by
    simp only [ofStatements, collected, decoded, bind, Except.bind]
    split <;> rfl
  cases instructions with
  | nil =>
    have none := List.filter_eq_nil_iff.1 (List.eq_nil_of_length_eq_zero length)
    exact .inl ⟨fun s mem => Bool.eq_false_iff.2 (none s mem), result⟩
  | cons i instructions =>
    have pos : 0 < (statements.filter Statement.isInstruction).length := by
      rw [length]
      exact Nat.zero_lt_succ _
    obtain ⟨s, mem⟩ := List.exists_mem_of_length_pos pos
    exact .inr ⟨⟨s, List.mem_filter.1 mem⟩, _, result⟩

/-- The first fault of the earliest pass is the one reported. If a line does not parse, it is the
error of the first such line; if not, and a label is named like a register or like a label before
it, the error is that of the first such label, of its kind and on its line; if not, and an
instruction does not decode or a data value is too wide, the error is that of the first such
statement; if not, only that there is no instruction at all is an error. -/
theorem first_fault_reported (source : Source) :
    ((∃ line ∈ source.numbered, ∃ e, LineFault line e) →
      ∃ before line e, FirstAt (fun _ => LineFault) source.numbered before line e ∧
        assemble source = .error e) ∧
    ((∀ line ∈ source.numbered, ∀ e, ¬ LineFault line e) →
      ∃ groups, Grouped source.numbered groups ∧
        (Faulty LabelFault groups.flatten →
          ∃ before s e, FirstAt LabelFault groups.flatten before s e ∧ assemble source = .error e ∧
            ∃ name, s.body = .label name ∧ e.line? = some s.line ∧
              (NamesRegister name ∧ e.kind = .parse ∨
                ¬ NamesRegister name ∧ e.kind = .duplicateLabel ∧
                  ∃ line, ⟨line, .label name⟩ ∈ before)) ∧
        (¬ Faulty LabelFault groups.flatten →
          ∃ labels, Labels.collect groups.flatten = .ok labels ∧
            ((∃ s ∈ groups.flatten, ∃ e, DecodeFault labels s e) →
              ∃ before s e, FirstAt (fun _ => DecodeFault labels) groups.flatten before s e ∧
                assemble source = .error e) ∧
            ((∀ s ∈ groups.flatten, ∀ e, ¬ DecodeFault labels s e) →
              (assemble source = .error .emptyProgram ↔
                ∀ s ∈ groups.flatten, s.isInstruction = false) ∧
              ((∃ s ∈ groups.flatten, s.isInstruction = true) →
                ∃ p, assemble source = .ok p)))) := by
  constructor
  · intro faulty
    obtain ⟨before, line, e, first, unparsed⟩ :=
      exists_firstAt (fun _ => parse_eq_error_iff) (faulty_iff_exists_mem.2 faulty)
    exact ⟨before, line, e, first, by rw [assemble, unparsed]; rfl⟩
  · intro sound
    have sound : ¬ Faulty (fun _ => LineFault) source.numbered := by
      rw [faulty_iff_exists_mem]
      exact fun ⟨line, mem, e, fault⟩ => sound line mem e fault
    obtain ⟨statements, parsed⟩ := exists_ok (fun _ => parse_eq_error_iff) sound
    have assembled : assemble source = ofStatements statements := by
      rw [assemble, parsed]
      rfl
    obtain ⟨groups, grouped, rfl⟩ := grouped_of_parse parsed
    refine ⟨groups, grouped, ?_, ?_⟩
    · intro faulty
      obtain ⟨before, s, e, first, failed⟩ := ofStatements_of_labelFault faulty
      exact ⟨before, s, e, first, assembled.trans failed, first.kind_cases⟩
    · intro sound
      obtain ⟨labels, collected⟩ := exists_ok (fun _ => Labels.collect_eq_error_iff) sound
      refine ⟨labels, collected, ?_, ?_⟩
      · intro faulty
        obtain ⟨before, s, e, first, failed⟩ :=
          ofStatements_of_decodeFault collected (faulty_iff_exists_mem.2 faulty)
        exact ⟨before, s, e, first, assembled.trans failed⟩
      · intro sound
        have sound : ¬ Faulty (fun _ => DecodeFault labels) groups.flatten := by
          rw [faulty_iff_exists_mem]
          exact fun ⟨s, mem, e, fault⟩ => sound s mem e fault
        rw [assembled]
        rcases ofStatements_of_sound collected sound with
          ⟨none, failed⟩ | ⟨⟨s, mem, instruction⟩, p, made⟩
        · refine ⟨iff_of_true failed none, ?_⟩
          rintro ⟨s, mem, instruction⟩
          exact absurd instruction (Bool.eq_false_iff.1 (none s mem))
        · refine ⟨iff_of_false ?_ ?_, fun _ => ⟨p, made⟩⟩
          · rw [made]
            exact nofun
          · exact fun none => Bool.eq_false_iff.1 (none s mem) instruction

/-- A jump to nowhere on line 1, then a label that is repeated before a value that is too wide, then
one that is named like a register. -/
theorem first_fault_reported_label :
    ∃ source, source = .ofText "jmp nowhere\nl: nop\nl: dw 5000000000\nax: hlt" ∧
      (∀ line ∈ source.numbered, ∀ e, ¬ LineFault line e) ∧
      ∃ groups, Grouped source.numbered groups ∧ Faulty LabelFault groups.flatten ∧
        ∃ before s e, FirstAt LabelFault groups.flatten before s e ∧ assemble source = .error e ∧
          e = .atLine 3 (.duplicateLabel "l") := by
  let source : Source := .ofText "jmp nowhere\nl: nop\nl: dw 5000000000\nax: hlt"
  let before : List Statement :=
    [⟨1, .instruction (.jump none) [.symbol "nowhere"]⟩, ⟨2, .label "l"⟩, ⟨2, .instruction .nop []⟩]
  let after : List Statement :=
    [⟨3, .data [5000000000]⟩, ⟨4, .label "ax"⟩, ⟨4, .instruction .hlt []⟩]
  have parsed : parse source = .ok (before ++ ⟨3, .label "l"⟩ :: after) := by decide +kernel
  have reported : assemble source = .error (.atLine 3 (.duplicateLabel "l")) := by decide +kernel
  have sound : ∀ line ∈ source.numbered, ∀ e, ¬ LineFault line e := by
    intro line mem e fault
    obtain ⟨-, -, e', -, unparsed⟩ := exists_firstAt (fun _ => parse_eq_error_iff)
      (faulty_iff_exists_mem.2 ⟨line, mem, e, fault⟩)
    cases parsed.symm.trans unparsed
  obtain ⟨groups, grouped, first, -⟩ := (first_fault_reported source).2 sound
  have same : before ++ ⟨3, .label "l"⟩ :: after = groups.flatten :=
    Except.ok.inj (parsed.symm.trans (map_eq_ok.2 ⟨groups, mapM_eq_ok.2 grouped, rfl⟩))
  have faulty : Faulty LabelFault groups.flatten := by
    rw [← same]
    have earlier : ⟨2, .label "l"⟩ ∈ before := List.mem_cons_of_mem _ List.mem_cons_self
    exact ⟨before, ⟨3, .label "l"⟩, _, by simp, .repeated earlier⟩
  obtain ⟨before', s, e, firstAt, failed, -⟩ := first faulty
  exact ⟨source, rfl, sound, groups, grouped, faulty, before', s, e, firstAt, failed,
    Except.error.inj (failed.symm.trans reported)⟩

end Program

end AsmTrace
