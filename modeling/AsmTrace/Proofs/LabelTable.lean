import AsmTrace.Assembly.Labels
import AsmTrace.Proofs.Results

/-!
# Label tables

Labels are collected in one pass, in which a label waits until the statement that it names is
reached. Looking ahead for that statement gives the same table and the same errors, and says what
each entry is without the labels that wait (`collect_eq_ahead`).
-/

namespace AsmTrace.Assembly

namespace Labels

variable {ls : Labels}

/-! ## Looking ahead -/

/-- What a label names that stands before some statements, after `index` instructions and the data
words below `address`. -/
def targetBefore (index address : Nat) : List Statement → LabelTarget
  | [] => .code index
  | ⟨_, .label _⟩ :: rest => targetBefore index address rest
  | ⟨_, .data _⟩ :: _ => .data address
  | ⟨_, .instruction ..⟩ :: _ => .code index

/-- The labels with those of some statements, where no label waits. -/
def ahead (ls : Labels) (index address : Nat) : List Statement → Except Error Labels
  | [] => .ok ls
  | ⟨line, .label name⟩ :: rest =>
    match ls.define name (targetBefore index address rest) with
    | .ok ls => ls.ahead index address rest
    | .error cause => .error (.atLine line cause)
  | ⟨_, .data values⟩ :: rest => ls.ahead index (addressAfter address values.length) rest
  | ⟨_, .instruction ..⟩ :: rest => ls.ahead (index + 1) address rest

/-- Labels may be bound in two parts. -/
theorem bind_append (ls : Labels) (target : LabelTarget) (xs ys : List (Nat × String)) :
    ls.bind target (xs ++ ys) = ls.bind target xs >>= fun ls => ls.bind target ys := by
  induction xs generalizing ls with
  | nil => rfl
  | cons x xs ih =>
    obtain ⟨line, name⟩ := x
    simp only [List.cons_append, bind]
    cases ls.define name target with
    | error cause => rfl
    | ok ls' => exact ih ls'

/-- The labels that wait are bound to what is ahead. -/
theorem collectFrom_eq_ahead (ls : Labels) (waiting : List (Nat × String)) (index address : Nat)
    (statements : List Statement) :
    ls.collectFrom waiting index address statements =
      ls.bind (targetBefore index address statements) waiting >>= fun ls =>
        ls.ahead index address statements := by
  induction statements generalizing ls waiting index address with
  | nil =>
    simp only [collectFrom, targetBefore, ahead]
    cases ls.bind (.code index) waiting <;> rfl
  | cons s rest ih =>
    obtain ⟨line, body⟩ := s
    cases body with
    | label name =>
      simp only [collectFrom, targetBefore, ahead]
      rw [ih, bind_append]
      cases ls.bind (targetBefore index address rest) waiting with
      | error e => rfl
      | ok ls' =>
        change ls'.bind _ [(line, name)] >>= _ =
          match ls'.define name _ with | .ok _ => _ | .error _ => _
        rw [bind]
        cases ls'.define name (targetBefore index address rest) <;> rfl
    | data values =>
      simp only [collectFrom, targetBefore, ahead]
      cases ls.bind (.data address) waiting with
      | error e => rfl
      | ok ls' => exact ih ls' [] index (addressAfter address values.length)
    | instruction opcode operands =>
      simp only [collectFrom, targetBefore, ahead]
      cases ls.bind (.code index) waiting with
      | error e => rfl
      | ok ls' => exact ih ls' [] (index + 1) address

/-- Collecting labels is going ahead from the start with an empty table. -/
theorem collect_eq_ahead (statements : List Statement) :
    collect statements = ({} : Labels).ahead 0 0 statements :=
  collectFrom_eq_ahead {} [] 0 0 statements

/-! ## Entries -/

/-- The labels of some statements with what they name. -/
def table (index address : Nat) : List Statement → List (String × LabelTarget)
  | [] => []
  | ⟨_, .label name⟩ :: rest =>
    (name, targetBefore index address rest) :: table index address rest
  | ⟨_, .data values⟩ :: rest => table index (addressAfter address values.length) rest
  | ⟨_, .instruction ..⟩ :: rest => table (index + 1) address rest

/-- The names in a list of labels. -/
def names (ls : Labels) : List String := ls.entries.map Prod.fst

/-- A label can be defined if it names no register and is new, and is then the last entry. -/
theorem define_eq_ok {name : String} {target : LabelTarget} {ls' : Labels} :
    ls.define name target = .ok ls' ↔ Register.ofName? name = none ∧ ls.find? name = none ∧
      ls' = ⟨ls.entries ++ [(name, target)]⟩ := by
  unfold define
  cases Register.ofName? name <;> cases ls.find? name <;> simp [eq_comm]

/-- A label is not found exactly if it is not among the names. -/
theorem find?_eq_none_iff {name : String} : ls.find? name = none ↔ name ∉ ls.names := by
  rw [find?, List.lookup_eq_none_iff, names, List.mem_map]
  constructor
  · rintro other ⟨entry, mem, rfl⟩
    exact bne_iff_ne.1 (other entry mem) rfl
  · intro absent entry mem
    exact bne_iff_ne.2 fun same => absent ⟨entry, mem, same.symm⟩

/-- Names that are defined once are found by any of their entries. -/
theorem find?_eq_some_of_mem (distinct : ls.names.Nodup) {name : String} {target : LabelTarget}
    (mem : (name, target) ∈ ls.entries) : ls.find? name = some target :=
  Result.lookup_eq_some_of_mem distinct mem

/-- What is found is an entry. -/
theorem mem_of_find?_eq_some {name : String} {target : LabelTarget}
    (h : ls.find? name = some target) : (name, target) ∈ ls.entries :=
  Result.mem_of_lookup_eq_some h

/-- Defining a label keeps the names distinct. -/
theorem define_names_nodup {name : String} {target : LabelTarget} {ls' : Labels}
    (h : ls.define name target = .ok ls') (distinct : ls.names.Nodup) : ls'.names.Nodup := by
  obtain ⟨-, new, rfl⟩ := define_eq_ok.1 h
  rw [find?_eq_none_iff] at new
  rw [names, List.map_append, List.map_singleton, List.nodup_append]
  refine ⟨distinct, List.pairwise_singleton _ _, ?_⟩
  rintro a ha b hb rfl
  have same : a = name := List.mem_singleton.1 hb
  exact new (same ▸ ha)

/-- The entries of a table are the labels of the statements, in their order. -/
theorem entries_of_ahead {index address : Nat} {statements : List Statement} {ls' : Labels}
    (h : ls.ahead index address statements = .ok ls') :
    ls'.entries = ls.entries ++ table index address statements ∧
      (ls.names.Nodup → ls'.names.Nodup) := by
  induction statements generalizing ls index address with
  | nil =>
    cases h
    exact ⟨(List.append_nil _).symm, id⟩
  | cons s rest ih =>
    obtain ⟨line, body⟩ := s
    cases body with
    | label name =>
      rw [ahead] at h
      cases defined : ls.define name (targetBefore index address rest) with
      | error cause => simp [defined] at h
      | ok ls₁ =>
        rw [defined] at h
        obtain ⟨entries, nodup⟩ := ih h
        refine ⟨?_, nodup ∘ define_names_nodup defined⟩
        obtain ⟨-, -, rfl⟩ := define_eq_ok.1 defined
        rw [entries, table, List.append_assoc, List.singleton_append]
    | data values => exact ih h
    | instruction opcode operands => exact ih h

end Labels

end AsmTrace.Assembly
