import AsmTrace.Assembly.Error

/-!
# Labels

A label names the next instruction or the next data word after it; after the last of them it names
the end of the program. Labels are collected before any instruction is decoded, so that they can be
used before they are defined.
-/

namespace AsmTrace.Assembly

/-- What a label names. -/
inductive LabelTarget where
  /-- The index of an instruction, or one past the last. -/
  | code (index : Nat)
  /-- The address of a data word. -/
  | data (address : Nat)
  deriving DecidableEq, Repr

/-- The labels of a program with what they name, in the order of their definitions. -/
structure Labels where
  entries : List (String × LabelTarget) := []
  deriving DecidableEq, Repr

namespace Labels

def find? (ls : Labels) (name : String) : Option LabelTarget := ls.entries.lookup name

/-- The labels in ascending order of their names. -/
def sorted (ls : Labels) : List (String × LabelTarget) :=
  ls.entries.mergeSort fun a b => decide (a.1 ≤ b.1)

/-- The labels with one more. A label is neither named like a register nor defined twice. -/
def define (ls : Labels) (name : String) (target : LabelTarget) : Except Cause Labels :=
  if (Register.ofName? name).isSome then .error (.labelIsRegister name)
  else if (ls.find? name).isSome then .error (.duplicateLabel name)
  else .ok ⟨ls.entries ++ [(name, target)]⟩

/-- The labels with some that all name the same, each given with the line it stands on. -/
def bind (ls : Labels) (target : LabelTarget) : List (Nat × String) → Except Error Labels
  | [] => .ok ls
  | (line, name) :: rest =>
    match ls.define name target with
    | .ok ls => ls.bind target rest
    | .error cause => .error (.atLine line cause)

/-- The address that follows `count` words at an address. Addresses have 32 bits and do not wrap. -/
def addressAfter (address count : Nat) : Nat := min (address + count % 0x100000000) 0xffffffff

/-- The labels with those of some statements, after `index` instructions and the data words below
`address`. The labels in `waiting` are read but what they name is not. -/
def collectFrom (ls : Labels) (waiting : List (Nat × String)) (index address : Nat) :
    List Statement → Except Error Labels
  | [] => ls.bind (.code index) waiting
  | ⟨line, .label name⟩ :: rest => ls.collectFrom (waiting ++ [(line, name)]) index address rest
  | ⟨_, .data values⟩ :: rest =>
    match ls.bind (.data address) waiting with
    | .ok ls => ls.collectFrom [] index (addressAfter address values.length) rest
    | .error e => .error e
  | ⟨_, .instruction ..⟩ :: rest =>
    match ls.bind (.code index) waiting with
    | .ok ls => ls.collectFrom [] (index + 1) address rest
    | .error e => .error e

/-- The labels of some statements. -/
def collect (statements : List Statement) : Except Error Labels :=
  ({} : Labels).collectFrom [] 0 0 statements

end Labels

end AsmTrace.Assembly
