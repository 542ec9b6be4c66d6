import AsmTrace.Text.Caseless
import AsmTrace.Word

/-!
# Registers

`AX` holds the result of a program, `CX` counts loops, `DX` extends `AX` in divisions and `SP` is
the stack pointer.
-/

namespace AsmTrace

inductive Register where
  | ax | bx | cx | dx | si | di | bp | sp
  deriving DecidableEq, Repr

namespace Register

/-- The registers in the order in which they are listed. -/
def all : List Register := [.ax, .bx, .cx, .dx, .si, .di, .bp, .sp]

def name : Register → String
  | .ax => "AX"
  | .bx => "BX"
  | .cx => "CX"
  | .dx => "DX"
  | .si => "SI"
  | .di => "DI"
  | .bp => "BP"
  | .sp => "SP"

/-- The place of a register in `all`. -/
def index (r : Register) : Nat := all.idxOf r

/-- The register of that name, in any letter case. -/
def ofName? (s : String) : Option Register := all.find? fun r => Text.sameIgnoringCase r.name s

/-- The list of registers is complete. -/
theorem mem_all (r : Register) : r ∈ all := by cases r <;> decide

/-- A register is found by its name. -/
@[simp] theorem ofName?_name (r : Register) : ofName? r.name = some r := by cases r <;> decide

end Register

/-- The contents of the registers. -/
structure RegisterFile where
  ax : Word := 0
  bx : Word := 0
  cx : Word := 0
  dx : Word := 0
  si : Word := 0
  di : Word := 0
  bp : Word := 0
  sp : Word := 0
  deriving DecidableEq, Repr

namespace RegisterFile

def get (f : RegisterFile) : Register → Word
  | .ax => f.ax
  | .bx => f.bx
  | .cx => f.cx
  | .dx => f.dx
  | .si => f.si
  | .di => f.di
  | .bp => f.bp
  | .sp => f.sp

def set (f : RegisterFile) (r : Register) (v : Word) : RegisterFile :=
  match r with
  | .ax => { f with ax := v }
  | .bx => { f with bx := v }
  | .cx => { f with cx := v }
  | .dx => { f with dx := v }
  | .si => { f with si := v }
  | .di => { f with di := v }
  | .bp => { f with bp := v }
  | .sp => { f with sp := v }

/-- Reading a register after setting one. -/
theorem get_set (f : RegisterFile) (r s : Register) (v : Word) :
    (f.set r v).get s = if s = r then v else f.get s := by
  cases r <;> cases s <;> rfl

@[simp] theorem get_set_self (f : RegisterFile) (r : Register) (v : Word) :
    (f.set r v).get r = v := by
  simp [get_set]

theorem get_set_of_ne {r s : Register} (h : s ≠ r) (f : RegisterFile) (v : Word) :
    (f.set r v).get s = f.get s := by simp [get_set, h]

/-- Each register with its value, in the order of `Register.all`. -/
def toList (f : RegisterFile) : List (Register × Word) := Register.all.map fun r => (r, f.get r)

end RegisterFile

end AsmTrace
