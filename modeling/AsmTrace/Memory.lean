import AsmTrace.Fault
import AsmTrace.Word

/-!
# Memory

Memory is addressed by words and keeps only the words that were written; every other word in bounds
reads as zero. `Cells` are the written words in ascending order of address.
-/

namespace AsmTrace

/-- `entries` with the word at one address set, in ascending order if they were. -/
def setEntry (a : Nat) (v : Word) : List (Nat × Word) → List (Nat × Word)
  | [] => [(a, v)]
  | (b, w) :: rest =>
    if a < b then (a, v) :: (b, w) :: rest
    else if a = b then (a, v) :: rest
    else (b, w) :: setEntry a v rest

/-- An entry is the new one or was there before. -/
theorem mem_setEntry {a : Nat} {v : Word} {l : List (Nat × Word)} {e : Nat × Word}
    (h : e ∈ setEntry a v l) : e = (a, v) ∨ e ∈ l := by
  fun_induction setEntry a v l <;> grind

/-- Looking up after setting an entry. -/
theorem lookup_setEntry (a b : Nat) (v : Word) (l : List (Nat × Word)) :
    (setEntry a v l).lookup b = if b = a then some v else l.lookup b := by
  fun_induction setEntry a v l <;> grind

/-- Setting an entry keeps the addresses in order. -/
theorem pairwise_setEntry {a : Nat} {v : Word} {l : List (Nat × Word)}
    (h : l.Pairwise (·.1 < ·.1)) : (setEntry a v l).Pairwise (·.1 < ·.1) := by
  induction l with
  | nil => simp [setEntry]
  | cons e rest ih =>
    obtain ⟨b, w⟩ := e
    rw [List.pairwise_cons] at h
    simp only [setEntry]
    split
    · next lt =>
      refine List.pairwise_cons.2 ⟨fun e he => ?_, List.pairwise_cons.2 h⟩
      rcases List.mem_cons.1 he with rfl | he
      · exact lt
      · exact Nat.lt_trans lt (h.1 e he)
    · split
      · next eq => exact List.pairwise_cons.2 ⟨fun e he => by simpa [eq] using h.1 e he, h.2⟩
      · next nlt ne =>
        refine List.pairwise_cons.2 ⟨fun e he => ?_, ih h.2⟩
        rcases mem_setEntry he with rfl | he
        · simp only; omega
        · exact h.1 e he

/-- Words by ascending address. -/
structure Cells where
  entries : List (Nat × Word) := []
  ascending : entries.Pairwise (·.1 < ·.1) := by exact List.Pairwise.nil
  deriving DecidableEq, Repr

namespace Cells

def get? (c : Cells) (a : Nat) : Option Word := c.entries.lookup a

def insert (c : Cells) (a : Nat) (v : Word) : Cells :=
  ⟨setEntry a v c.entries, pairwise_setEntry c.ascending⟩

@[simp] theorem get?_empty (a : Nat) : ({} : Cells).get? a = none := rfl

@[simp] theorem get?_insert (c : Cells) (a b : Nat) (v : Word) :
    (c.insert a v).get? b = if b = a then some v else c.get? b :=
  lookup_setEntry a b v c.entries

end Cells

structure Memory where
  /-- How many words there are. -/
  size : UInt32
  cells : Cells := {}
  deriving DecidableEq, Repr

namespace Memory

/-- Whether an address is one of the memory's. -/
def InBounds (m : Memory) (address : Int) : Prop := 0 ≤ address ∧ address < m.size.toNat

instance (m : Memory) (address : Int) : Decidable (m.InBounds address) :=
  inferInstanceAs (Decidable (_ ∧ _))

def read (m : Memory) (address : Int) : Except Fault Word :=
  if m.InBounds address then .ok ((m.cells.get? address.toNat).getD 0)
  else .error (.outOfBounds address m.size)

def write (m : Memory) (address : Int) (v : Word) : Except Fault Memory :=
  if m.InBounds address then .ok { m with cells := m.cells.insert address.toNat v }
  else .error (.outOfBounds address m.size)

end Memory

end AsmTrace
