/-!
# Letter case

Mnemonics and register names are compared without regard to the case of ASCII letters; every other
character counts as written.
-/

namespace AsmTrace.Text

/-- The characters of a text with its ASCII letters in upper case. -/
def upper (s : String) : List Char := s.toList.map Char.toUpper

/-- Equality up to the case of ASCII letters. -/
def sameIgnoringCase (a b : String) : Bool := upper a == upper b

/-- Texts are the same up to case exactly if their upper cases are. -/
theorem sameIgnoringCase_iff {a b : String} : sameIgnoringCase a b = true ↔ upper a = upper b := by
  simp [sameIgnoringCase]

/-- Sameness up to case is symmetric. -/
theorem sameIgnoringCase_comm (a b : String) : sameIgnoringCase a b = sameIgnoringCase b a := by
  simp only [sameIgnoringCase, Bool.beq_comm]

end AsmTrace.Text
