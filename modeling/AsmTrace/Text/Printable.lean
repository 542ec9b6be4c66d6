import AsmTrace.Text.Blank
import AsmTrace.Text.Extending
import AsmTrace.Text.Hidden

/-!
# Printable characters

A character is printable if it shows something by itself. Hidden characters and fillers show
nothing, and extending marks show only on the character before them.
-/

namespace AsmTrace.Text

/-- The inclusive code point ranges of the letters with the property `Default_Ignorable_Code_Point`:
the fillers of the Hangul alphabets. -/
def fillerRanges : List (Nat × Nat) :=
  [(0x115f, 0x1160), (0x3164, 0x3164), (0xffa0, 0xffa0)]

def isPrintable (c : Char) : Bool :=
  !inRanges hiddenRanges c.toNat && !inRanges extendingRanges c.toNat
    && !inRanges fillerRanges c.toNat

end AsmTrace.Text
