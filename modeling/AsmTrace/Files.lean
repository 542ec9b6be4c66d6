/-!
# Files

Where source texts are read from. `Files` is what a path leads to; a `Directory` is one held in
memory, whose subdirectories are empty.
-/

namespace AsmTrace

/-- Why a path cannot be read. -/
inductive ReadFailure where
  | nulInName
  | nameTooLong
  | notADirectory
  | missing
  | isADirectory
  | notUtf8
  /-- Any other reason, in words. -/
  | other (reason : String)
  deriving DecidableEq, Repr

namespace ReadFailure

def message : ReadFailure → String
  | .nulInName => "file name contained an unexpected NUL byte"
  | .nameTooLong => "File name too long (os error 36)"
  | .notADirectory => "Not a directory (os error 20)"
  | .missing => "No such file or directory (os error 2)"
  | .isADirectory => "Is a directory (os error 21)"
  | .notUtf8 => "stream did not contain valid UTF-8"
  | .other reason => reason

end ReadFailure

/-- The contents that paths lead to. -/
abbrev Files := String → Except ReadFailure ByteArray

inductive DirectoryEntry where
  | file (content : ByteArray)
  | directory

structure Directory where
  entries : List (String × DirectoryEntry) := []

namespace Directory

/-- Where a walk along a path has come to. -/
inductive Place where
  | top
  | empty
  | file (content : ByteArray)

/-- One step along a path. -/
def enter (d : Directory) (name : String) : Place → Except ReadFailure Place
  | .file _ => .error .notADirectory
  | .empty => if name = "" ∨ name = "." ∨ name = ".." then .ok .empty else .error .missing
  | .top =>
    if name = "" ∨ name = "." then .ok .top
    else if name = ".." then .ok .empty
    else
      match d.entries.lookup name with
      | some (.file content) => .ok (.file content)
      | some .directory => .ok .empty
      | none => .error .missing

/-- The longest name, in bytes. -/
def maxNameLength : Nat := 255

def read (d : Directory) : Files := fun path => do
  let names := path.splitOn "/"
  if path.toList.contains '\x00' then throw .nulInName
  if names.any fun name => maxNameLength < name.utf8ByteSize then throw .nameTooLong
  match ← names.foldlM (fun place name => d.enter name place) .top with
  | .file content => return content
  | .top | .empty => throw .isADirectory

end Directory

end AsmTrace
