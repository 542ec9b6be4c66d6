import AsmTrace.Json.Number

/-!
# Reading JSON

Values are read from left to right and a fault is reported where it is met. Only the shape of a
value is kept. Nesting is bounded; every other bound is one on the length of the text.
-/

namespace AsmTrace.Json

def isSpace (c : Char) : Bool := c == ' ' || c == '\n' || c == '\t' || c == '\r'

def skipSpace (cs : List Char) : List Char := cs.dropWhile isSpace

/-- The rest of a word such as `null`. -/
def readWord : List Char → List Char → Except Fault (List Char)
  | [], cs => .ok cs
  | _ :: _, [] => .error ⟨.endInValue, .behind []⟩
  | e :: es, c :: cs => if c = e then readWord es cs else .error ⟨.expectedWord, .behind cs⟩

def hexValue? (c : Char) : Option Nat :=
  if c.isDigit then some (c.toNat - '0'.toNat)
  else if 'a' ≤ c ∧ c ≤ 'f' then some (c.toNat - 'a'.toNat + 10)
  else if 'A' ≤ c ∧ c ≤ 'F' then some (c.toNat - 'A'.toNat + 10)
  else none

/-- Four hexadecimal digits, for which the text has to hold four more bytes. -/
def readHex (cs : List Char) : Except Fault (Nat × List Char) :=
  if byteLength cs < 4 then .error ⟨.endInString, .behind []⟩
  else
    match (cs.take 4).mapM hexValue? with
    | some ds => .ok (ds.foldl (fun n d => 16 * n + d) 0, cs.drop 4)
    | none => .error ⟨.invalidEscape, .behind (cs.drop 4)⟩

def isHighSurrogate (n : Nat) : Bool := 0xd800 ≤ n && n ≤ 0xdbff

def isLowSurrogate (n : Nat) : Bool := 0xdc00 ≤ n && n ≤ 0xdfff

/-- The second half of a pair of surrogates, of which `high` is the first. -/
def readLowSurrogate (high : Nat) (cs : List Char) : Except Fault (Char × List Char) := do
  match cs with
  | [] | ['\\'] => throw ⟨.endInString, .behind []⟩
  | '\\' :: 'u' :: rest =>
    let (low, rest) ← readHex rest
    if isLowSurrogate low then
      return (Char.ofNat (0x10000 + 0x400 * (high - 0xd800) + (low - 0xdc00)), rest)
    else throw ⟨.loneSurrogate, .behind rest⟩
  | '\\' :: _ :: rest | _ :: rest => throw ⟨.endOfHexEscape, .behind rest⟩

/-- The character of a hexadecimal escape. -/
def readHexEscape (cs : List Char) : Except Fault (Char × List Char) := do
  let (n, rest) ← readHex cs
  if isLowSurrogate n then throw ⟨.loneSurrogate, .behind rest⟩
  else if isHighSurrogate n then readLowSurrogate n rest
  else return (Char.ofNat n, rest)

/-- The character that an escape stands for, after its backslash. -/
def readEscape : List Char → Except Fault (Char × List Char)
  | [] => .error ⟨.endInString, .behind []⟩
  | c :: rest =>
    match c with
    | '"' | '\\' | '/' => .ok (c, rest)
    | 'b' => .ok ('\x08', rest)
    | 'f' => .ok ('\x0c', rest)
    | 'n' => .ok ('\n', rest)
    | 'r' => .ok ('\r', rest)
    | 't' => .ok ('\t', rest)
    | 'u' => readHexEscape rest
    | _ => .error ⟨.invalidEscape, .behind rest⟩

/-- A string after its opening quote; `rev` are its characters so far, last one first. -/
def readString : Nat → List Char → List Char → Except Fault (String × List Char)
  | 0, _, _ | _ + 1, _, [] => .error ⟨.endInString, .behind []⟩
  | bound + 1, rev, c :: cs =>
    if c = '"' then .ok (String.ofList rev.reverse, cs)
    else if c = '\\' then
      match readEscape cs with
      | .ok (c, rest) => readString bound (c :: rev) rest
      | .error fault => .error fault
    else if c.toNat < 0x20 then .error ⟨.controlCharacter, .behind cs⟩
    else readString bound (c :: rev) cs

/-- A value that is neither a list nor an object. -/
def readScalar (cs : List Char) : Except Fault (Shape × List Char) :=
  match cs with
  | 'n' :: rest => (readWord ['u', 'l', 'l'] rest).map fun rest => (.null, rest)
  | 't' :: rest => (readWord ['r', 'u', 'e'] rest).map fun rest => (.bool true, rest)
  | 'f' :: rest => (readWord ['a', 'l', 's', 'e'] rest).map fun rest => (.bool false, rest)
  | '"' :: rest =>
    (readString (rest.length + 1) [] rest).map fun (s, rest) => (.string s, rest)
  | '-' :: rest => readNumber true rest
  | c :: _ => if c.isDigit then readNumber false cs else .error ⟨.expectedValue, .ahead cs⟩
  | [] => .error ⟨.endInValue, .ahead []⟩

/-- The start of the next item of a list, or nothing before the closing bracket. -/
def nextItem (first : Bool) (cs : List Char) : Except Fault (Option (List Char)) :=
  match skipSpace cs with
  | [] => .error ⟨.endInList, .ahead []⟩
  | ']' :: _ => .ok none
  | c :: rest =>
    if first then .ok (some (c :: rest))
    else if c = ',' then
      match skipSpace rest with
      | [] => .error ⟨.endInValue, .ahead []⟩
      | ']' :: rest => .error ⟨.trailingComma, .ahead (']' :: rest)⟩
      | rest => .ok (some rest)
    else .error ⟨.expectedListEnd, .ahead (c :: rest)⟩

/-- What may stand where a key starts. -/
def keyStart (cs : List Char) : Except Fault (Option (List Char)) :=
  match cs with
  | [] => .error ⟨.endInValue, .ahead []⟩
  | '"' :: rest => .ok (some rest)
  | '\x7d' :: rest => .error ⟨.trailingComma, .ahead ('\x7d' :: rest)⟩
  | cs => .error ⟨.keyNotString, .ahead cs⟩

/-- The text after the opening quote of the next key of an object, or nothing before the closing
brace. -/
def nextKey (first : Bool) (cs : List Char) : Except Fault (Option (List Char)) :=
  match skipSpace cs with
  | [] => .error ⟨.endInObject, .ahead []⟩
  | '\x7d' :: _ => .ok none
  | c :: rest =>
    if first then keyStart (c :: rest)
    else if c = ',' then keyStart (skipSpace rest)
    else .error ⟨.expectedObjectEnd, .ahead (c :: rest)⟩

/-- The colon after a key. -/
def readColon (cs : List Char) : Except Fault (List Char) :=
  match skipSpace cs with
  | ':' :: rest => .ok rest
  | [] => .error ⟨.endInObject, .ahead []⟩
  | cs => .error ⟨.expectedColon, .ahead cs⟩

mutual

/-- A value at a depth, which counts down to zero. -/
def readValue : Nat → Nat → List Char → Except Fault (Shape × List Char)
  | 0, _, _ => .error ⟨.endInValue, .ahead []⟩
  | bound + 1, depth, cs =>
    match skipSpace cs with
    | '[' :: rest =>
      if depth ≤ 1 then .error ⟨.tooDeep, .ahead ('[' :: rest)⟩
      else (readItems bound (depth - 1) true rest).map fun (_, rest) => (.sequence, rest)
    | '\x7b' :: rest =>
      if depth ≤ 1 then .error ⟨.tooDeep, .ahead ('\x7b' :: rest)⟩
      else (readFields bound (depth - 1) true rest).map fun rest => (.map, rest)
    | cs => readScalar cs

/-- The items of a list, and what follows its closing bracket. -/
def readItems : Nat → Nat → Bool → List Char → Except Fault (List Shape × List Char)
  | 0, _, _, _ => .error ⟨.endInList, .ahead []⟩
  | bound + 1, depth, first, cs =>
    match nextItem first cs with
    | .error fault => .error fault
    | .ok none => .ok ([], (skipSpace cs).drop 1)
    | .ok (some cs) =>
      match readValue bound depth cs with
      | .error fault => .error fault
      | .ok (item, rest) =>
        (readItems bound depth false rest).map fun (items, rest) => (item :: items, rest)

/-- The fields of an object, of which nothing is kept, and what follows its closing brace. -/
def readFields : Nat → Nat → Bool → List Char → Except Fault (List Char)
  | 0, _, _, _ => .error ⟨.endInObject, .ahead []⟩
  | bound + 1, depth, first, cs =>
    match nextKey first cs with
    | .error fault => .error fault
    | .ok none => .ok ((skipSpace cs).drop 1)
    | .ok (some cs) => do
      let (_, rest) ← readString (cs.length + 1) [] cs
      let rest ← readColon rest
      let (_, rest) ← readValue bound depth rest
      readFields bound depth false rest

end

/-- The deepest nesting that is read, counting the outermost value. -/
def maxDepth : Nat := 128

end AsmTrace.Json
