import AsmTrace.Config

/-!
# Command-line options

Options are read from left to right, and each value is checked before the next option is looked at.
An option that is not given may come from an environment variable, and otherwise has its default.
-/

namespace AsmTrace

/-- The options that take a value. -/
inductive OptionName where
  | file | stepLimit | memorySize | stackSize | sessionTtl
  deriving DecidableEq, Repr

namespace OptionName

def all : List OptionName := [.file, .stepLimit, .memorySize, .stackSize, .sessionTtl]

/-- An option as it is written, after two hyphens. -/
def text : OptionName → String
  | .file => "file"
  | .stepLimit => "step-limit"
  | .memorySize => "memory-size"
  | .stackSize => "stack-size"
  | .sessionTtl => "session-ttl"

/-- The environment variable that stands in for an option. -/
def environmentName? : OptionName → Option String
  | .file => none
  | .stepLimit => some "MOCKASM_STEP_LIMIT"
  | .memorySize => some "MOCKASM_MEMORY_SIZE"
  | .stackSize => some "MOCKASM_STACK_SIZE"
  | .sessionTtl => some "MOCKASM_SESSION_TTL_SECS"

end OptionName

/-- The options that were given. -/
structure GivenOptions where
  file : Option String := none
  stepLimit : Option Nat := none
  memorySize : Option UInt32 := none
  stackSize : Option Nat := none
  /-- How long a session may be idle, in seconds. -/
  sessionTtl : Option Nat := none
  deriving DecidableEq, Repr

/-- What a command line asks for. -/
inductive Invocation where
  | start (options : GivenOptions)
  | version
  | misuse
  deriving DecidableEq, Repr

namespace Numeral

/-- The value of a decimal numeral. -/
def digits? (cs : List Char) : Option Nat :=
  if cs.isEmpty || !cs.all Char.isDigit then none
  else some (cs.foldl (fun n c => 10 * n + (c.toNat - '0'.toNat)) 0)

/-- A numeral of 64 bits without a sign or with a plus. -/
def unsigned? (s : String) : Option Nat :=
  let digits := match s.toList with
    | '+' :: cs => cs
    | cs => cs
  (digits? digits).filter (· ≤ 0xffffffffffffffff)

/-- A numeral with or without a sign whose value is a number of words. The only value below a minus
is zero. -/
def wordCount? (s : String) : Option UInt32 :=
  let (negative, digits) := match s.toList with
    | '+' :: cs => (false, cs)
    | '-' :: cs => (true, cs)
    | cs => (false, cs)
  match digits? digits with
  | some n => if n < (if negative then 1 else 0x100000000) then some (UInt32.ofNat n) else none
  | none => none

end Numeral

namespace GivenOptions

def has (g : GivenOptions) : OptionName → Bool
  | .file => g.file.isSome
  | .stepLimit => g.stepLimit.isSome
  | .memorySize => g.memorySize.isSome
  | .stackSize => g.stackSize.isSome
  | .sessionTtl => g.sessionTtl.isSome

/-- The options with one set, if the text is a value of it. -/
def set? (g : GivenOptions) (name : OptionName) (text : String) : Option GivenOptions :=
  match name with
  | .file => if text.isEmpty then none else some { g with file := some text }
  | .stepLimit => (Numeral.unsigned? text).map fun n => { g with stepLimit := some n }
  | .memorySize => (Numeral.wordCount? text).map fun n => { g with memorySize := some n }
  | .stackSize => (Numeral.unsigned? text).map fun n => { g with stackSize := some n }
  | .sessionTtl => (Numeral.unsigned? text).map fun n => { g with sessionTtl := some n }

/-- The options with one set that was not given before. -/
def give? (g : GivenOptions) (name : OptionName) (text : String) : Option GivenOptions :=
  if g.has name then none else g.set? name text

/-- The options with those that are missing taken from the environment. -/
def fromEnvironment? (env : String → Option String) (g : GivenOptions) : Option GivenOptions :=
  OptionName.all.foldlM (fun g name =>
    match name.environmentName?.bind env with
    | some text => if g.has name then some g else g.set? name text
    | none => some g) g

def config (g : GivenOptions) : Config :=
  let preset : Config := {}
  { stepLimit := g.stepLimit.getD preset.stepLimit
    memorySize := g.memorySize.getD preset.memorySize
    stackSize := g.stackSize.getD preset.stackSize }

/-- How long a session may be idle, in nanoseconds. -/
def timeToLive (g : GivenOptions) : Nat := g.sessionTtl.getD 1800 * 1000000000

end GivenOptions

/-- How an argument is to be understood. -/
inductive Argument where
  /-- The end of the options. -/
  | endOfOptions
  /-- An option with two hyphens, perhaps with a value after an equals sign. -/
  | long (name : List Char) (value : Option (List Char))
  /-- Options of one letter. -/
  | short (letters : List Char)
  | plain
  deriving DecidableEq, Repr

namespace Argument

def classify (arg : String) : Argument :=
  match arg.toList with
  | ['-', '-'] => .endOfOptions
  | '-' :: '-' :: cs =>
    match cs.dropWhile (· != '=') with
    | '=' :: value => .long (cs.takeWhile (· != '=')) (some value)
    | _ => .long cs none
  | '-' :: c :: cs => .short (c :: cs)
  | _ => .plain

end Argument

namespace Invocation

def findOption? (name : List Char) : Option OptionName :=
  OptionName.all.find? fun o => o.text.toList = name

/-- Understands arguments, after some options. -/
def ofArguments (g : GivenOptions) : List String → Invocation
  | [] => .start g
  | arg :: rest =>
    match Argument.classify arg with
    | .endOfOptions => if rest.isEmpty then .start g else .misuse
    | .plain => .misuse
    | .short letters => if letters.head? = some 'V' then .version else .misuse
    | .long name (some value) =>
      match (findOption? name).bind fun o => g.give? o (String.ofList value) with
      | some g => ofArguments g rest
      | none => .misuse
    | .long name none =>
      if name = "version".toList then .version
      else
        match findOption? name, rest with
        | some o, value :: rest =>
          if Argument.classify value = .plain then
            match g.give? o value with
            | some g => ofArguments g rest
            | none => .misuse
          else .misuse
        | _, _ => .misuse

/-- Understands a command line in an environment. -/
def ofCommandLine (args : List String) (env : String → Option String) : Invocation :=
  match ofArguments {} args with
  | .start g =>
    match g.fromEnvironment? env with
    | some g => .start g
    | none => .misuse
  | other => other

end Invocation

end AsmTrace
