/-!
# Options on a command line

An argument of two hyphens and a name is a long option; its first value may stand behind an equals
sign. An argument of one hyphen and letters is one short option or several; what stands behind a
letter whose option takes values is the first value. Values are otherwise the arguments that
follow, whatever they look like. Two hyphens alone end the options, and all other arguments are
words.
-/

set_option autoImplicit false

namespace PointAndClick.CommandLine

/-- The options of all commands. -/
inductive Switch
  | verbose
  | version
  | start
  | extended
  | json
  | click
  | output
  | noMaps
deriving DecidableEq, Repr

namespace Switch

/-- The long name of an option. -/
def name : Switch → String
  | verbose => "--verbose"
  | version => "--version"
  | start => "--start-offset"
  | extended => "--extended"
  | json => "--json"
  | click => "--click"
  | output => "--output"
  | noMaps => "--no-maps"

/-- The letter of an option. -/
def letter? : Switch → Option Char
  | verbose => some 'v'
  | output => some 'o'
  | _ => none

/-- How many values an option takes. -/
def arity : Switch → Nat
  | start | output => 1
  | click => 2
  | _ => 0

end Switch

/-- What is wrong with a command line. -/
inductive Misuse
  | unknownOption (name : String)
  | missingValue (s : Switch)
  | unexpectedValue (s : Switch)
  | missingOption (s : Switch)
  | missingCommand
  | unknownCommand (name : String)
  | missingWord (name : String)
  | extraWord (word : String)
  | noNumber (text : String)
  | noFile (name : String)
  | noScene (count : Nat)
deriving DecidableEq, Repr

/-- The wording of what is wrong. -/
def Misuse.message : Misuse → String
  | unknownOption name => "no such option: " ++ name
  | missingValue s => "too few values for the option " ++ s.name
  | unexpectedValue s => "the option " ++ s.name ++ " takes no value"
  | missingOption s => "missing option " ++ s.name
  | missingCommand => "missing command"
  | unknownCommand name => "no such command: " ++ name
  | missingWord name => "missing argument " ++ name
  | extraWord word => "unexpected argument: " ++ word
  | noNumber text => "not a number: " ++ text
  | noFile name => "no such file: " ++ name
  | noScene count => s!"scene must be 1..{count}"

/-- An option with its values. -/
structure Given where
  option : Switch
  values : List String := []
deriving DecidableEq, Repr

/-- The arguments of a command line, sorted into options and words. -/
structure Scanned where
  given : List Given := []
  words : List String := []
deriving DecidableEq, Repr

namespace Scanned

/-- The values of an option; of several times that it is given the last counts. -/
def values? (s : Scanned) (option : Switch) : Option (List String) :=
  (s.given.reverse.find? (·.option = option)).map (·.values)

/-- An option is given. -/
def has (s : Scanned) (option : Switch) : Bool :=
  (s.values? option).isSome

end Scanned

/-! ## Reading an option -/

/-- An option with the first of some arguments as its values. -/
def take (s : Switch) (args : List String) : Except Misuse Given :=
  if args.length < s.arity then .error (.missingValue s) else .ok ⟨s, args.take s.arity⟩

/-- Reads a long option. Gives the number of arguments behind it that are its values. -/
def readLong (allowed : List Switch) (arg : List Char) (rest : List String) :
    Except Misuse (List Given × Nat) :=
  let name := String.ofList (arg.takeWhile (· ≠ '='))
  match allowed.find? (·.name = name) with
  | none => .error (.unknownOption name)
  | some s =>
      match arg.dropWhile (· ≠ '=') with
      | [] => (take s rest).map fun given => ([given], s.arity)
      | _ :: value =>
          if s.arity = 0 then .error (.unexpectedValue s)
          else (take s (String.ofList value :: rest)).map fun given => ([given], s.arity - 1)

/-- Reads short options, given their letters. Gives the number of arguments behind them that are
values. -/
def readShort (allowed : List Switch) (rest : List String) :
    List Char → Except Misuse (List Given × Nat)
  | [] => .ok ([], 0)
  | c :: cs =>
      match allowed.find? (·.letter? = some c) with
      | none => .error (.unknownOption (String.ofList ['-', c]))
      | some s =>
          if s.arity = 0 then
            (readShort allowed rest cs).map fun (given, used) => (⟨s, []⟩ :: given, used)
          else if cs.isEmpty then (take s rest).map fun given => ([given], s.arity)
          else (take s (String.ofList cs :: rest)).map fun given => ([given], s.arity - 1)

/-! ## Sorting arguments -/

/-- Sorts arguments, the first `skip` of which are values. Unless options and words may be mixed,
all arguments from the first word on are words. -/
def scanFrom (allowed : List Switch) (mixed : Bool) : Nat → List String → Except Misuse Scanned
  | _, [] => .ok {}
  | skip + 1, _ :: rest => scanFrom allowed mixed skip rest
  | 0, arg :: rest =>
      match arg.toList with
      | ['-', '-'] => .ok { words := rest }
      | '-' :: c :: cs => do
          let (given, used) ←
            if c = '-' then readLong allowed ('-' :: c :: cs) rest
            else readShort allowed rest (c :: cs)
          let more ← scanFrom allowed mixed used rest
          return { more with given := given ++ more.given }
      | _ =>
          if mixed then
            (scanFrom allowed mixed 0 rest).map fun more => { more with words := arg :: more.words }
          else .ok { words := arg :: rest }

/-- Sorts arguments. -/
def scan (allowed : List Switch) (mixed : Bool) (args : List String) : Except Misuse Scanned :=
  scanFrom allowed mixed 0 args

end PointAndClick.CommandLine
