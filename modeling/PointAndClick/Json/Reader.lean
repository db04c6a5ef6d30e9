import PointAndClick.Json.Basic
import PointAndClick.Number.Binary64

/-!
# Reading JSON

`Json.parse?` reads one value with white space around it. Integers are read exactly, other
numbers are rounded to double precision.
-/

set_option autoImplicit false

namespace PointAndClick.Json

/-- The white space between tokens. -/
def isSpace (c : Char) : Bool :=
  c == ' ' || c == '\t' || c == '\n' || c == '\r'

/-- Passes over white space. -/
def skipSpace (cs : List Char) : List Char :=
  cs.dropWhile isSpace

/-! ## Texts -/

/-- The value of a hexadecimal digit. -/
def hexDigit? (c : Char) : Option Nat :=
  let n := c.toNat
  if 0x30 ≤ n && n ≤ 0x39 then some (n - 0x30)
  else if 0x41 ≤ n && n ≤ 0x46 then some (n - 0x41 + 10)
  else if 0x61 ≤ n && n ≤ 0x66 then some (n - 0x61 + 10)
  else none

/-- The number of some hexadecimal digits. -/
def hexNumber? (cs : List Char) : Option Nat :=
  cs.foldlM (fun n c => (hexDigit? c).map (n * 16 + ·)) 0

/-- The character of a one-letter escape. -/
def letterEscape? : Char → Option Char
  | '"' => some '"'
  | '\\' => some '\\'
  | '/' => some '/'
  | 'b' => some (Char.ofNat 0x08)
  | 'f' => some (Char.ofNat 0x0C)
  | 'n' => some '\n'
  | 'r' => some '\r'
  | 't' => some '\t'
  | _ => none

/-- Two code units as one character. -/
def joinSurrogates (high low : Nat) : Char :=
  Char.ofNat (0x10000 + (high - 0xD800) * 0x400 + (low - 0xDC00))

/-- The rest of a text up to its closing quote. `done` holds the characters before, last first. -/
def readText (done : List Char) : List Char → Option (String × List Char)
  | [] => none
  | '"' :: cs => some (String.ofList done.reverse, cs)
  | '\\' :: 'u' :: a :: b :: c :: d :: cs =>
      match hexNumber? [a, b, c, d] with
      | none => none
      | some high =>
          match cs with
          | '\\' :: 'u' :: e :: f :: g :: h :: rest =>
              match hexNumber? [e, f, g, h] with
              | none => none
              | some low =>
                  if 0xD800 ≤ high && high < 0xDC00 && 0xDC00 ≤ low && low < 0xE000 then
                    readText (joinSurrogates high low :: done) rest
                  else readText (Char.ofNat high :: done) ('\\' :: 'u' :: e :: f :: g :: h :: rest)
          | cs => readText (Char.ofNat high :: done) cs
  | '\\' :: c :: cs =>
      match letterEscape? c with
      | none => none
      | some d => readText (d :: done) cs
  | c :: cs => readText (c :: done) cs
termination_by cs => cs.length

/-! ## Numbers -/

/-- The number of some decimal digits. -/
def decimalNumber (digits : List Char) : Nat :=
  digits.foldl (fun n c => n * 10 + (c.toNat - 0x30)) 0

/-- The leading decimal digits and what follows them. -/
def spanDigits (cs : List Char) : List Char × List Char :=
  (cs.takeWhile Char.isDigit, cs.dropWhile Char.isDigit)

/-- The exponent of a number: its sign, its digits, and what follows. -/
def readExponent? : List Char → Option (Int × List Char)
  | c :: cs =>
      if c = 'e' || c = 'E' then
        let (negative, cs) := match cs with
          | '-' :: rest => (true, rest)
          | '+' :: rest => (false, rest)
          | rest => (false, rest)
        let (digits, rest) := spanDigits cs
        if digits.isEmpty then none
        else
          let n : Int := decimalNumber digits
          some (if negative then -n else n, rest)
      else none
  | [] => none

/-- A number without its sign. -/
def readUnsigned? (cs : List Char) : Option (Json × List Char) :=
  let (whole, rest) := spanDigits cs
  if whole.isEmpty then none
  else
    let (places, rest, pointed) := match rest with
      | '.' :: tail =>
          let (places, tail) := spanDigits tail
          if places.isEmpty then ([], rest, false) else (places, tail, true)
      | rest => ([], rest, false)
    let mantissa := decimalNumber (whole ++ places)
    match readExponent? rest with
    | some (exponent, rest) =>
        some (.real (Binary64.ofDecimal false mantissa (exponent - places.length)), rest)
    | none =>
        if pointed then some (.real (Binary64.ofDecimal false mantissa (-places.length)), rest)
        else some (.int mantissa, rest)

/-- A number. -/
def readNumber? : List Char → Option (Json × List Char)
  | '-' :: cs =>
      match readUnsigned? cs with
      | some (.int n, rest) => some (.int (-n), rest)
      | some (.real x, rest) => some (.real x.negated, rest)
      | _ => none
  | cs => readUnsigned? cs

/-! ## Values -/

mutual

/-- One value. `fuel` bounds the number of steps, of which a value takes no more than two for each
of its characters. -/
def readValue (fuel : Nat) (cs : List Char) : Option (Json × List Char) :=
  match fuel with
  | 0 => none
  | fuel + 1 =>
      match skipSpace cs with
      | 'n' :: 'u' :: 'l' :: 'l' :: rest => some (.null, rest)
      | 't' :: 'r' :: 'u' :: 'e' :: rest => some (.bool true, rest)
      | 'f' :: 'a' :: 'l' :: 's' :: 'e' :: rest => some (.bool false, rest)
      | '"' :: rest => (readText [] rest).map fun (s, rest) => (.text s, rest)
      | '[' :: rest =>
          match skipSpace rest with
          | ']' :: rest => some (.list [], rest)
          | rest => readItems fuel [] rest
      | '\x7b' :: rest =>
          match skipSpace rest with
          | '\x7d' :: rest => some (.object [], rest)
          | rest => readFields fuel [] rest
      | cs => readNumber? cs

/-- The rest of a list. `done` holds the items before, last first. -/
def readItems (fuel : Nat) (done : List Json) (cs : List Char) : Option (Json × List Char) :=
  match fuel with
  | 0 => none
  | fuel + 1 =>
      match readValue fuel cs with
      | none => none
      | some (item, rest) =>
          match skipSpace rest with
          | ',' :: rest => readItems fuel (item :: done) rest
          | ']' :: rest => some (.list (item :: done).reverse, rest)
          | _ => none

/-- The rest of an object. `done` holds the fields before, last first. -/
def readFields (fuel : Nat) (done : List (String × Json)) (cs : List Char) :
    Option (Json × List Char) :=
  match fuel with
  | 0 => none
  | fuel + 1 =>
      match skipSpace cs with
      | '"' :: rest =>
          match readText [] rest with
          | none => none
          | some (name, rest) =>
              match skipSpace rest with
              | ':' :: rest =>
                  match readValue fuel rest with
                  | none => none
                  | some (value, rest) =>
                      let fields := (name, value) :: done
                      match skipSpace rest with
                      | ',' :: rest => readFields fuel fields rest
                      | '\x7d' :: rest => some (ofFields fields.reverse, rest)
                      | _ => none
              | _ => none
      | _ => none

end

/-- The value that a text holds, white space around it apart. -/
def parse? (s : String) : Option Json :=
  let cs := s.toList
  match readValue (2 * cs.length + 2) cs with
  | some (value, rest) => if (skipSpace rest).isEmpty then some value else none
  | none => none

end PointAndClick.Json
