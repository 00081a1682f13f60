import SparkTuner.Json.Basic
import SparkTuner.Number.Numeral
import SparkTuner.Text.Cut

/-!
# JSON tokens

A text is cut into marks, words, numbers and strings by one walk over its characters. Words and
numbers are the longest runs of their characters; what they say is decided afterwards.
-/

namespace SparkTuner.Json

open Number Text

/-- A piece of a JSON text. -/
inductive Token where
  | openArray
  | closeArray
  | openObject
  | closeObject
  | colon
  | comma
  /-- A value without parts. -/
  | scalar (value : Json)
  deriving Repr

/-- Characters between tokens. -/
def isSpace (c : Char) : Bool := c == ' ' || c == '\t' || c == '\n' || c == '\r'

/-- Characters of words and numbers. -/
def isBare (c : Char) : Bool := c.isAlphanum || c == '+' || c == '-' || c == '.'

/-- The token that a mark stands for. -/
def mark? : Char → Option Token
  | '[' => some .openArray
  | ']' => some .closeArray
  | '\x7b' => some .openObject
  | '\x7d' => some .closeObject
  | ':' => some .colon
  | ',' => some .comma
  | _ => none

/-! ## Numbers -/

/-- Splits an optional minus sign from a number. -/
def splitSign : List Char → Bool × List Char
  | '-' :: cs => (true, cs)
  | cs => (false, cs)

/-- An exponent after its letter. -/
def exponent? (cs : List Char) : Option Int :=
  match cs with
  | '+' :: ds => (readDigits? ds).map Int.ofNat
  | '-' :: ds => (readDigits? ds).map fun n => -Int.ofNat n
  | ds => (readDigits? ds).map Int.ofNat

/-- The digits after the point, and the exponent; each may be missing. -/
def fraction? (cs : List Char) : Option (List Char × Int) :=
  let isE : Char → Bool := fun c => c == 'e' || c == 'E'
  let exponent :=
    match cs.dropWhile (!isE ·) with
    | [] => some 0
    | _ :: ds => exponent? ds
  match cs.takeWhile (!isE ·) with
  | [] => exponent.map ([], ·)
  | '.' :: places =>
    if places ≠ [] ∧ places.all isDigit then exponent.map (places, ·) else none
  | _ => none

/-- A number literal. Its whole part has no leading zero. -/
def number? (cs : List Char) : Option JsonNumber :=
  let (negative, cs) := splitSign cs
  let whole := cs.takeWhile isDigit
  let rest := cs.dropWhile isDigit
  match whole with
  | [] => none
  | '0' :: _ :: _ => none
  | _ =>
    (fraction? rest).map fun (places, exponent) =>
      { negative
        digits := digitsValue (whole ++ places)
        exponent := exponent - places.length
        isInteger := rest.isEmpty }

/-- What a run of bare characters stands for. -/
def bare? (cs : List Char) : Option Json :=
  match String.ofList cs with
  | "null" => some .null
  | "true" => some (.bool true)
  | "false" => some (.bool false)
  | _ => (number? cs).map .number

/-! ## Strings -/

/-- A piece of a string: a character, or a 16-bit unit written as an escape. -/
inductive Piece where
  | char (c : Char)
  | unit (n : Nat)
  deriving Repr, DecidableEq

/-- The value of a hexadecimal digit. -/
def hexValue? (c : Char) : Option Nat :=
  if '0' ≤ c ∧ c ≤ '9' then some (c.toNat - '0'.toNat)
  else if 'a' ≤ c ∧ c ≤ 'f' then some (c.toNat - 'a'.toNat + 10)
  else if 'A' ≤ c ∧ c ≤ 'F' then some (c.toNat - 'A'.toNat + 10)
  else none

/-- The value of four hexadecimal digits. -/
def unit? (a b c d : Char) : Option Nat :=
  match hexValue? a, hexValue? b, hexValue? c, hexValue? d with
  | some a, some b, some c, some d => some (((a * 16 + b) * 16 + c) * 16 + d)
  | _, _, _, _ => none

/-- The character of a one-letter escape. -/
def escaped? : Char → Option Char
  | '"' => some '"'
  | '\\' => some '\\'
  | '/' => some '/'
  | 'b' => some '\x08'
  | 'f' => some '\x0c'
  | 'n' => some '\n'
  | 'r' => some '\r'
  | 't' => some '\t'
  | _ => none

/-- The pieces between the quotes of a string. -/
def pieces? : List Char → Option (List Piece)
  | [] => some []
  | '\\' :: 'u' :: a :: b :: c :: d :: cs =>
    match unit? a b c d, pieces? cs with
    | some n, some ps => some (.unit n :: ps)
    | _, _ => none
  | '\\' :: e :: cs =>
    match escaped? e, pieces? cs with
    | some c, some ps => some (.char c :: ps)
    | _, _ => none
  | c :: cs =>
    if c == '\\' || c.toNat < 0x20 then none else (pieces? cs).map (.char c :: ·)

/-- Whether a unit is the first half of a surrogate pair. -/
def isHigh (n : Nat) : Bool := 0xD800 ≤ n && n < 0xDC00

/-- Whether a unit is the second half of a surrogate pair. -/
def isLow (n : Nat) : Bool := 0xDC00 ≤ n && n < 0xE000

/-- The text of pieces; none if half of a surrogate pair stands alone. -/
def text? : List Piece → Option (List Char)
  | [] => some []
  | .char c :: ps => (text? ps).map (c :: ·)
  | .unit n :: ps =>
    if isHigh n then
      match ps with
      | .unit m :: rest =>
        if isLow m then
          (text? rest).map
            (Char.ofNat (0x10000 + (n - 0xD800) * 0x400 + (m - 0xDC00)) :: ·)
        else none
      | _ => none
    else if isLow n then none
    else (text? ps).map (Char.ofNat n :: ·)

/-- What stands between the quotes of a string. -/
def string? (cs : List Char) : Option Json :=
  (pieces? cs).map fun ps => .string ((text? ps).map String.ofList)

/-! ## The walk -/

/-- Where the walk is: between tokens, in a bare run, or in a string (right after a backslash or
not). What was read of the run or the string is kept backwards. -/
inductive Place where
  | between
  | bare (read : List Char)
  | quoted (read : List Char) (escaping : Bool)
  deriving Repr, DecidableEq

/-- The tokens of a text, continuing at a place. -/
def tokens? : Place → List Char → Option (List Token)
  | .between, [] => some []
  | .bare read, [] => (bare? read.reverse).map fun v => [.scalar v]
  | .quoted .., [] => none
  | .quoted read true, c :: cs => tokens? (.quoted (c :: read) false) cs
  | .quoted read false, c :: cs =>
    if c = '"' then
      match string? read.reverse, tokens? .between cs with
      | some v, some ts => some (.scalar v :: ts)
      | _, _ => none
    else tokens? (.quoted (c :: read) (c == '\\')) cs
  | .between, c :: cs =>
    if c = '"' then tokens? (.quoted [] false) cs
    else if isBare c then tokens? (.bare [c]) cs
    else if isSpace c then tokens? .between cs
    else
      match mark? c, tokens? .between cs with
      | some t, some ts => some (t :: ts)
      | _, _ => none
  | .bare read, c :: cs =>
    if isBare c then tokens? (.bare (c :: read)) cs
    else if isSpace c then
      match bare? read.reverse, tokens? .between cs with
      | some v, some ts => some (.scalar v :: ts)
      | _, _ => none
    else
      match bare? read.reverse, mark? c, tokens? .between cs with
      | some v, some t, some ts => some (.scalar v :: t :: ts)
      | _, _, _ => none

end SparkTuner.Json
