import SparkTuner.Number.Quantity
import SparkTuner.Text.Digit
import SparkTuner.Toml.Basic

/-!
# Scalars in TOML

Strings, and the words without quotes: truth values, numbers and dates.
-/

namespace SparkTuner.Toml

open Number Text

/-! ## Strings -/

/-- Characters that may stand in strings and comments. -/
def isVisible (c : Char) : Bool := c == '\t' || (0x20 ≤ c.toNat && c.toNat != 0x7F)

/-- The character of a one-letter escape. -/
def escaped? : Char → Option Char
  | 'b' => some '\x08'
  | 't' => some '\t'
  | 'n' => some '\n'
  | 'f' => some '\x0c'
  | 'r' => some '\r'
  | '"' => some '"'
  | '\\' => some '\\'
  | _ => none

/-- How many hexadecimal digits follow the letter of an escape. -/
def codeLength? : Char → Option Nat
  | 'u' => some 4
  | 'U' => some 8
  | _ => none

/-- The value of a hexadecimal digit. -/
def hexValue? (c : Char) : Option Nat :=
  if '0' ≤ c ∧ c ≤ '9' then some (c.toNat - '0'.toNat)
  else if 'a' ≤ c ∧ c ≤ 'f' then some (c.toNat - 'a'.toNat + 10)
  else if 'A' ≤ c ∧ c ≤ 'F' then some (c.toNat - 'A'.toNat + 10)
  else none

/-- The character with a code in hexadecimal digits. -/
def charOfCode? (ds : List Char) : Option Char :=
  match ds.mapM hexValue? with
  | none => none
  | some vs =>
    let n := vs.foldl (fun n v => 16 * n + v) 0
    if n.isValidChar then some (Char.ofNat n) else none

/-- The character of an escape behind its backslash, and what follows it. -/
def escape? : List Char → Option (Char × List Char)
  | [] => none
  | e :: cs =>
    match codeLength? e with
    | some n =>
      if (cs.take n).length < n then none else (charOfCode? (cs.take n)).map (·, cs.drop n)
    | none => (escaped? e).map (·, cs)

/-- What follows a line break; none if there is no line break here. -/
def afterBreak? : List Char → Option (List Char)
  | '\n' :: cs => some cs
  | '\r' :: '\n' :: cs => some cs
  | _ => none

/-- Blanks inside a line. -/
def isSpace (c : Char) : Bool := c == ' ' || c == '\t'

/-- Adds a character to what a reader gives. -/
def prepend (c : Char) (read : Option (List Char × List Char)) :
    Option (List Char × List Char) :=
  read.map fun (text, rest) => (c :: text, rest)

/-- A string on one line behind its opening quote, and what follows the closing one. The text has
at most `steps` characters. -/
def lineString? (quote : Char) : (steps : Nat) → List Char → Option (List Char × List Char)
  | 0, _ | _, [] => none
  | steps + 1, c :: cs =>
    if c == quote then some ([], cs)
    else if c == '\\' && quote == '"' then
      match escape? cs with
      | some (d, rest) => prepend d (lineString? quote steps rest)
      | none => none
    else if isVisible c then prepend c (lineString? quote steps cs)
    else none

/-- What follows the blanks and line breaks at the start of a text. -/
def afterBreaks : List Char → List Char
  | [] => []
  | '\r' :: '\n' :: cs => afterBreaks cs
  | c :: cs => if isSpace c || c == '\n' then afterBreaks cs else c :: cs

/-- What follows a backslash at the end of a line, with all blanks and line breaks behind it. -/
def afterJoin? (cs : List Char) : Option (List Char) :=
  (afterBreak? (cs.dropWhile isSpace)).map afterBreaks

/-- A string over several lines behind its opening quotes, and what follows the closing ones. Up to
two quotes may stand before those. -/
def blockString? (quote : Char) : (steps : Nat) → List Char → Option (List Char × List Char)
  | 0, _ | _, [] => none
  | steps + 1, c :: cs =>
    if c == quote then
      let run := (c :: cs).takeWhile (· == quote)
      if run.length < 3 then prepend c (blockString? quote steps cs)
      else
        let count := min run.length 5
        some (List.replicate (count - 3) quote, (c :: cs).drop count)
    else if c == '\\' && quote == '"' then
      match afterJoin? cs with
      | some rest => blockString? quote steps rest
      | none =>
        match escape? cs with
        | some (d, rest) => prepend d (blockString? quote steps rest)
        | none => none
    else
      match afterBreak? (c :: cs) with
      | some rest => prepend '\n' (blockString? quote steps rest)
      | none => if isVisible c then prepend c (blockString? quote steps cs) else none

/-- A string, from its opening quotes on. A line break behind three quotes does not count. -/
def string? : List Char → Option (String × List Char)
  | [] => none
  | q :: cs =>
    let read :=
      match cs with
      | a :: b :: rest =>
        if a == q && b == q then blockString? q cs.length ((afterBreak? rest).getD rest)
        else lineString? q cs.length cs
      | _ => lineString? q cs.length cs
    read.map fun (text, rest) => (String.ofList text, rest)

/-! ## Numbers -/

/-- Digits with single underscores between them: the digits. -/
def joined? (isDigit : Char → Bool) : List Char → Option (List Char)
  | [] => none
  | [c] => if isDigit c then some [c] else none
  | c :: '_' :: cs => if isDigit c then (joined? isDigit cs).map (c :: ·) else none
  | c :: cs => if isDigit c then (joined? isDigit cs).map (c :: ·) else none

/-- A whole number without a sign, with no zero before other digits. -/
def whole? (cs : List Char) : Option (List Char) :=
  match joined? isDigit cs with
  | some ('0' :: _ :: _) => none
  | digits => digits

/-- The text without its sign, and whether it was a minus sign. -/
def unsigned : List Char → Bool × List Char
  | '-' :: cs => (true, cs)
  | '+' :: cs => (false, cs)
  | cs => (false, cs)

/-- The value of digits in a base. -/
def valueIn (base : Nat) (digits : List Char) : Nat :=
  digits.foldl (fun n d => base * n + (hexValue? d).getD 0) 0

/-- Whether the text is a whole number. It has to fit in a 128-bit word. -/
def isWhole (cs : List Char) : Bool :=
  let radix (base : Nat) (ds : List Char) : Bool :=
    let isDigit (c : Char) : Bool := (hexValue? c).any (· < base)
    (joined? isDigit ds).any fun digits => valueIn base digits ≤ max128
  match cs with
  | '0' :: 'x' :: ds => radix 16 ds
  | '0' :: 'o' :: ds => radix 8 ds
  | '0' :: 'b' :: ds => radix 2 ds
  | cs =>
    let (negative, ds) := unsigned cs
    (whole? ds).any fun digits =>
      valueIn 10 digits ≤ (if negative then maxSigned128 + 1 else max128)

/-- Whether the text is a fraction or has an exponent, and is not beyond all binary64 numbers. -/
def isReal (cs : List Char) : Bool :=
  let (_, ds) := unsigned cs
  let isE (c : Char) : Bool := c == 'e' || c == 'E'
  if ds = "inf".toList ∨ ds = "nan".toList then true
  else if !ds.any (fun c => c == '.' || isE c) then false
  else
    let mantissa := ds.takeWhile (!isE ·)
    let whole := mantissa.takeWhile (· != '.')
    let places : Option (List Char) :=
      match mantissa.dropWhile (· != '.') with
      | [] => some []
      | _ :: ps => joined? isDigit ps
    let exponent : Option Int :=
      match ds.dropWhile (!isE ·) with
      | [] => some 0
      | _ :: es =>
        let (negative, es) := unsigned es
        (joined? isDigit es).map fun digits =>
          if negative then -(digitsValue digits : Int) else digitsValue digits
    match whole? whole, places, exponent with
    | some ws, some ps, some e => !(floatOfDecimal (digitsValue (ws ++ ps)) (e - ps.length)).isInf
    | _, _, _ => false

/-! ## Dates -/

/-- So many digits as a number, and what follows them. -/
def digits? (count : Nat) (cs : List Char) : Option (Nat × List Char) :=
  let ds := cs.take count
  if ds.length = count ∧ ds.all isDigit then some (digitsValue ds, cs.drop count) else none

/-- What follows a character; none if it does not stand here. -/
def after? (c : Char) : List Char → Option (List Char)
  | d :: cs => if c = d then some cs else none
  | [] => none

/-- The number of days in a month. -/
def daysIn (year month : Nat) : Nat :=
  if month = 2 then
    if year % 4 = 0 ∧ (year % 100 ≠ 0 ∨ year % 400 = 0) then 29 else 28
  else if month = 4 ∨ month = 6 ∨ month = 9 ∨ month = 11 then 30
  else 31

/-- What follows a date. -/
def afterDate? (cs : List Char) : Option (List Char) := do
  let (year, cs) ← digits? 4 cs
  let cs ← after? '-' cs
  let (month, cs) ← digits? 2 cs
  let cs ← after? '-' cs
  let (day, cs) ← digits? 2 cs
  if 1 ≤ month ∧ month ≤ 12 ∧ 1 ≤ day ∧ day ≤ daysIn year month then some cs else none

/-- What follows a time of day. -/
def afterTime? (cs : List Char) : Option (List Char) := do
  let (hour, cs) ← digits? 2 cs
  let cs ← after? ':' cs
  let (minute, cs) ← digits? 2 cs
  let cs ← after? ':' cs
  let (second, cs) ← digits? 2 cs
  if 23 < hour ∨ 59 < minute ∨ 60 < second then none
  else
    match cs with
    | '.' :: ps => if (ps.takeWhile isDigit).isEmpty then none else some (ps.dropWhile isDigit)
    | cs => some cs

/-- Whether the text is a time zone, or empty. -/
def isZone (cs : List Char) : Bool :=
  match cs with
  | [] => true
  | ['Z'] | ['z'] => true
  | sign :: rest =>
    (sign == '+' || sign == '-') &&
      (do
        let (hours, rest) ← digits? 2 rest
        let rest ← after? ':' rest
        let (minutes, rest) ← digits? 2 rest
        return rest.isEmpty && hours ≤ 23 && minutes ≤ 59).getD false

/-- Whether the text is a date, a time of day, or both. -/
def isDate (cs : List Char) : Bool :=
  match afterDate? cs with
  | some [] => true
  | some (sep :: rest) =>
    (sep == 'T' || sep == 't' || sep == ' ') && (afterTime? rest).any isZone
  | none => afterTime? cs == some []

/-! ## Words -/

/-- Characters of words without quotes. -/
def isWordCharacter (c : Char) : Bool := c.isAlphanum || "+-_.:".toList.contains c

/-- What a word stands for. -/
def word? (cs : List Char) : Option Value :=
  if cs = "true".toList then some (.bool true)
  else if cs = "false".toList then some (.bool false)
  else if isWhole cs || isReal cs then some .number
  else if isDate cs then some .date
  else none

/-- A word without quotes, and what follows it. A blank may stand between a date and a time. -/
def readWord (cs : List Char) : List Char × List Char :=
  let word := cs.takeWhile isWordCharacter
  let rest := cs.dropWhile isWordCharacter
  match rest with
  | ' ' :: d :: more =>
    if afterDate? word == some [] && isDigit d then
      (word ++ ' ' :: (d :: more).takeWhile isWordCharacter, more.dropWhile isWordCharacter)
    else (word, rest)
  | _ => (word, rest)

end SparkTuner.Toml
