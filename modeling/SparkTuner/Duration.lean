import SparkTuner.Number.Numeral
import SparkTuner.Text.Blank

/-!
# Durations

A duration is written as a sum of parts, each a number and a unit: `1h 30m`, `1.5s`, `750ms`. Blanks
may stand around the numbers and between their digits. A part may have a fraction, which counts in
nanoseconds for units of at most a minute and in whole seconds for longer ones. Numbers that leave a
64-bit word are refused.
-/

namespace SparkTuner

open Number Text

/-- A duration. -/
structure Duration where
  /-- The length in nanoseconds. -/
  nanoseconds : Nat
  deriving Repr, DecidableEq

namespace Duration

/-- Nanoseconds of a second. -/
def perSecond : Nat := 1000000000

/-- The whole seconds. -/
def seconds (d : Duration) : Nat := d.nanoseconds / perSecond

/-- The nanoseconds after the last whole second. -/
def subseconds (d : Duration) : Nat := d.nanoseconds % perSecond

/-- A duration of whole seconds. -/
def ofSeconds (n : Nat) : Duration := ⟨n * perSecond⟩

/-- A unit of time. -/
inductive TimeUnit where
  | nanosecond
  | microsecond
  | millisecond
  | second
  | minute
  | hour
  | day
  | week
  /-- A twelfth of 365.28 days. -/
  | month
  /-- 365.25 days. -/
  | year
  deriving Repr, DecidableEq

namespace TimeUnit

/-- The unit with a name. -/
def ofName? : String → Option TimeUnit
  | "nanos" | "nsec" | "ns" => some nanosecond
  | "usec" | "us" | "µs" => some microsecond
  | "millis" | "msec" | "ms" => some millisecond
  | "seconds" | "second" | "secs" | "sec" | "s" => some second
  | "minutes" | "minute" | "mins" | "min" | "m" => some minute
  | "hours" | "hour" | "hrs" | "hr" | "h" => some hour
  | "days" | "day" | "d" => some day
  | "weeks" | "week" | "wks" | "wk" | "w" => some week
  | "months" | "month" | "M" => some month
  | "years" | "year" | "yrs" | "yr" | "y" => some year
  | _ => none

/-- The length in nanoseconds, of units shorter than a second. -/
def short? : TimeUnit → Option Nat
  | nanosecond => some 1
  | microsecond => some 1000
  | millisecond => some 1000000
  | _ => none

/-- The length in seconds, of the other units. -/
def long : TimeUnit → Nat
  | minute => 60
  | hour => 3600
  | day => 86400
  | week => 7 * 86400
  | month => 2630016
  | year => 31557600
  | _ => 1

end TimeUnit

/-- A product that has to fit in a 64-bit word. -/
def times? (a b : Nat) : Option Nat := if a * b ≤ max64 then some (a * b) else none

/-- A decimal fraction below one. -/
structure Fraction where
  numerator : Nat
  denominator : Nat
  deriving Repr, DecidableEq

/-- The nanoseconds of so many units. -/
def wholePart? (unit : TimeUnit) (n : Nat) : Option Nat :=
  match unit.short? with
  | some size => times? n size
  | none => (times? n unit.long).map (· * perSecond)

/-- The nanoseconds of a fraction of a unit. A nanosecond has none. -/
def fractionPart? (unit : TimeUnit) (f : Fraction) : Option Nat :=
  match unit with
  | .nanosecond => none
  | .microsecond => (times? f.numerator 1000).map (· / f.denominator)
  | .millisecond => (times? f.numerator 1000000).map (· / f.denominator)
  | .second => (times? f.numerator perSecond).map (· / f.denominator)
  | .minute => (times? f.numerator (60 * perSecond)).map (· / f.denominator)
  | unit => (times? f.numerator unit.long).map (· / f.denominator * perSecond)

/-- A sum whose seconds have to fit in a 64-bit word. -/
def add? (d : Duration) (nanoseconds : Nat) : Option Duration :=
  let sum : Duration := ⟨d.nanoseconds + nanoseconds⟩
  if sum.seconds ≤ max64 then some sum else none

/-- The digits at the start of a text, with blanks among them, and what follows them. -/
def spreadDigits : List Char → List Char × List Char
  | [] => ([], [])
  | c :: cs =>
    if isDigit c then
      let (digits, rest) := spreadDigits cs
      (c :: digits, rest)
    else if isBlank c then spreadDigits cs
    else ([], c :: cs)

/-- The fraction that digits after a point spell; there has to be one. -/
def fraction? (digits : List Char) : Option Fraction :=
  let denominator := Nat.pow 10 digits.length
  match readUpTo? max64 digits with
  | some numerator => if denominator ≤ max64 then some ⟨numerator, denominator⟩ else none
  | none => none

/-- The fraction behind a number, if a point follows it, and what follows that. -/
def readFraction? : List Char → Option (Option Fraction × List Char)
  | '.' :: cs =>
    let (digits, rest) := spreadDigits cs
    (fraction? digits).map fun f => (some f, rest)
  | cs => some (none, cs)

/-- Letters of unit names. -/
def isUnitLetter (c : Char) : Bool := c.isAlpha || c == 'µ'

/-- Whether the next part may start here. -/
def atPart : List Char → Bool
  | [] => true
  | c :: _ => isDigit c || isBlank c

/-- Reads one part, which starts with a digit: its nanoseconds, and what follows it. -/
def readPart? (cs : List Char) : Option (List Nat × List Char) := do
  let (digits, rest) := spreadDigits cs
  let n ← (readDigits? digits).filter (· ≤ max64)
  let (fraction, rest) ← readFraction? rest
  let unit ← TimeUnit.ofName? (String.ofList (rest.takeWhile isUnitLetter))
  let rest := rest.dropWhile isUnitLetter
  let whole ← wholePart? unit n
  let pieces ←
    match fraction with
    | none => some [whole]
    | some f => (fractionPart? unit f).map fun part => [whole, part]
  if atPart rest then some (pieces, rest) else none

/-- Adds the parts in a text, at most `steps`. -/
def addParts? : (steps : Nat) → Duration → List Char → Option Duration
  | 0, d, _ => some d
  | steps + 1, d, cs =>
    match cs.dropWhile isBlank with
    | [] => some d
    | c :: cs =>
      if isDigit c then
        match readPart? (c :: cs) with
        | none => none
        | some (pieces, rest) =>
          match pieces.foldlM add? d with
          | none => none
          | some d => addParts? steps d rest
      else none

/-- Reads a duration. Zero needs no unit. -/
def parse? (s : String) : Option Duration :=
  let cs := s.toList
  if s == "0" then some ⟨0⟩
  else if cs.all isBlank then none
  else addParts? cs.length ⟨0⟩ cs

end Duration

end SparkTuner
