import SparkTuner.Number.FloatText
import SparkTuner.Yaml.Tag

/-!
# YAML values

What the nodes of a document stand for. A plain scalar is a number, a truth value or nothing if it
is written like one, and a text otherwise; a quoted one is a text. A tag may say which of them a
scalar is. Whole numbers of 64 bits are values; larger ones up to 128 bits are refused, and still
larger ones count as binary64 numbers.
-/

namespace SparkTuner.Yaml

open Number

/-- A value. -/
inductive Value where
  | null
  | bool (b : Bool)
  | whole (z : Int)
  | real (x : Float)
  | text (s : String)
  | sequence (items : List Value)
  | mapping (entries : List (Value × Value))
  /-- A value with a tag of the user's own. -/
  | tagged (tag : String) (value : Value)
  deriving Repr

/-! ## Scalars -/

/-- Whether the text spells the absent value. -/
def isNull (s : String) : Bool := ["null", "Null", "NULL", "~"].contains s

/-- The truth value that a text spells. -/
def bool? (s : String) : Option Bool :=
  if ["true", "True", "TRUE"].contains s then some true
  else if ["false", "False", "FALSE"].contains s then some false
  else none

/-- The value of digits in a base of at most sixteen; there has to be one. -/
def radixNumber? (base : Nat) (cs : List Char) : Option Nat :=
  match cs.mapM hexValue? with
  | some (v :: vs) =>
    if (v :: vs).all (· < base) then some ((v :: vs).foldl (fun n v => base * n + v) 0) else none
  | _ => none

/-- Whether the text is a row of digits with a zero too many before it. Such texts are no
numbers. -/
def isPadded : List Char → Bool
  | '0' :: c :: cs => (c :: cs).all Char.isDigit
  | _ => false

/-- The value of a whole number without a sign. -/
def magnitude? : List Char → Option Nat
  | '0' :: 'x' :: cs => radixNumber? 16 cs
  | '0' :: 'o' :: cs => radixNumber? 8 cs
  | '0' :: 'b' :: cs => radixNumber? 2 cs
  | cs => if isPadded cs then none else radixNumber? 10 cs

/-- The value of a whole number that may have a plus sign. -/
def unsigned? : List Char → Option Nat
  | '+' :: cs => magnitude? cs
  | cs => magnitude? cs

/-- What a text says as a whole number. -/
inductive WholeReading where
  | notWhole
  /-- A whole number of more than 64 and not more than 128 bits. -/
  | tooLarge
  | value (z : Int)
  deriving Repr, DecidableEq

/-- Reads a text as a whole number. -/
def readWhole (cs : List Char) : WholeReading :=
  match cs with
  | '-' :: ds =>
    match magnitude? ds with
    | none => .notWhole
    | some n =>
      if n ≤ maxSigned64 + 1 then .value (-n)
      else if n ≤ maxSigned128 + 1 then .tooLarge else .notWhole
  | cs =>
    match unsigned? cs with
    | none => .notWhole
    | some n => if n ≤ max64 then .value n else if n ≤ max128 then .tooLarge else .notWhole

/-- An exponent behind its letter. -/
def exponent? : List Char → Option Int
  | '+' :: ds => (readDigits? ds).map Int.ofNat
  | '-' :: ds => (readDigits? ds).map fun n => -Int.ofNat n
  | ds => (readDigits? ds).map Int.ofNat

/-- A decimal without a sign: digits, with a point before, among or behind them, and an exponent. -/
def decimal? (cs : List Char) : Option Decimal :=
  let isE (c : Char) : Bool := c == 'e' || c == 'E'
  let whole := cs.takeWhile Char.isDigit
  let rest := cs.dropWhile Char.isDigit
  let (places, rest) :=
    match rest with
    | '.' :: rest => (rest.takeWhile Char.isDigit, rest.dropWhile Char.isDigit)
    | rest => ([], rest)
  let exponent : Option Int :=
    match rest with
    | [] => some 0
    | e :: ds => if isE e then exponent? ds else none
  match readDigits? (whole ++ places), exponent with
  | some n, some e => some ⟨n, e - places.length⟩
  | _, _ => none

/-- The binary64 number nearest to a decimal; none if that is infinite. -/
def finite? (d : Decimal) : Option Float :=
  let x := floatOfDecimal d.digits d.exponent
  if x.isInf then none else some x

/-- Reads a text as a binary64 number. -/
def real? (s : String) : Option Float :=
  if [".inf", ".Inf", ".INF", "+.inf", "+.Inf", "+.INF"].contains s then some (1 / 0)
  else if ["-.inf", "-.Inf", "-.INF"].contains s then some (-1 / 0)
  else if [".nan", ".NaN", ".NAN"].contains s then some (0 / 0)
  else
    match s.toList with
    | '+' :: cs => (decimal? cs).bind finite?
    | '-' :: cs => ((decimal? cs).bind finite?).map (-·)
    | cs => (decimal? cs).bind finite?

/-- Whether a text is a row of digits, with or without a sign, that is padded with zeros. -/
def isPaddedText (s : String) : Bool :=
  match s.toList with
  | '+' :: cs => isPadded cs
  | '-' :: cs => isPadded cs
  | cs => isPadded cs

/-- What a plain scalar stands for. -/
def Value.ofPlain? (s : String) : Option Value :=
  if s.isEmpty || isNull s then some .null
  else
    match bool? s with
    | some b => some (.bool b)
    | none =>
      match readWhole s.toList with
      | .value z => some (.whole z)
      | .tooLarge => none
      | .notWhole =>
        match (if isPaddedText s then none else real? s) with
        | some x => some (.real x)
        | none => some (.text s)

/-- The tag of a scalar type. -/
def coreTag (type : String) : String := "tag:yaml.org,2002:" ++ type

/-- What a scalar with a tag of the standard stands for. -/
def Value.ofTagged? (tag s : String) : Option Value :=
  if tag == coreTag "bool" then (bool? s).map .bool
  else if tag == coreTag "int" then
    match readWhole s.toList with
    | .value z => some (.whole z)
    | _ => none
  else if tag == coreTag "float" then (real? s).map .real
  else if tag == coreTag "null" then (if isNull s then some .null else none)
  else some (.text s)

/-- What a scalar without a tag stands for. -/
def Value.ofUntagged? (style : Style) (s : String) : Option Value :=
  if style = .plain then ofPlain? s else some (.text s)

/-- Puts a tag of the user's own around the value of a node; such tags start with an exclamation
mark and have a name behind it. Other tags are not put around values. -/
def Value.withTag? (tag : Option String) (value : Value) : Option Value :=
  match tag.map String.toList with
  | some ['!'] => none
  | some ('!' :: name) => some (.tagged (String.ofList name) value)
  | _ => some value

/-- Whether a tag is the user's own. -/
def isOwnTag (tag : String) : Bool := tag.toList.head? == some '!'

/-- What a scalar stands for; none if its tag does not fit it, or a number is too large. -/
def Value.ofScalar? (tag : Option String) (style : Style) (s : String) : Option Value :=
  match tag with
  | none => ofUntagged? style s
  | some t =>
    if isOwnTag t then (ofUntagged? style s).bind (withTag? tag) else ofTagged? t s

/-! ## Comparing values -/

/-- Equality of numbers as keys: an undefined number equals itself. -/
def sameReal (x y : Float) : Bool := (x.isNaN && y.isNaN) || x == y

mutual

/-- Equality of values. The entries of a mapping have no order. -/
def Value.same : Value → Value → Bool
  | .null, .null => true
  | .bool a, .bool b => a == b
  | .whole a, .whole b => a == b
  | .real a, .real b => sameReal a b
  | .text a, .text b => a == b
  | .sequence xs, .sequence ys => sameItems xs ys
  | .mapping es, .mapping fs => es.length == fs.length && entriesIn es fs
  | .tagged s a, .tagged t b => s == t && a.same b
  | _, _ => false

/-- Equality of lists of values. -/
def Value.sameItems : List Value → List Value → Bool
  | [], [] => true
  | x :: xs, y :: ys => x.same y && sameItems xs ys
  | _, _ => false

/-- Whether every entry of the first list is in the second. -/
def Value.entriesIn : List (Value × Value) → List (Value × Value) → Bool
  | [], _ => true
  | (k, v) :: es, fs => fs.any (fun f => k.same f.1 && v.same f.2) && entriesIn es fs

end

/-! ## Texts of scalars -/

/-- Numbers are written with an exponent below `10⁻⁵` and from `10¹⁶` on. -/
def floatFormat : FloatFormat :=
  { above := -5, upTo := 16, infinity := ".inf", undefined := ".nan" }

/-- The text of a value that is a text, a number or a truth value. -/
def Value.scalarText? : Value → Option String
  | .text s => some s
  | .bool b => some (if b then "true" else "false")
  | .whole z => some (toString z)
  | .real x => some (floatFormat.text x)
  | _ => none

end SparkTuner.Yaml
