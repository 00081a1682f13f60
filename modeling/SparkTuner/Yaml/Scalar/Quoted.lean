import SparkTuner.Yaml.Folding

/-!
# Quoted scalars

Between single quotes only the quote itself is written in a special way, twice. Between double
quotes a backslash starts an escape: a letter for a control character, or the code of a character in
hexadecimal digits. An escaped line break and the blanks around it count for nothing.
-/

namespace SparkTuner.Yaml

/-- The character of a one-letter escape. -/
def escaped? : Char → Option Char
  | '0' => some '\x00'
  | 'a' => some '\x07'
  | 'b' => some '\x08'
  | 't' => some '\t'
  | '\t' => some '\t'
  | 'n' => some '\n'
  | 'v' => some '\x0b'
  | 'f' => some '\x0c'
  | 'r' => some '\r'
  | 'e' => some '\x1b'
  | ' ' => some ' '
  | '"' => some '"'
  | '/' => some '/'
  | '\\' => some '\\'
  | 'N' => some '\x85'
  | '_' => some '\xa0'
  | 'L' => some '\u2028'
  | 'P' => some '\u2029'
  | _ => none

/-- How many hexadecimal digits follow the letter of an escape. -/
def codeLength? : Char → Option Nat
  | 'x' => some 2
  | 'u' => some 4
  | 'U' => some 8
  | _ => none

/-- The value of a hexadecimal digit. -/
def hexValue? (c : Char) : Option Nat :=
  if '0' ≤ c ∧ c ≤ '9' then some (c.toNat - '0'.toNat)
  else if 'a' ≤ c ∧ c ≤ 'f' then some (c.toNat - 'a'.toNat + 10)
  else if 'A' ≤ c ∧ c ≤ 'F' then some (c.toNat - 'A'.toNat + 10)
  else none

/-- The value of hexadecimal digits. -/
def hexNumber? (ds : List Char) : Option Nat :=
  (ds.mapM hexValue?).map fun vs => vs.foldl (fun n v => 16 * n + v) 0

/-- The character with a code. -/
def charOfCode? (n : Nat) : Option Char := if n.isValidChar then some (Char.ofNat n) else none

/-- What stands behind a line break inside quotes; a document boundary may not. -/
def insideQuotes (cs : List Char) : Bool := !atBoundary cs

/-- The pieces up to the closing single quote, and what follows it. -/
def singleQuoted? : List Char → Option (List Piece × List Char)
  | [] => none
  | '\'' :: '\'' :: cs => (singleQuoted? cs).map fun (ps, rest) => (.char '\'' :: ps, rest)
  | c :: cs =>
    if c == '\'' then some ([], cs)
    else if isBreak c then
      if insideQuotes cs then (singleQuoted? cs).map fun (ps, rest) => (.lineBreak c :: ps, rest)
      else none
    else if isSpace c then (singleQuoted? cs).map fun (ps, rest) => (.blank c :: ps, rest)
    else (singleQuoted? cs).map fun (ps, rest) => (.char c :: ps, rest)

/-- The pieces up to the closing double quote, and what follows it. -/
def doubleQuoted? : List Char → Option (List Piece × List Char)
  | [] => none
  | '\\' :: [] => none
  | '\\' :: e :: cs =>
    if isBreak e then
      if insideQuotes cs then (doubleQuoted? cs).map fun (ps, rest) => (.join :: ps, rest)
      else none
    else
      match codeLength? e with
      | some n =>
        if (cs.take n).length < n then none
        else
          match (hexNumber? (cs.take n)).bind charOfCode? with
          | some c => (doubleQuoted? (cs.drop n)).map fun (ps, rest) => (.char c :: ps, rest)
          | none => none
      | none =>
        match escaped? e with
        | some c => (doubleQuoted? cs).map fun (ps, rest) => (.char c :: ps, rest)
        | none => none
  | c :: cs =>
    if c == '"' then some ([], cs)
    else if isBreak c then
      if insideQuotes cs then (doubleQuoted? cs).map fun (ps, rest) => (.lineBreak c :: ps, rest)
      else none
    else if isSpace c then (doubleQuoted? cs).map fun (ps, rest) => (.blank c :: ps, rest)
    else (doubleQuoted? cs).map fun (ps, rest) => (.char c :: ps, rest)
termination_by cs => cs.length
decreasing_by all_goals (simp only [List.length_cons, List.length_drop]; omega)

/-- The text of a scalar behind its opening quote, and what follows the closing one. -/
def quoted? (quote : Char) (cs : List Char) : Option (String × List Char) :=
  (if quote == '\'' then singleQuoted? cs else doubleQuoted? cs).map fun (ps, rest) =>
    (String.ofList (foldPieces .none [] ps), rest)

end SparkTuner.Yaml
