import SparkTuner.Json.Basic

/-!
# Writing JSON

Values are written over several lines, each level indented by two blanks. In strings only quotes,
backslashes and the characters below the blank are escaped.
-/

namespace SparkTuner.Json

/-- A hexadecimal digit. -/
def hexDigit (n : Nat) : Char := Nat.digitChar n

/-- A character as it stands in a string. -/
def escape (c : Char) : List Char :=
  match c with
  | '"' => ['\\', '"']
  | '\\' => ['\\', '\\']
  | '\x08' => ['\\', 'b']
  | '\x0c' => ['\\', 'f']
  | '\n' => ['\\', 'n']
  | '\r' => ['\\', 'r']
  | '\t' => ['\\', 't']
  | c =>
    if c.toNat < 0x20 then
      ['\\', 'u', '0', '0', hexDigit (c.toNat / 16), hexDigit (c.toNat % 16)]
    else [c]

/-- A string with its quotes. -/
def quote (s : String) : List Char := '"' :: s.toList.flatMap escape ++ ['"']

/-- A number literal. -/
def numberText (n : JsonNumber) : List Char :=
  let digits := (Nat.repr n.digits).toList
  let signed := if n.negative then '-' :: digits else digits
  if n.isInteger then signed else signed ++ 'e' :: (toString n.exponent).toList

/-- A line break and the blanks of a level. -/
def newline (level : Nat) : List Char := '\n' :: List.replicate (2 * level) ' '

mutual

/-- A value, its parts at a level of indentation. -/
def write (level : Nat) : Json → List Char
  | .null => "null".toList
  | .bool true => "true".toList
  | .bool false => "false".toList
  | .number n => numberText n
  | .string s => quote (s.getD "")
  | .array [] => ['[', ']']
  | .array (v :: vs) =>
    '[' :: newline (level + 1) ++ write (level + 1) v ++ writeItems (level + 1) vs ++
      newline level ++ [']']
  | .object [] => ['\x7b', '\x7d']
  | .object ((k, v) :: fs) =>
    '\x7b' :: newline (level + 1) ++ quote (k.getD "") ++ [':', ' '] ++ write (level + 1) v ++
      writeFields (level + 1) fs ++ newline level ++ ['\x7d']

/-- The items after the first. -/
def writeItems (level : Nat) : List Json → List Char
  | [] => []
  | v :: vs => ',' :: newline level ++ write level v ++ writeItems level vs

/-- The fields after the first. -/
def writeFields (level : Nat) : List (Option String × Json) → List Char
  | [] => []
  | (k, v) :: fs =>
    ',' :: newline level ++ quote (k.getD "") ++ [':', ' '] ++ write level v ++
      writeFields level fs

end

/-- A value over several lines. -/
def pretty (v : Json) : String := String.ofList (write 0 v)

end SparkTuner.Json
