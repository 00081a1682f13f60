import SparkTuner.Yaml.Character

/-!
# Places in a text

A place is what remains of the text, with the line and the column it starts in.
-/

namespace SparkTuner.Yaml

/-- A place in a text. -/
structure Cursor where
  rest : List Char
  line : Nat := 0
  column : Nat := 0
  deriving Repr, DecidableEq

namespace Cursor

/-- The place behind `count` characters. -/
def advance : (count : Nat) → Cursor → Cursor
  | 0, p => p
  | count + 1, p =>
    match p.rest with
    | [] => p
    | c :: cs =>
      advance count (if isBreak c then ⟨cs, p.line + 1, 0⟩ else ⟨cs, p.line, p.column + 1⟩)

/-- The place where only `rest` remains of the text, which has to be its end. -/
def goTo (p : Cursor) (rest : List Char) : Cursor := p.advance (p.rest.length - rest.length)

/-- Passes blanks, comments and line breaks before a token. Tabs are blanks only where no block
collection may start. At the start of a line a key may start again, except in flow collections:
`keyAllowed` says whether one may. -/
def skipGap (flow keyAllowed : Bool) (column : Nat) (comment : Bool) :
    List Char → List Char × Bool
  | [] => ([], keyAllowed)
  | c :: cs =>
    if isBreak c then skipGap flow (keyAllowed || !flow) 0 false cs
    else if comment then skipGap flow keyAllowed (column + 1) true cs
    else if column == 0 && c == byteOrderMark then skipGap flow keyAllowed 1 false cs
    else if c == ' ' || (c == '\t' && (flow || !keyAllowed)) then
      skipGap flow keyAllowed (column + 1) false cs
    else if c == '#' then skipGap flow keyAllowed (column + 1) true cs
    else (c :: cs, keyAllowed)

end Cursor

end SparkTuner.Yaml
