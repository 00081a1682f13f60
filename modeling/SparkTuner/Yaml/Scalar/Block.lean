import SparkTuner.Yaml.Character

/-!
# Block scalars

A block scalar is a header and the indented lines behind it. A literal one keeps its line breaks; in
a folded one a line feed between two lines that start with no blank counts as one blank, and is
dropped before further line feeds. The header may give the indentation of the lines, and says what
happens to the line breaks at the end.
-/

namespace SparkTuner.Yaml

/-- What happens to the line breaks at the end. -/
inductive Chomping where
  | strip
  /-- The first one stays. -/
  | clip
  | keep
  deriving Repr, DecidableEq

/-- What the header of a block scalar says. -/
structure BlockHeader where
  chomping : Chomping := .clip
  /-- How much deeper than what is around them the lines are indented. -/
  increment : Option Nat := none
  deriving Repr, DecidableEq

/-- The sign that gives the chomping. -/
def chomping? : Char → Option Chomping
  | '+' => some .keep
  | '-' => some .strip
  | _ => none

/-- The indentation in a header: one digit, but not zero. The outer `none` is an error. -/
def increment? : List Char → Option (Option Nat × List Char)
  | c :: cs =>
    if c == '0' then none
    else if c.isDigit then some (some (c.toNat - '0'.toNat), cs)
    else some (none, c :: cs)
  | [] => some (none, [])

/-- The chomping in a header. -/
def readChomping : List Char → Option Chomping × List Char
  | c :: cs =>
    match chomping? c with
    | some chomping => (some chomping, cs)
    | none => (none, c :: cs)
  | [] => (none, [])

/-- The two parts of a header, in either order. -/
def readHeader? (cs : List Char) : Option (BlockHeader × List Char) :=
  match readChomping cs with
  | (some chomping, cs) => (increment? cs).map fun (n, rest) => (⟨chomping, n⟩, rest)
  | (none, cs) =>
    (increment? cs).map fun (n, rest) =>
      if n.isSome then
        let (chomping, rest) := readChomping rest
        (⟨chomping.getD .clip, n⟩, rest)
      else ({}, rest)

/-- What stands behind the line of a header: blanks and a comment may follow it. -/
def afterHeader? (cs : List Char) : Option (List Char) :=
  let cs := cs.dropWhile isSpace
  let cs := if cs.head? == some '#' then cs.dropWhile (!isBreak ·) else cs
  if atLineEnd cs then some (cs.drop 1) else none

/-- The lines of a block scalar read so far. -/
structure BlockText where
  /-- The text, backwards, without the line breaks at its end. -/
  done : List Char := []
  /-- The line break behind the last line. -/
  lead : Option Char := none
  /-- The line breaks after it, backwards. -/
  more : List Char := []
  /-- Whether the last line starts with a blank. -/
  startsBlank : Bool := false
  deriving Repr, DecidableEq

namespace BlockText

/-- The text with its next line begun, whose first character is `c`. -/
def beginLine (literal : Bool) (t : BlockText) (c : Char) : BlockText :=
  let folds := !literal && t.lead == some '\n' && !t.startsBlank && !isSpace c
  let between :=
    if folds then (if t.more.isEmpty then [' '] else t.more) else t.more ++ t.lead.toList
  { done := c :: (between ++ t.done), startsBlank := isSpace c }

/-- The text as the chomping leaves it. -/
def chomped (t : BlockText) : Chomping → List Char
  | .strip => t.done.reverse
  | .clip => (t.lead.toList ++ t.done).reverse
  | .keep => (t.more ++ (t.lead.toList ++ t.done)).reverse

end BlockText

/-- How far the lines of a block scalar are indented. -/
inductive Indentation where
  | known (columns : Nat)
  /-- The first line with a text decides; `least` is the least indentation, `deepest` the deepest of
  the lines so far. -/
  | open (least deepest : Nat)
  deriving Repr, DecidableEq

namespace Indentation

/-- Whether a blank in `column` belongs to the indentation. -/
def covers (column : Nat) : Indentation → Bool
  | known columns => column < columns
  | .open .. => true

/-- The indentation after a line whose first character that counts stands in `column`. -/
def reach (column : Nat) : Indentation → Indentation
  | known columns => known columns
  | .open least deepest => .open least (max deepest column)

/-- The columns of the indentation once the first line with a text is met. -/
def columns : Indentation → Nat
  | known columns => columns
  | .open least deepest => max least deepest

end Indentation

/-- Where the reading of a block scalar stands in its line. -/
inductive BlockPlace where
  /-- In the indentation. -/
  | indentation (column : Nat)
  | line
  deriving Repr, DecidableEq

/-- Reads the lines of a block scalar: its text and what follows it. -/
def blockLines? (literal : Bool) (indent : Indentation) (place : BlockPlace) (t : BlockText) :
    List Char → Option (BlockText × List Char)
  | [] => some (t, [])
  | c :: cs =>
    match place with
    | .line =>
      if isBreak c then blockLines? literal indent (.indentation 0) { t with lead := some c } cs
      else blockLines? literal indent .line { t with done := c :: t.done } cs
    | .indentation column =>
      if c == ' ' && indent.covers column then
        blockLines? literal indent (.indentation (column + 1)) t cs
      else
        let reached := indent.reach column
        if c == '\t' && reached.covers column then none
        else if isBreak c then
          blockLines? literal reached (.indentation 0) { t with more := c :: t.more } cs
        else if column == reached.columns then
          blockLines? literal (.known column) .line (t.beginLine literal c) cs
        else some (t, c :: cs)

/-- The text of a block scalar behind its mark, and what follows it. The collection around it is
indented by `around` columns, if there is one. -/
def blockScalar? (literal : Bool) (around : Option Nat) (cs : List Char) :
    Option (String × List Char) :=
  match readHeader? cs with
  | none => none
  | some (header, cs) =>
    let indent : Indentation :=
      match header.increment with
      | some n => .known (around.getD 0 + n)
      | none => .open (max 1 ((around.map (· + 1)).getD 0)) 0
    match afterHeader? cs with
    | none => none
    | some cs =>
      (blockLines? literal indent (.indentation 0) {} cs).map fun (t, rest) =>
        (String.ofList (t.chomped header.chomping), rest)

end SparkTuner.Yaml
