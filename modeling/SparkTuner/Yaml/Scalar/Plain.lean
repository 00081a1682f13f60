import SparkTuner.Yaml.Folding

/-!
# Plain scalars

A scalar without quotes goes on to a colon before a gap, to a comment, to a document boundary, to a
line that is not indented far enough, or, inside a flow collection, to one of its marks. The blanks
and line breaks before its end are passed but do not belong to it.
-/

namespace SparkTuner.Yaml

/-- A plain scalar that was read. -/
structure Plain where
  text : List Char
  /-- Whether line breaks were passed behind it. -/
  endsLine : Bool
  rest : List Char
  deriving Repr, DecidableEq

/-- Whether a flow mark or a question mark follows. A colon may not stand before one. -/
def beforeFlowMark : List Char → Bool
  | [] => false
  | c :: _ => isFlowMark c || c == '?'

/-- Whether a plain scalar ends before the character `c`, which `cs` follows. -/
def endsPlain (flow : Bool) (c : Char) (cs : List Char) : Bool :=
  (c == ':' && atGap cs) || (flow && isFlowMark c)

/-- Whether a plain scalar ends behind a gap, at a character in `column`. -/
def endsBehindGap (flow : Bool) (indent column : Nat) (cs : List Char) : Bool :=
  (!flow && column < indent) || (column == 0 && atBoundary cs) || cs.head? == some '#'

/-- Reads a plain scalar. Its lines have to be indented by `indent` unless it stands in a flow
collection; `done` is what was read so far, backwards, and `gap` what was passed since. -/
def plain? (flow : Bool) (indent : Nat) (column : Nat) (gap : Gap) (done : List Char) :
    List Char → Option Plain
  | [] => some ⟨done.reverse, gap.hasBreak, []⟩
  | c :: cs =>
    if isBreak c then plain? flow indent 0 (gap.lineBreak c) done cs
    else if isSpace c then
      if gap.hasBreak && column < indent && c == '\t' then none
      else plain? flow indent (column + 1) (gap.blank c) done cs
    else if gap != .none && endsBehindGap flow indent column (c :: cs) then
      some ⟨done.reverse, gap.hasBreak, c :: cs⟩
    else if flow && c == ':' && beforeFlowMark cs then none
    else if endsPlain flow c cs then some ⟨done.reverse, gap.hasBreak, c :: cs⟩
    else plain? flow indent (column + 1) .none (c :: (gap.folded ++ done)) cs

end SparkTuner.Yaml
