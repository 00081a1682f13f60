import SparkTuner.Yaml.Cursor
import SparkTuner.Yaml.Scalar.Block
import SparkTuner.Yaml.Scalar.Plain
import SparkTuner.Yaml.Tag

/-!
# Cutting documents into tokens

Whether a scalar or flow collection is a key shows only at the colon behind it, so tokens that may
belong to a key are held back until the colon comes or can come no more: a key ends on the line it
starts on and is at most 1024 characters long. The colon puts the mark of the key, and of the
mapping that the key opens, in front of them.

A text that cannot be cut gives the tokens before the fault; they do not end in `streamEnd` then.
-/

namespace SparkTuner.Yaml

/-- A token that a key may start with. -/
structure Candidate where
  /-- How many tokens are before it. -/
  position : Nat
  line : Nat
  column : Nat
  /-- Whether a key has to start here, since nothing else may at this indentation. -/
  required : Bool
  deriving Repr, DecidableEq

/-- How far a text is cut. -/
structure Lexer where
  cursor : Cursor
  /-- The candidate of the innermost flow collection, or of the text around all of them. -/
  candidate : Option Candidate := none
  /-- The candidates further out, one for each open flow collection. -/
  outer : List (Option Candidate) := []
  /-- Whether a key may start here. -/
  keyAllowed : Bool := true
  /-- The columns of the open block collections, the innermost first. -/
  columns : List Nat := []
  /-- How many tokens were given out. -/
  given : Nat := 0
  /-- The tokens that are held back. -/
  held : List Token := []
  deriving Repr

namespace Lexer

/-- Whether the lexer is inside a flow collection. -/
def inFlow (x : Lexer) : Bool := !x.outer.isEmpty

/-- All candidates. -/
def candidates (x : Lexer) : List Candidate := (x.candidate :: x.outer).filterMap id

/-- Adds a token. -/
def push (x : Lexer) (t : Token) : Lexer := { x with held := x.held ++ [t] }

/-- Adds a token and goes on behind it. -/
def take (x : Lexer) (t : Token) (rest : List Char) : Lexer :=
  { x.push t with cursor := x.cursor.goTo rest }

/-- The number of tokens so far. -/
def count (x : Lexer) : Nat := x.given + x.held.length

/-! ## Block collections -/

/-- Whether `column` is deeper than all open block collections. -/
def isDeeper (x : Lexer) (column : Nat) : Bool := x.columns.head?.all (· < column)

/-- Closes the block collections that are deeper than `column`, or all of them. -/
def close (column : Option Nat) (x : Lexer) : Lexer :=
  if x.inFlow then x
  else
    let deeper := x.columns.takeWhile fun c => column.all (· < c)
    { x with
      columns := x.columns.drop deeper.length
      held := x.held ++ deeper.map fun _ => .blockEnd }

/-- Opens a block collection in `column`, if it is deeper than those that are open. Its token is put
at `position`. -/
def opening (x : Lexer) (column position : Nat) (t : Token) : Lexer :=
  if !x.inFlow && x.isDeeper column then
    { x with
      columns := column :: x.columns
      held := x.held.insertIdx (position - x.given) t }
  else x

/-! ## Candidates for keys -/

/-- Whether a key that starts at the candidate cannot end here any more. -/
def isPast (x : Lexer) (k : Candidate) : Bool :=
  k.line < x.cursor.line || k.column + 1024 < x.cursor.column

/-- Drops the candidates that are past; none if a key had to start at one of them. -/
def expire? (x : Lexer) : Option Lexer :=
  if x.candidates.any fun k => k.required && x.isPast k then none
  else
    let keep (k : Option Candidate) : Option Candidate := k.filter (!x.isPast ·)
    some { x with candidate := keep x.candidate, outer := x.outer.map keep }

/-- Drops the innermost candidate; none if a key had to start there. -/
def dropCandidate? (x : Lexer) : Option Lexer :=
  match x.candidate with
  | some k => if k.required then none else some { x with candidate := none }
  | none => some x

/-- Makes the next token a candidate if a key may start here. -/
def markCandidate? (x : Lexer) : Option Lexer :=
  if x.keyAllowed then
    let column := x.cursor.column
    let required := !x.inFlow && x.columns.head? == some column
    x.dropCandidate?.map fun x =>
      { x with candidate := some ⟨x.count, x.cursor.line, column, required⟩ }
  else some x

/-! ## Single tokens -/

/-- The end of the text, which ends its last line. -/
def finish? (x : Lexer) : Option Lexer :=
  let cursor : Cursor :=
    if x.cursor.column = 0 then x.cursor else ⟨x.cursor.rest, x.cursor.line + 1, 0⟩
  (close none { x with cursor := cursor }).dropCandidate?.map fun x =>
    { x with keyAllowed := false }.push .streamEnd

/-- A token that ends all block collections. -/
def outermost? (x : Lexer) (t : Token) (rest : List Char) : Option Lexer :=
  (x.close none).dropCandidate?.map fun x => { x with keyAllowed := false }.take t rest

/-- The start of a flow collection. -/
def openFlow? (x : Lexer) (t : Token) (rest : List Char) : Option Lexer :=
  x.markCandidate?.map fun x =>
    { x with candidate := none, outer := x.candidate :: x.outer, keyAllowed := true }.take t rest

/-- The end of a flow collection. -/
def closeFlow? (x : Lexer) (t : Token) (rest : List Char) : Option Lexer :=
  x.dropCandidate?.map fun x =>
    let x :=
      match x.outer with
      | k :: outer => { x with candidate := k, outer := outer }
      | [] => x
    { x with keyAllowed := false }.take t rest

/-- A comma. -/
def comma? (x : Lexer) (rest : List Char) : Option Lexer :=
  x.dropCandidate?.map fun x => { x with keyAllowed := true }.take .comma rest

/-- The hyphen before an item. In a flow collection it is out of place, which shows later. -/
def item? (x : Lexer) (rest : List Char) : Option Lexer :=
  if !x.inFlow && !x.keyAllowed then none
  else
    (x.opening x.cursor.column x.count .blockSequence).dropCandidate?.map fun x =>
      { x with keyAllowed := true }.take .item rest

/-- The mark before a key. -/
def key? (x : Lexer) (rest : List Char) : Option Lexer :=
  if !x.inFlow && !x.keyAllowed then none
  else
    (x.opening x.cursor.column x.count .blockMapping).dropCandidate?.map fun x =>
      { x with keyAllowed := !x.inFlow }.take .key rest

/-- The colon before a value. A candidate is its key, otherwise the key was marked or is empty. -/
def value? (x : Lexer) (rest : List Char) : Option Lexer :=
  match x.candidate with
  | some k =>
    let marked : Lexer := { x with held := x.held.insertIdx (k.position - x.given) .key }
    let opened := marked.opening k.column k.position .blockMapping
    some ({ opened with candidate := none, keyAllowed := false }.take .value rest)
  | none =>
    if !x.inFlow && !x.keyAllowed then none
    else
      let opened := x.opening x.cursor.column x.count .blockMapping
      some ({ opened with keyAllowed := !x.inFlow }.take .value rest)

/-- An alias, anchor, tag or quoted scalar that was read. -/
def atom? (x : Lexer) (read : Option (Token × List Char)) : Option Lexer :=
  match x.markCandidate?, read with
  | some x, some (t, rest) => some ({ x with keyAllowed := false }.take t rest)
  | _, _ => none

/-- A plain scalar. -/
def plainScalar? (x : Lexer) : Option Lexer :=
  let indent := (x.columns.head?.map (· + 1)).getD 0
  match x.markCandidate?, plain? x.inFlow indent x.cursor.column .none [] x.cursor.rest with
  | some x, some p =>
    some ({ x with keyAllowed := p.endsLine }.take (.scalar .plain (String.ofList p.text)) p.rest)
  | _, _ => none

/-- A block scalar behind its mark. -/
def blockText? (x : Lexer) (style : Style) (rest : List Char) : Option Lexer :=
  match x.dropCandidate?, blockScalar? (style == .literal) x.columns.head? rest with
  | some x, some (text, rest) => some ({ x with keyAllowed := true }.take (.scalar style text) rest)
  | _, _ => none

/-- The token that starts with `c`. -/
def token? (x : Lexer) (c : Char) (cs : List Char) : Option Lexer :=
  let named (f : String → Token) : Option (Token × List Char) :=
    (anchorName? cs).map fun (name, rest) => (f name, rest)
  let quotedScalar (style : Style) : Option (Token × List Char) :=
    (quoted? c cs).map fun (text, rest) => (.scalar style text, rest)
  match c with
  | '[' => x.openFlow? .flowSequence cs
  | '\x7b' => x.openFlow? .flowMapping cs
  | ']' => x.closeFlow? .flowSequenceEnd cs
  | '\x7d' => x.closeFlow? .flowMappingEnd cs
  | ',' => x.comma? cs
  | '-' => if atGap cs then x.item? cs else x.plainScalar?
  | '?' => if x.inFlow || atGap cs then x.key? cs else x.plainScalar?
  | ':' => if x.inFlow || atGap cs then x.value? cs else x.plainScalar?
  | '*' => x.atom? (named .alias)
  | '&' => x.atom? (named .anchor)
  | '!' =>
    x.atom? <| (tagName? cs).bind fun (name, rest) =>
      if endsTag x.inFlow rest then some (.tag name, rest) else none
  | '\'' => x.atom? (quotedScalar .singleQuoted)
  | '"' => x.atom? (quotedScalar .doubleQuoted)
  | '|' => if x.inFlow then none else x.blockText? .literal cs
  | '>' => if x.inFlow then none else x.blockText? .folded cs
  | c => if isGap c || isMark c then none else x.plainScalar?

/-- Cuts off the next token, and adds what it shows about the tokens before it. -/
def fetch? (x : Lexer) : Option Lexer :=
  let (rest, keyAllowed) :=
    Cursor.skipGap x.inFlow x.keyAllowed x.cursor.column false x.cursor.rest
  match { x with cursor := x.cursor.goTo rest, keyAllowed := keyAllowed }.expire? with
  | none => none
  | some x =>
    let x := x.close (some x.cursor.column)
    match x.cursor.rest with
    | [] => x.finish?
    | c :: cs =>
      let atStart := x.cursor.column == 0
      if atStart && c == '%' then
        (directive? cs).bind fun (t, rest) => x.outermost? t rest
      else if atStart && atBoundary (c :: cs) then
        x.outermost? (if c == '-' then .documentStart else .documentEnd) (cs.drop 2)
      else x.token? c cs

/-- The number of tokens that no candidate holds back. -/
def free (x : Lexer) : Nat :=
  (x.candidates.map fun k => k.position - x.given).foldl min x.held.length

/-- Cuts off tokens, at most `steps` times. -/
def run : (steps : Nat) → Lexer → List Token
  | 0, _ => []
  | steps + 1, x =>
    match x.fetch?.bind expire? with
    | none => []
    | some x =>
      let ready := x.held.take x.free
      if ready.contains .streamEnd then ready
      else
        ready ++ run steps { x with held := x.held.drop x.free, given := x.given + x.free }

end Lexer

/-- The tokens of a prepared text. Every step but the last passes a character of it. -/
def tokens (cs : List Char) : List Token := Lexer.run (cs.length + 1) { cursor := ⟨cs, 0, 0⟩ }

end SparkTuner.Yaml
