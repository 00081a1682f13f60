import SparkTuner.Toml.Scalar

/-!
# Reading TOML

A document is a list of lines, each of them empty, a header or a field; arrays may go over several
lines. Arrays and inline tables may be nested eighty deep.
-/

namespace SparkTuner.Toml

/-- What follows a comment, if one starts here; none if it holds a character that may not stand in
one. -/
def afterComment? (cs : List Char) : Option (List Char) :=
  match cs with
  | '#' :: rest =>
    let after := rest.dropWhile isVisible
    if after.isEmpty || (afterBreak? after).isSome then some after else none
  | cs => some cs

/-- What follows the end of a line, with blanks and a comment before it. -/
def afterLine? (cs : List Char) : Option (List Char) :=
  match afterComment? (cs.dropWhile isSpace) with
  | some [] => some []
  | some rest => afterBreak? rest
  | none => none

/-- What follows blanks, comments and line breaks, of which there are at most `steps`. -/
def afterGaps? : (steps : Nat) → List Char → Option (List Char)
  | 0, cs => some cs
  | steps + 1, cs =>
    match afterComment? (cs.dropWhile isSpace) with
    | none => none
    | some rest =>
      match afterBreak? rest with
      | some rest => afterGaps? steps rest
      | none => some rest

/-! ## Keys -/

/-- Characters of keys without quotes. -/
def isKeyCharacter (c : Char) : Bool := c.isAlphanum || c == '_' || c == '-'

/-- A key without dots, and what follows it. -/
def simpleKey? (cs : List Char) : Option (String × List Char) :=
  match cs with
  | '"' :: rest | '\'' :: rest =>
    (lineString? (cs.headD '"') cs.length rest).map fun (text, rest) => (String.ofList text, rest)
  | cs =>
    let key := cs.takeWhile isKeyCharacter
    if key.isEmpty then none else some (String.ofList key, cs.dropWhile isKeyCharacter)

/-- A key that may have dots, of at most `steps` parts, and what follows it and the blanks
behind it. -/
def key? : (steps : Nat) → List Char → Option (List String × List Char)
  | 0, _ => none
  | steps + 1, cs =>
    match simpleKey? (cs.dropWhile isSpace) with
    | none => none
    | some (key, rest) =>
      match rest.dropWhile isSpace with
      | '.' :: rest => (key? steps rest).map fun (keys, rest) => (key :: keys, rest)
      | rest => some ([key], rest)

/-! ## Values -/

mutual

/-- A value, and what follows it. The reading takes at most `steps` steps, and arrays and inline
tables are nested at most `depth` deep. -/
def value? (depth : Nat) : (steps : Nat) → List Char → Option (Value × List Char)
  | 0, _ => none
  | steps + 1, cs =>
    match cs with
    | '"' :: _ | '\'' :: _ => (string? cs).map fun (text, rest) => (.text text, rest)
    | '[' :: rest =>
      if depth = 0 then none
      else (items? (depth - 1) [] steps rest).map fun (items, rest) => (.array items, rest)
    | '\x7b' :: rest =>
      if depth = 0 then none
      else
        match rest.dropWhile isSpace with
        | '\x7d' :: rest => some (.table [], rest)
        | rest =>
          (entries? (depth - 1) [] steps rest).map fun (fields, rest) =>
            (.table (Tree.toFields fields), rest)
    | cs =>
      let (word, rest) := readWord cs
      (word? word).map (·, rest)

/-- The items of an array behind those in `done`, which are kept backwards, and what follows its
end. -/
def items? (depth : Nat) (done : List Value) :
    (steps : Nat) → List Char → Option (List Value × List Char)
  | 0, _ => none
  | steps + 1, cs =>
    match afterGaps? cs.length cs with
    | none => none
    | some (']' :: rest) => some (done.reverse, rest)
    | some rest =>
      match value? depth steps rest with
      | none => none
      | some (v, rest) =>
        match afterGaps? rest.length rest with
        | some (',' :: rest) => items? depth (v :: done) steps rest
        | some (']' :: rest) => some ((v :: done).reverse, rest)
        | _ => none

/-- The fields of an inline table behind those in `done`, and what follows its end. -/
def entries? (depth : Nat) (done : Fields) :
    (steps : Nat) → List Char → Option (Fields × List Char)
  | 0, _ => none
  | steps + 1, cs =>
    match key? cs.length cs with
    | some (key, '=' :: rest) =>
      match value? depth steps (rest.dropWhile isSpace) with
      | none => none
      | some (v, rest) =>
        match done.assign? v key, rest.dropWhile isSpace with
        | some done, ',' :: rest => entries? depth done steps rest
        | some done, '\x7d' :: rest => some (done, rest)
        | _, _ => none
    | _ => none

end

/-- How deep arrays and inline tables may be nested. -/
def nesting : Nat := 80

/-! ## Documents -/

/-- A document up to some line. -/
structure Progress where
  fields : Fields := []
  /-- The keys of the last header. -/
  header : List String := []
  deriving Repr

/-- Reads a line that is not empty, and gives what follows it. -/
def Progress.line? (p : Progress) (cs : List Char) : Option (Progress × List Char) :=
  match cs with
  | '[' :: '[' :: rest =>
    match key? rest.length rest with
    | some (key, ']' :: ']' :: rest) => do
      let fields ← p.fields.openItem? key
      return (⟨fields, key⟩, ← afterLine? rest)
    | _ => none
  | '[' :: rest =>
    match key? rest.length rest with
    | some (key, ']' :: rest) => do
      let fields ← p.fields.openTable? key
      return (⟨fields, key⟩, ← afterLine? rest)
    | _ => none
  | cs =>
    match key? cs.length cs with
    | some (key, '=' :: rest) => do
      let (v, rest) ← value? nesting (rest.length + 1) (rest.dropWhile isSpace)
      let fields ← p.fields.assignUnder? p.header key v
      return ({ p with fields := fields }, ← afterLine? rest)
    | _ => none

/-- Reads lines, at most `steps`. -/
def Progress.lines? : (steps : Nat) → Progress → List Char → Option Progress
  | 0, p, _ => some p
  | steps + 1, p, cs =>
    match afterGaps? cs.length cs with
    | none => none
    | some [] => some p
    | some rest =>
      match p.line? rest with
      | none => none
      | some (p, rest) => lines? steps p rest

/-- The fields of a document. A byte order mark may stand before it. -/
def parse? (text : String) : Option (List (String × Value)) :=
  let cs := text.toList
  let cs := if cs.head? == some '\ufeff' then cs.drop 1 else cs
  (Progress.lines? (cs.length + 1) {} cs).map fun p => Tree.toFields p.fields

end SparkTuner.Toml
