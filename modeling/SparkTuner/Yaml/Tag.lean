import SparkTuner.Number.Numeral
import SparkTuner.Yaml.Scalar.Quoted
import SparkTuner.Yaml.Token

/-!
# Tags, anchors and directives

A tag is written out between angle brackets, or shortened by a handle: an exclamation mark, two of
them, or a word between two of them. Characters that may not stand in a tag are written as the
octets of their UTF-8 form.
-/

namespace SparkTuner.Yaml

/-- Characters of a tag; flow marks only where it is written out. -/
def isTagCharacter (full : Bool) (c : Char) : Bool :=
  isWord c || ";/?:@&=+$.%!~*'()".toList.contains c || (full && ",[]".toList.contains c)

/-- The value of two hexadecimal digits behind a percent sign. -/
def octet? : List Char → Option (Nat × List Char)
  | '%' :: a :: b :: cs => (hexNumber? [a, b]).map (·, cs)
  | _ => none

/-- How many octets follow the first one of a character, and which part of the code it holds. -/
def leadOctet? (n : Nat) : Option (Nat × Nat) :=
  if n < 0x80 then some (0, n)
  else if 0xC0 ≤ n ∧ n < 0xE0 then some (1, n - 0xC0)
  else if 0xE0 ≤ n ∧ n < 0xF0 then some (2, n - 0xE0)
  else if 0xF0 ≤ n ∧ n < 0xF8 then some (3, n - 0xF0)
  else none

/-- Adds the parts of a code that the next octets hold. -/
def moreOctets? : Nat → Nat → List Char → Option (Nat × List Char)
  | 0, code, cs => some (code, cs)
  | count + 1, code, cs =>
    match octet? cs with
    | some (n, rest) =>
      if 0x80 ≤ n ∧ n < 0xC0 then moreOctets? count (64 * code + (n - 0x80)) rest else none
    | none => none

/-- The character that octets stand for, and what follows them. -/
def octets? (cs : List Char) : Option (Char × List Char) :=
  match octet? cs with
  | none => none
  | some (n, rest) =>
    match leadOctet? n with
    | none => none
    | some (count, code) =>
      (moreOctets? count code rest).map fun (code, rest) => (Char.ofNat code, rest)

/-- The characters of a tag, and what follows them. There are at most `steps` of them. -/
def tagCharacters? (full : Bool) : (steps : Nat) → List Char → Option (List Char × List Char)
  | _, [] => some ([], [])
  | 0, cs => some ([], cs)
  | steps + 1, c :: cs =>
    if !isTagCharacter full c then some ([], c :: cs)
    else if c == '%' then
      match octets? (c :: cs) with
      | none => none
      | some (d, rest) =>
        (tagCharacters? full steps rest).map fun (ds, rest) => (d :: ds, rest)
    else (tagCharacters? full steps cs).map fun (ds, rest) => (c :: ds, rest)

/-- A text of tag characters that is not empty. -/
def tagText? (full : Bool) (cs : List Char) : Option (String × List Char) :=
  match tagCharacters? full cs.length cs with
  | some (d :: ds, rest) => some (String.ofList (d :: ds), rest)
  | _ => none

/-- The word behind the exclamation mark of a handle, whether a second mark closes it, and what
follows. -/
def handleWord (cs : List Char) : List Char × Bool × List Char :=
  let word := cs.takeWhile isWord
  match cs.dropWhile isWord with
  | '!' :: rest => (word, true, rest)
  | rest => (word, false, rest)

/-- A tag behind its exclamation mark, and what follows it. -/
def tagName? (cs : List Char) : Option (TagName × List Char) :=
  match cs with
  | '<' :: cs =>
    match tagText? true cs with
    | some (text, '>' :: rest) => some (⟨"", text⟩, rest)
    | _ => none
  | cs =>
    match handleWord cs with
    | (word, true, rest) =>
      (tagText? false rest).map fun (suffix, rest) =>
        (⟨"!" ++ String.ofList word ++ "!", suffix⟩, rest)
    | (word, false, rest) =>
      (tagCharacters? false rest.length rest).map fun (more, rest) =>
        let suffix := String.ofList (word ++ more)
        (if suffix.isEmpty then ⟨"", "!"⟩ else ⟨"!", suffix⟩, rest)

/-- Whether a tag may end here: a gap follows, or a comma in a flow collection. -/
def endsTag (flow : Bool) (cs : List Char) : Bool := atGap cs || (flow && cs.head? == some ',')

/-- The name of an anchor or alias, and what follows it. -/
def anchorName? (cs : List Char) : Option (String × List Char) :=
  let name := cs.takeWhile isWord
  let rest := cs.dropWhile isWord
  let ends := atGap rest || (rest.head?.map "?:,]\x7d%@\x60".toList.contains).getD false
  if name ≠ [] ∧ ends then some (String.ofList name, rest) else none

/-! ## Directives -/

/-- A number of a version: at most nine digits. -/
def versionNumber? (cs : List Char) : Option (Nat × List Char) :=
  let digits := cs.takeWhile Char.isDigit
  if digits.length ≤ 9 then
    (Number.readDigits? digits).map (·, cs.dropWhile Char.isDigit)
  else none

/-- What a version directive says. -/
def versionDirective? (cs : List Char) : Option (Token × List Char) :=
  match versionNumber? cs with
  | some (major, '.' :: rest) =>
    (versionNumber? rest).map fun (minor, rest) => (.version major minor, rest)
  | _ => none

/-- What a handle directive says. -/
def handleDirective? (cs : List Char) : Option (Token × List Char) :=
  match cs with
  | '!' :: cs =>
    match handleWord cs with
    | (word, closed, rest) =>
      if (closed || word.isEmpty) && (rest.head?.map isSpace).getD false then
        match tagText? true (rest.dropWhile isSpace) with
        | some (text, rest) =>
          if atGap rest then
            some (.handle ("!" ++ String.ofList word ++ (if closed then "!" else "")) text, rest)
          else none
        | none => none
      else none
  | _ => none

/-- A directive behind its percent sign, and what follows its line. -/
def directive? (cs : List Char) : Option (Token × List Char) :=
  let name := String.ofList (cs.takeWhile isWord)
  let rest := cs.dropWhile isWord
  let directive :=
    if !atGap rest then none
    else if name == "YAML" then versionDirective? (rest.dropWhile isSpace)
    else if name == "TAG" then handleDirective? (rest.dropWhile isSpace)
    else none
  match directive with
  | none => none
  | some (token, rest) =>
    let rest := rest.dropWhile isSpace
    let rest := if rest.head? == some '#' then rest.dropWhile (!isBreak ·) else rest
    if atLineEnd rest then some (token, rest.drop 1) else none

end SparkTuner.Yaml
