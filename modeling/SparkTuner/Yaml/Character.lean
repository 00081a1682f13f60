/-!
# Characters of YAML

Which characters a document may hold, its line breaks, its blanks, and the marks that have a meaning
of their own. A text is prepared before it is read: all line breaks that count as one are written as
one.
-/

namespace SparkTuner.Yaml

/-- The mark that may begin a line. It stands for nothing, but what follows it is not in the first
column. -/
def byteOrderMark : Char := '\ufeff'

/-- Whether the character may stand in a document at all. -/
def isPrintable (c : Char) : Bool :=
  let n := c.toNat
  n == 0x9 || n == 0xA || n == 0xD || (0x20 ≤ n && n ≤ 0x7E) || n == 0x85 ||
    (0xA0 ≤ n && n ≤ 0xD7FF) || (0xE000 ≤ n && n ≤ 0xFFFD) || 0x10000 ≤ n

/-- The text with a line feed for every carriage return, next line mark, and carriage return with a
line feed behind it. -/
def unifyBreaks : List Char → List Char
  | [] => []
  | '\r' :: '\n' :: cs => '\n' :: unifyBreaks cs
  | c :: cs => (if c == '\r' || c == '\x85' then '\n' else c) :: unifyBreaks cs

/-- The characters of a text as they are read; none if one of them may not stand in a document. -/
def prepare? (text : List Char) : Option (List Char) :=
  if text.all isPrintable then some (unifyBreaks text) else none

/-- Blanks inside a line. -/
def isSpace (c : Char) : Bool := c == ' ' || c == '\t'

/-- Characters that end a line of a prepared text. -/
def isBreak (c : Char) : Bool := c == '\n' || c == '\u2028' || c == '\u2029'

/-- Characters that separate tokens. -/
def isGap (c : Char) : Bool := isSpace c || isBreak c

/-- Characters of anchors and tag handles. -/
def isWord (c : Char) : Bool := c.isAlphanum || c == '_' || c == '-'

/-- Marks that open, part or close flow collections. -/
def isFlowMark (c : Char) : Bool := [',', '[', ']', '\x7b', '\x7d'].contains c

/-- Marks that a plain scalar does not start with, as a rule. -/
def isMark (c : Char) : Bool := isFlowMark c || "-?:#&*!|>'\"%@\x60".toList.contains c

/-- Whether a gap or the end of the text follows. -/
def atGap : List Char → Bool
  | [] => true
  | c :: _ => isGap c

/-- Whether the line or the text ends here. -/
def atLineEnd : List Char → Bool
  | [] => true
  | c :: _ => isBreak c

/-- What follows the three marks of a document boundary. -/
def afterBoundary? (mark : Char) : List Char → Option (List Char)
  | a :: b :: c :: cs => if a == mark && b == mark && c == mark && atGap cs then some cs else none
  | _ => none

/-- Whether a document boundary stands here. -/
def atBoundary (cs : List Char) : Bool :=
  (afterBoundary? '-' cs).isSome || (afterBoundary? '.' cs).isSome

end SparkTuner.Yaml
