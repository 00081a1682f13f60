import SparkTuner.Text.Blank
import SparkTuner.Version.Semantic

/-!
# Engine versions

The version of the engine an application ran on. Vendors append suffixes of their own, so a text
that is no semantic version is read by its leading numbers. Rules never look at the text again:
they ask the three numbers.
-/

namespace SparkTuner

open Number Text

namespace Version

/-- The decimal digits (of any script) a text starts with, and what follows them. -/
def leadingDecimals (cs : List Char) : List Char × List Char :=
  (cs.takeWhile isDecimalDigit, cs.dropWhile isDecimalDigit)

/-- A digit run as a 64-bit number; digits that are not ASCII have no value. -/
def word? (cs : List Char) : Option Nat := (readDigits? cs).filter (· ≤ max64)

/-- The leading numbers of a text: two dotted digit runs, and a third one that counts as zero when
it is missing or no 64-bit number. -/
def leading? (cs : List Char) : Option Triple :=
  match leadingDecimals cs with
  | (major, '.' :: rest) =>
    let (minor, rest) := leadingDecimals rest
    let patch :=
      match rest with
      | '.' :: rest => (word? (leadingDecimals rest).1).getD 0
      | _ => 0
    match word? major, word? minor with
    | some major, some minor => some ⟨major, minor, patch⟩
    | _, _ => none
  | _ => none

end Version

/-- An engine version: its text and its three numbers. -/
structure EngineVersion where
  /-- The text without blanks around it. -/
  text : String
  triple : Version.Triple
  deriving Repr, DecidableEq

namespace EngineVersion

/-- The version a text names. -/
def parse? (text : String) : Option EngineVersion :=
  let cs := trim text.toList
  ((Version.semantic? cs).or (Version.leading? cs)).map (⟨String.ofList cs, ·⟩)

/-- Whether the numbers are at least the given ones, the earlier number deciding. -/
def atLeast (v : EngineVersion) (major minor patch : Nat) : Bool :=
  major < v.triple.major ||
    (v.triple.major == major &&
      (minor < v.triple.minor || (v.triple.minor == minor && patch ≤ v.triple.patch)))

/-- The three numbers written one after the other, as shuffle managers are tagged. -/
def tag (v : EngineVersion) : String :=
  Nat.repr v.triple.major ++ Nat.repr v.triple.minor ++ Nat.repr v.triple.patch

end EngineVersion

/-- How adaptive execution is told to merge small partitions. -/
inductive Coalescing where
  /-- By the number of partitions to keep. -/
  | byCount
  /-- By the least size of a partition. -/
  | bySize
  deriving Repr, DecidableEq

/-- Partitions are merged by size from version 3.2.0 on. -/
def EngineVersion.coalescing (v : EngineVersion) : Coalescing :=
  if v.atLeast 3 2 0 then .bySize else .byCount

end SparkTuner
