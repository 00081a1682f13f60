import SparkTuner.Number.Numeral
import SparkTuner.Text.Blank
import SparkTuner.Text.Cut

/-!
# Plugin versions

A plugin version is a dotted list of 32-bit numbers of any length. Missing numbers at its end count
as zero, so `24.08` and `24.08.0` are the same version written in two ways.
-/

namespace SparkTuner

open Number Text

/-- A version of the accelerator plugin. -/
structure PluginVersion where
  /-- The text without blanks around it. -/
  text : String
  /-- Its numbers, most significant first. -/
  numbers : List Nat
  deriving Repr, DecidableEq

namespace PluginVersion

/-- The version a text names. -/
def parse? (text : String) : Option PluginVersion :=
  let cs := trim text.toList
  ((parts '.' cs).mapM (readUpTo? max32)).map (⟨String.ofList cs, ·⟩)

/-- Compares two lists of numbers as if zeros followed the shorter one. -/
def compareNumbers : List Nat → List Nat → Ordering
  | [], [] => .eq
  | a :: as, [] => (compare a 0).then (compareNumbers as [])
  | [], b :: bs => (compare 0 b).then (compareNumbers [] bs)
  | a :: as, b :: bs => (compare a b).then (compareNumbers as bs)

/-- The order of versions: the first number that differs decides. -/
def compare (v w : PluginVersion) : Ordering := compareNumbers v.numbers w.numbers

/-- Whether the versions are the same apart from zeros at their ends. -/
def same (v w : PluginVersion) : Bool := v.compare w == .eq

/-- Versions from the oldest to the newest; equal ones stay in their order. -/
def sorted (vs : List PluginVersion) : List PluginVersion :=
  vs.mergeSort fun v w => (v.compare w).isLE

end PluginVersion

end SparkTuner
