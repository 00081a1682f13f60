import SparkTuner.Text.Blank
import SparkTuner.Text.Cut
import SparkTuner.Text.Letters

/-!
# GPU devices

The GPU models whose memory is known, and how they are named in cluster descriptions.
-/

namespace SparkTuner

open Text

/-- GPU models. -/
inductive Gpu where
  | t4
  | l4
  | a10
  | a10g
  | a100
  | h100
  | v100
  | p100
  | p4
  | k80
  deriving Repr, DecidableEq

namespace Gpu

/-- Every model. -/
def all : List Gpu := [t4, l4, a10, a10g, a100, h100, v100, p100, p4, k80]

/-- The model's own name. -/
def name : Gpu → String
  | t4 => "T4"
  | l4 => "L4"
  | a10 => "A10"
  | a10g => "A10G"
  | a100 => "A100"
  | h100 => "H100"
  | v100 => "V100"
  | p100 => "P100"
  | p4 => "P4"
  | k80 => "K80"

/-- Device memory. -/
def memoryMib : Gpu → Nat
  | t4 => 15109
  | l4 | a10 | a10g => 24576
  | a100 => 40960
  | h100 => 81920
  | v100 | p100 => 16384
  | p4 => 8192
  | k80 => 12288

/-- Whether the character separates the words of a device name. -/
def isSeparator (c : Char) : Bool := c == '-' || c == ' ' || c == '_'

/-- The last word of a device name: consoles write `nvidia-tesla-t4` or `NVIDIA A10G`. -/
def lastWord (cs : List Char) : List Char := (cs.reverse.takeWhile (!isSeparator ·)).reverse

/-- The model a description names, in letters of either case. -/
def parse? (text : String) : Option Gpu :=
  let word := String.ofList (lastWord ((trim text.toList).map Char.toUpper))
  all.find? fun gpu => gpu.name == word

/-- What is said of a name that stands for no model. -/
def unknown (text : String) : String := "Unknown GPU device: " ++ text

end Gpu

end SparkTuner
