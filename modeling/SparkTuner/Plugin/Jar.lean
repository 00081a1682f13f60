import SparkTuner.Plugin.Version
import SparkTuner.Text.Digit

/-!
# Plugin jars

A classpath entry holds the plugin if it ends in a file name of the form
`rapids-4-spark_<digits>.<digits>-<version>[-<classifier>].jar`, where the version has two digits,
two digits and one or more digits. The name may follow anything, and the digits may be of any
script.
-/

namespace SparkTuner

namespace PluginJar

open Text

/-- How the file name starts. -/
def stem : List Char := "rapids-4-spark_".toList

/-- How the file name ends. -/
def extension : List Char := ".jar".toList

/-- The characters of a classifier. -/
def isClassifierChar (c : Char) : Bool := c.isAlphanum || c == '_' || c == '.'

/-- Splits a nonempty run of decimal digits from a text. -/
def digits? (cs : List Char) : Option (List Char × List Char) :=
  match cs.takeWhile isDecimalDigit with
  | [] => none
  | run => some (run, cs.dropWhile isDecimalDigit)

/-- Splits exactly two decimal digits from a text. -/
def twoDigits? : List Char → Option (List Char × List Char)
  | a :: b :: rest =>
    if isDecimalDigit a && isDecimalDigit b then some ([a, b], rest) else none
  | _ => none

/-- Splits the Scala version and the hyphen after it from a text; only what follows is kept. -/
def afterScala? (cs : List Char) : Option (List Char) :=
  match digits? cs with
  | some (_, '.' :: rest) =>
    match digits? rest with
    | some (_, '-' :: rest) => some rest
    | _ => none
  | _ => none

/-- Splits a plugin version from a text. -/
def version? (cs : List Char) : Option (List Char × List Char) :=
  match twoDigits? cs with
  | some (year, '.' :: rest) =>
    match twoDigits? rest with
    | some (month, '.' :: rest) =>
      (digits? rest).map fun (patch, rest) => (year ++ '.' :: month ++ '.' :: patch, rest)
    | _ => none
  | _ => none

/-- Whether a text is an optional classifier and the extension. -/
def isEnd (cs : List Char) : Bool :=
  cs == extension ||
    match cs with
    | '-' :: rest =>
      let classifier := rest.take (rest.length - extension.length)
      extension.isSuffixOf rest && !classifier.isEmpty && classifier.all isClassifierChar
    | _ => false

/-- The version in a text that is a plugin's file name. -/
def ofName? (cs : List Char) : Option (List Char) :=
  match after? stem cs with
  | none => none
  | some rest =>
    match (afterScala? rest).bind version? with
    | some (version, rest) => if isEnd rest then some version else none
    | none => none

/-- The version in a text that ends in a plugin's file name. -/
def find? : List Char → Option (List Char)
  | [] => none
  | c :: cs => (ofName? (c :: cs)).or (find? cs)

end PluginJar

/-- Whether a classpath entry holds the plugin. -/
def isPluginJar (entry : String) : Bool := (PluginJar.find? (Text.trim entry.toList)).isSome

/-- The plugin version a classpath entry names. -/
def pluginJarVersion? (entry : String) : Option PluginVersion :=
  (PluginJar.find? (Text.trim entry.toList)).bind fun cs => PluginVersion.parse? (String.ofList cs)

end SparkTuner
