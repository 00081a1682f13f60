import SparkTuner.Json.Reader
import SparkTuner.KeyMap

/-!
# Records in JSON

How typed values are read from JSON. A record is an object; fields that it does not have are
ignored, and its own may not be repeated. An array stands for a record too: its items are the fields
in their order, and missing ones at its end count as absent.
-/

namespace SparkTuner.Json

open Number

/-- A text. -/
def asText? : Json → Option String
  | .string s => s
  | _ => none

/-- A truth value. -/
def asBool? : Json → Option Bool
  | .bool b => some b
  | _ => none

/-- A count of at most `bound`. -/
def asCount? (bound : Nat) : Json → Option Nat
  | .number n => n.count? bound
  | _ => none

/-- A binary64 number. -/
def asFloat? : Json → Option Float
  | .number n => n.float?
  | _ => none

/-- A list. -/
def asList? {α : Type} (item : Json → Option α) : Json → Option (List α)
  | .array items => items.mapM item
  | _ => none

/-- A value that may be `null`. -/
def asOptional? {α : Type} (value : Json → Option α) : Json → Option (Option α)
  | .null => some none
  | j => (value j).map some

/-- A field whose key stands for text. -/
def pair? {α : Type} (value : Json → Option α) (field : Option String × Json) :
    Option (String × α) :=
  match field.1, value field.2 with
  | some k, some v => some (k, v)
  | _, _ => none

/-- A map; of repeated keys the last value stays. -/
def asMap? {α : Type} (value : Json → Option α) : Json → Option (KeyMap α)
  | .object fields => (fields.mapM (pair? value)).map KeyMap.ofList
  | _ => none

/-- The fields of a record that are present. -/
abbrev Fields := List (String × Json)

/-- The fields of a record with these field names. -/
def fields? (names : List String) : Json → Option Fields
  | .object fields =>
    match fields.mapM (pair? some) with
    | none => none
    | some all =>
      let own := all.filter fun f => names.contains f.1
      if (own.map (·.1)).Nodup then some own else none
  | .array items => if items.length ≤ names.length then some (names.zip items) else none
  | _ => none

/-- A field that may be absent. -/
def Fields.getD? {α : Type} (fs : Fields) (name : String) (read : Json → Option α)
    (default : α) : Option α :=
  match KeyMap.lookup? name fs with
  | none => some default
  | some j => read j

/-- A field that has to be present. -/
def Fields.need? {α : Type} (fs : Fields) (name : String) (read : Json → Option α) : Option α :=
  (KeyMap.lookup? name fs).bind read

/-- One of the values of an enumeration, by its name: the name alone, or as the key of an object
whose value is `null`. -/
def asName? {α : Type} (ofName : String → Option α) : Json → Option α
  | .string (some s) => ofName s
  | .object [(some s, .null)] => ofName s
  | _ => none

end SparkTuner.Json
