import SparkTuner.Error
import SparkTuner.KeyMap
import SparkTuner.Yaml.Node
import SparkTuner.Yaml.Value

/-!
# Records in YAML

How typed values are read from documents. A record is a mapping; fields that it does not have are
ignored, and its own may not be repeated. A value that is left out stands for a record or map
without entries. Aliases may be followed a hundred times for each event of the document, and
collections may be nested 128 deep.

The parts of a document are read in their order, so that the first fault is the one reported.
-/

namespace SparkTuner.Yaml

open Number

/-- Reading with the number of aliases that may still be followed. -/
abbrev Reading := StateT Nat (Except YamlError)

/-- Reading fails. -/
def malformed {α : Type} : Reading α := throw .malformed

/-- The result of a step that may fail. -/
def orMalformed {α : Type} : Option α → Reading α
  | some a => pure a
  | none => malformed

namespace Document

/-- The node that a node stands for: of an alias the one with the anchor. -/
def follow (d : Document) : Node → Reading Node
  | .alias anchor => do
    match ← get with
    | 0 => malformed
    | left + 1 =>
      set left
      orMalformed (d.node? anchor)
  | n => pure n

/-- Whether nothing is written where a value is expected. -/
def isLeftOut (style : Style) (text : String) : Bool := style = .plain && text.isEmpty

/-! ## Scalars -/

/-- The text of any scalar, as it is written. -/
def text (d : Document) (n : Node) : Reading String := do
  match ← d.follow n with
  | .scalar _ _ text => pure text
  | _ => malformed

/-- Whether a scalar may be a number: it is plain, or a literal one with the tag of the type. -/
def mayBeNumber (tag : Option String) (style : Style) (type : String) : Bool :=
  style = .plain || (style = .literal && tag == some (coreTag type))

/-- A 32-bit count. -/
def count32 (d : Document) (n : Node) : Reading Nat := do
  match ← d.follow n with
  | .scalar tag style text =>
    if mayBeNumber tag style "int" then
      orMalformed ((unsigned? text.toList).filter (· ≤ max32))
    else malformed
  | _ => malformed

/-- A binary64 number. -/
def real (d : Document) (n : Node) : Reading Float := do
  match ← d.follow n with
  | .scalar tag style text =>
    if mayBeNumber tag style "float" then orMalformed (real? text) else malformed
  | _ => malformed

/-- A value that may be absent. Only a plain scalar can say that it is. -/
def optional {α : Type} (d : Document) (read : Node → Reading α) (n : Node) :
    Reading (Option α) := do
  let n ← d.follow n
  match n with
  | .scalar tag .plain text =>
    match tag with
    | none => if text.isEmpty || isNull text then pure none else some <$> read n
    | some tag =>
      if tag == coreTag "null" then (if isNull text then pure none else malformed)
      else some <$> read n
  | _ => some <$> read n

/-! ## Collections -/

/-- Reads the entries of a record into `record`; `seen` are the names of the fields before. A field
that `field` does not know is ignored. -/
def fields {α : Type} (d : Document) (field : String → Option (α → Node → Reading α))
    (seen : List String) (record : α) : List (Node × Node) → Reading α
  | [] => pure record
  | (key, value) :: rest => do
    let name ← d.text key
    match field name with
    | none => if value.isWhole then fields d field seen record rest else malformed
    | some set =>
      if seen.contains name then malformed
      else
        let record ← set record value
        fields d field (name :: seen) record rest

/-- A record, from the one without entries. -/
def record {α : Type} (d : Document) (blank : α)
    (field : String → Option (α → Node → Reading α)) (n : Node) : Reading α := do
  match ← d.follow n with
  | .scalar _ style text => if isLeftOut style text then pure blank else malformed
  | .mapping _ entries => d.fields field [] blank entries
  | _ => malformed

/-- Any value, nested at most `depth` deep. -/
def value (d : Document) : (depth : Nat) → Node → Reading Value
  | depth, n => do
    match ← d.follow n with
    | .scalar tag style text => orMalformed (Value.ofScalar? tag style text)
    | .sequence tag items =>
      match depth with
      | 0 => malformed
      | depth + 1 =>
        let items ← items.mapM (value d depth)
        orMalformed ((Value.sequence items).withTag? tag)
    | .mapping tag entries =>
      match depth with
      | 0 => malformed
      | depth + 1 =>
        let step (done : List (Value × Value)) (e : Node × Node) :
            Reading (List (Value × Value)) := do
          let key ← value d depth e.1
          if done.any fun p => p.1.same key then malformed
          else
            let value ← value d depth e.2
            pure ((key, value) :: done)
        let done ← entries.foldlM step []
        orMalformed ((Value.mapping done.reverse).withTag? tag)
    | .alias _ | .cut => malformed

/-- The values of a map, in their order. -/
def mapEntries (d : Document) (depth : Nat) (entries : List (Node × Node)) :
    Reading (List (String × Value)) :=
  entries.mapM fun e => do
    let key ← d.text e.1
    let value ← d.value depth e.2
    pure (key, value)

/-- The texts of the values in a map; none of them may be anything else than a text, a number or a
truth value. Of repeated keys the last value counts. -/
def scalarTexts (values : KeyMap Value) : Except YamlError (KeyMap String) :=
  match values.toList.find? fun e => e.2.scalarText?.isNone with
  | some e => .error (.notScalar e.1)
  | none => .ok (values.map fun v => v.scalarText?.getD "")

/-- A map whose values are texts, numbers or truth values, nested at most `depth` deep while that is
not known. -/
def scalarMap (d : Document) (depth : Nat) (n : Node) : Reading (KeyMap String) := do
  match ← d.follow n with
  | .scalar _ style text => if isLeftOut style text then pure .empty else malformed
  | .mapping _ entries => scalarTexts (.ofList (← d.mapEntries depth entries))
  | _ => malformed

/-! ## Documents -/

/-- Reads a document; one that has no node has the value `blank`. -/
def read {α : Type} (d : Document) (blank : α) (node : Node → Reading α) : Except YamlError α :=
  match d.root with
  | none => .ok blank
  | some root =>
    match (node root).run' (100 * d.size) with
    | .error e => .error e
    | .ok a => if d.isAlone then .ok a else .error .malformed

end Document

end SparkTuner.Yaml
