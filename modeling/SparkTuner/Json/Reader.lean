import SparkTuner.Json.Token

/-!
# Reading JSON

Values are put together from tokens with a stack of the arrays and objects that are still open.
-/

namespace SparkTuner.Json

/-- An array or object that is still open. Its parts so far are kept backwards. -/
inductive Frame where
  | items (done : List Json)
  /-- An object whose field `key` is being read. -/
  | fields (done : List (Option String × Json)) (key : Option String)
  deriving Repr

/-- What may come next. -/
inductive Expectation where
  | value
  /-- The first item of an array, or its end. -/
  | firstItem
  /-- The first key of an object, or its end. -/
  | firstKey
  /-- A key of the object with these fields. -/
  | key (done : List (Option String × Json))
  /-- The colon after a key of the object with these fields. -/
  | colon (done : List (Option String × Json)) (key : Option String)
  /-- What may follow a value that is complete. -/
  | after (v : Json)
  deriving Repr

/-- How far the reading got: the open arrays and objects, the innermost first. -/
structure Progress where
  stack : List Frame
  next : Expectation
  deriving Repr

/-- Opens what a token opens, or completes a value. -/
def Progress.start? (stack : List Frame) : Token → Option Progress
  | .scalar v => some ⟨stack, .after v⟩
  | .openArray => some ⟨stack, .firstItem⟩
  | .openObject => some ⟨stack, .firstKey⟩
  | _ => none

/-- A value as a key. -/
def key? : Json → Option (Option String)
  | .string s => some s
  | _ => none

/-- What follows a complete value. -/
def Progress.follow? (v : Json) : List Frame → Token → Option Progress
  | .items done :: stack, .comma => some ⟨.items (v :: done) :: stack, .value⟩
  | .items done :: stack, .closeArray => some ⟨stack, .after (.array (v :: done).reverse)⟩
  | .fields done key :: stack, .comma => some ⟨stack, .key ((key, v) :: done)⟩
  | .fields done key :: stack, .closeObject =>
    some ⟨stack, .after (.object ((key, v) :: done).reverse)⟩
  | _, _ => none

/-- The progress after one more token. -/
def Progress.step? (p : Progress) (t : Token) : Option Progress :=
  match p.next, t with
  | .value, t => start? p.stack t
  | .firstItem, .closeArray => some ⟨p.stack, .after (.array [])⟩
  | .firstItem, t => start? (.items [] :: p.stack) t
  | .firstKey, .closeObject => some ⟨p.stack, .after (.object [])⟩
  | .firstKey, .scalar v => (key? v).map fun k => ⟨p.stack, .colon [] k⟩
  | .firstKey, _ => none
  | .key done, .scalar v => (key? v).map fun k => ⟨p.stack, .colon done k⟩
  | .key _, _ => none
  | .colon done k, .colon => some ⟨.fields done k :: p.stack, .value⟩
  | .colon .., _ => none
  | .after v, t => follow? v p.stack t

/-- The value that a list of tokens spells. -/
def ofTokens? (ts : List Token) : Option Json :=
  match ts.foldlM Progress.step? ⟨[], .value⟩ with
  | some ⟨[], .after v⟩ => some v
  | _ => none

/-- The value that a text spells. -/
def parse? (text : String) : Option Json := (tokens? .between text.toList).bind ofTokens?

end SparkTuner.Json
