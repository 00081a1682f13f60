/-!
# TOML documents

A document is a table. While it is read, each of its tables remembers how it came to be, since that
decides whether more may be put into it: a table is opened by one header at most, and keys with dots
add only to tables that keys with dots have made. A header may still open a table that other headers
have only gone through.
-/

namespace SparkTuner.Toml

/-- A value. Numbers and dates are only checked, not kept. -/
inductive Value where
  | text (s : String)
  | bool (b : Bool)
  | number
  | date
  | array (items : List Value)
  | table (fields : List (String × Value))
  deriving Repr

/-- How a table came to be. -/
inductive Origin where
  /-- A header went through it. -/
  | implied
  /-- A header opened it. -/
  | header
  /-- A key with dots went through it. -/
  | dotted
  deriving Repr, DecidableEq

/-- A part of a document that is being read. -/
inductive Tree where
  | value (v : Value)
  | table (origin : Origin) (fields : List (String × Tree))
  /-- An array of tables that headers opened, the last first. -/
  | tables (items : List (List (String × Tree)))
  deriving Repr

/-- The fields of a table that is being read. -/
abbrev Fields := List (String × Tree)

namespace Fields

/-- The field with a key. -/
def get? (fields : Fields) (key : String) : Option Tree :=
  (fields.find? fun f => f.1 == key).map (·.2)

/-- Gives a key a value, instead of the one it may have. -/
def set (fields : Fields) (key : String) (t : Tree) : Fields :=
  if (fields.get? key).isSome then fields.map fun f => if f.1 == key then (key, t) else f
  else fields ++ [(key, t)]

/-- Puts a value under a key, which may have dots; none if that is not allowed. -/
def assign? (v : Value) : List String → Fields → Option Fields
  | [], _ => none
  | [key], fields => if (fields.get? key).isSome then none else some (fields.set key (.value v))
  | key :: more, fields =>
    match fields.get? key with
    | none => (assign? v more []).map fun inner => fields.set key (.table .dotted inner)
    | some (.table origin inner) =>
      if origin = .header ∨ (origin = .implied ∧ more.length = 1) then none
      else (assign? v more inner).map fun inner => fields.set key (.table origin inner)
    | some _ => none

/-- Goes to the last key of a header, through tables and the last items of arrays of tables, and
does `last` to what it names. -/
def goTo? (last : Option Tree → Option Tree) : List String → Fields → Option Fields
  | [], _ => none
  | [key], fields => (last (fields.get? key)).map (fields.set key)
  | key :: more, fields =>
    match fields.get? key with
    | none => (goTo? last more []).map fun inner => fields.set key (.table .implied inner)
    | some (.table origin inner) =>
      (goTo? last more inner).map fun inner => fields.set key (.table origin inner)
    | some (.tables (item :: before)) =>
      (goTo? last more item).map fun item => fields.set key (.tables (item :: before))
    | some _ => none

/-- Opens the table that a header names. -/
def openTable? : List String → Fields → Option Fields :=
  goTo? fun
    | none => some (.table .header [])
    | some (.table .implied inner) => some (.table .header inner)
    | some _ => none

/-- Opens the next table of the array that a header names. -/
def openItem? : List String → Fields → Option Fields :=
  goTo? fun
    | none => some (.tables [[]])
    | some (.tables items) => some (.tables ([] :: items))
    | some _ => none

/-- Puts a value under a key of the table that the last header opened. -/
def assignUnder? (header key : List String) (v : Value) (fields : Fields) : Option Fields :=
  match header with
  | [] => assign? v key fields
  | header =>
    let put : Option Tree → Option Tree
      | some (.table origin inner) => (assign? v key inner).map (.table origin)
      | some (.tables (item :: before)) =>
        (assign? v key item).map fun item => .tables (item :: before)
      | _ => none
    goTo? put header fields

end Fields

mutual

/-- The value of a part of a document. -/
def Tree.toValue : Tree → Value
  | .value v => v
  | .table _ fields => .table (toFields fields)
  | .tables items => .array (toItems items).reverse

/-- The fields of a table. -/
def Tree.toFields : List (String × Tree) → List (String × Value)
  | [] => []
  | (key, t) :: rest => (key, t.toValue) :: toFields rest

/-- The tables of an array. -/
def Tree.toItems : List (List (String × Tree)) → List Value
  | [] => []
  | fields :: rest => .table (toFields fields) :: toItems rest

end

end SparkTuner.Toml
