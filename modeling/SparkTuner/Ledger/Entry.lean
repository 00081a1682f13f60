/-!
# Ledger entries

What the ledger knows about one key. Five independent facts decide what later rules read
(`current?`) and what the report says (`rendered?`).
-/

namespace SparkTuner

/-- What stands in the report for a value that could not be computed. -/
def placeholder : String := "[FILL_IN_VALUE]"

/-- Where a key ended up. -/
inductive Resolution where
  /-- A value is needed but none could be computed. -/
  | unresolved
  /-- The recommendation differs from the application's value. -/
  | tuned
  /-- The application's value is kept. -/
  | unchanged
  /-- The key is not to be touched. -/
  | skipped
  deriving Repr, DecidableEq

/-- The name of a resolution in listings. -/
def Resolution.name : Resolution → String
  | unresolved => "unresolved"
  | tuned => "tuned"
  | unchanged => "unchanged"
  | skipped => "skipped"

/-- What is known about one key. -/
structure Entry where
  /-- The value in the source properties. -/
  given : Option String
  /-- The value recommended last. -/
  recommended : Option String := none
  /-- Whether the recommendation was given by the user and stands against every rule. -/
  enforced : Bool := false
  /-- Whether the key is not to be touched. -/
  skipped : Bool
  /-- Whether a value is needed but could not be computed. -/
  unresolved : Bool := false
  /-- Whether the recommendation has been explained. -/
  explained : Bool := false
  /-- Whether the caveat registered for the key has been given. -/
  caveatGiven : Bool := false
  deriving Repr, DecidableEq

namespace Entry

/-- Where the key ended up. -/
def resolution (e : Entry) : Resolution :=
  if e.skipped then .skipped
  else if e.unresolved then .unresolved
  else
    match e.recommended, e.given with
    | some r, some o => if r = o then .unchanged else .tuned
    | some _, none => .tuned
    | none, some _ => .unchanged
    | none, none => .unresolved

/-- The value later rules go by; none while a value is needed but missing. -/
def current? (e : Entry) : Option String :=
  if e.unresolved then none else e.recommended.or e.given

/-- The value in the report; none for a key that is not reported. -/
def rendered? (e : Entry) : Option String :=
  match e.resolution with
  | .skipped => none
  | .unresolved => some placeholder
  | .tuned | .unchanged => e.current?

/-- Whether the entry says anything that the final result has to keep. -/
def isSubstantial (e : Entry) : Bool :=
  e.given.isSome || e.recommended.isSome || e.unresolved

end Entry

end SparkTuner
