import SparkTuner.KeyMap
import SparkTuner.Ledger.Entry
import SparkTuner.Number.Fixed
import SparkTuner.Property.Definition
import SparkTuner.Size

/-!
# The ledger

All recommendations of a run are written to a ledger: one entry for each key, and a list of
comments. The operations are data (`Op`), so that a run is the list of what was written, and rules
can write only what an operation allows:

* a key to be skipped gets no recommendation and no comment;
* a value given by the user is kept against every later recommendation;
* a recommendation is explained once, and a caveat registered for a key is given once.
-/

namespace SparkTuner

open Number

/-- Keys with a rule of their own. -/
structure KeyPolicy where
  /-- Keys not to be touched. -/
  skip : List String := []
  /-- Keys that get their default value at most, never a computed one. -/
  limited : List String := []
  deriving Repr, DecidableEq

/-- The state of a run. -/
structure Ledger where
  /-- The source properties. -/
  source : KeyMap String
  policy : KeyPolicy
  entries : KeyMap Entry := .empty
  /-- Comments given together with a recommendation for a key. -/
  caveats : KeyMap String := .empty
  /-- Everything said so far, the first comment first. -/
  comments : List String := []
  deriving Repr, DecidableEq

namespace Ledger

/-- The ledger at the start of a run. -/
def start (source : KeyMap String) (policy : KeyPolicy) : Ledger := { source, policy }

/-! ## Reading -/

/-- Whether a key is not to be touched. -/
def isSkipped (l : Ledger) (key : String) : Bool := l.policy.skip.contains key

/-- Whether a computed value may be recommended for a key. -/
def isComputable (l : Ledger) (key : String) : Bool := !l.policy.limited.contains key

/-- The entry of a key. -/
def entry? (l : Ledger) (key : String) : Option Entry := l.entries.get? key

/-- The entry a key has before anything is said about it. -/
def freshEntry (l : Ledger) (key : String) : Entry :=
  { given := l.source.get? key, skipped := l.isSkipped key }

/-- The entry of a key, a fresh one if it has none. -/
def entryOf (l : Ledger) (key : String) : Entry := (l.entry? key).getD (l.freshEntry key)

/-- Whether the value of a key was given by the user. -/
def isEnforced (l : Ledger) (key : String) : Bool := (l.entry? key).any (·.enforced)

/-- The value recommended for a key so far. -/
def recommended? (l : Ledger) (key : String) : Option String :=
  match l.entry? key with
  | some e => if e.unresolved || e.skipped then none else e.recommended
  | none => none

/-- The value of a key that rules go by: what the ledger says, else the source. -/
def get? (l : Ledger) (key : String) : Option String :=
  match l.entry? key with
  | some e => if e.skipped then l.source.get? key else e.current?
  | none => l.source.get? key

/-- The value of a key that rules go by, the engine's default if there is none. -/
def getOrDefault? (l : Ledger) (key : String) : Option String :=
  (l.get? key).or (defaultValue? key)

/-! ## Writing -/

/-- Sets the entry of a key. -/
def setEntry (l : Ledger) (key : String) (e : Entry) : Ledger :=
  { l with entries := l.entries.insert key e }

/-- Adds a comment at the end. -/
def say (l : Ledger) (comment : String) : Ledger := { l with comments := l.comments ++ [comment] }

/-- Adds comments at the end. -/
def sayAll (l : Ledger) (comments : List String) : Ledger :=
  { l with comments := l.comments ++ comments }

/-- Opens an entry for a key that the source sets. -/
def seed (l : Ledger) (key : String) : Ledger :=
  if l.source.contains key then l.setEntry key (l.entryOf key) else l

/-- What is said of a value given by the user. -/
def enforcedComment (key : String) : String :=
  "'" ++ key ++ "' was user-enforced in the target cluster properties."

/-- Fixes the value of a key to the user's. -/
def enforce (l : Ledger) (key value : String) : Ledger :=
  if l.isSkipped key then l
  else
    let e := l.entryOf key
    let l := l.setEntry key
      { e with enforced := true, recommended := some value, unresolved := false, explained := true }
    if e.enforced then l else l.say (enforcedComment key)

/-- Registers a comment that goes with every recommendation for a key. -/
def registerCaveat (l : Ledger) (key comment : String) : Ledger :=
  { l with caveats := l.caveats.insert key comment }

/-- Gives the caveat registered for a key, unless it was given before. -/
def giveCaveat (l : Ledger) (key : String) : Ledger :=
  match l.caveats.get? key with
  | none => l
  | some comment =>
    let e := l.entryOf key
    if e.caveatGiven then l
    else (l.setEntry key { e with caveatGiven := true }).say comment

/-- The explanation that a recommendation calls for. -/
def explanation? (e : Entry) (key value : String) : Option String :=
  if e.explained then none
  else
    match e.given with
    | none => some (missingComment key)
    | some old => if old = value then none else updateComment? key

/-- Recommends a value for a key. A value given by the user stays, but the caveat is given. -/
def recommend (l : Ledger) (key value : String) : Ledger :=
  if l.isSkipped key then l
  else if l.isEnforced key then l.giveCaveat key
  else
    let e := l.entryOf key
    let why := explanation? e key value
    let e := { e with
      recommended := some value, unresolved := false, explained := e.explained || why.isSome }
    ((l.setEntry key e).sayAll why.toList).giveCaveat key

/-- Adds a comment about a key whose value cannot be computed. -/
def refuse (l : Ledger) (key comment : String) : Ledger :=
  if l.isSkipped key then l
  else
    let e := l.entryOf key
    (l.say comment).setEntry key (if e.enforced then e else { e with unresolved := true })

/-- Adds a comment about a key and leaves its value alone. -/
def remark (l : Ledger) (key comment : String) : Ledger :=
  if l.isSkipped key then l else l.say comment

/-- Makes a key one whose value is missing, even if the user gave one. -/
def invalidate (l : Ledger) (key : String) : Ledger :=
  if l.isSkipped key then l
  else
    l.setEntry key
      { l.entryOf key with unresolved := true, recommended := none, enforced := false }

/-- Adds a comment unless it has been made. -/
def sayOnce (l : Ledger) (comment : String) : Ledger :=
  if l.comments.contains comment then l else l.say comment

end Ledger

/-! ## Values to recommend -/

/-- A computed value. Numbers that are not positive are never recommended. -/
inductive Computed where
  | text (value : String)
  /-- A size in MiB. -/
  | mib (size : Int)
  | count (n : Int)
  | fraction (share : Exact)
  deriving Repr, DecidableEq

/-- The text of a computed value; none for a number that is not positive. -/
def Computed.text? : Computed → Option String
  | .text value => some value
  | .mib size => if 0 < size then some (Size.ofMib size.toNat) else none
  | .count n => if 0 < n then some (Nat.repr n.toNat) else none
  | .fraction share => if share.isPositive then some (fractionText share) else none

/-! ## Operations as data -/

/-- What can be written to a ledger. -/
inductive Ledger.Op where
  | seed (key : String)
  | enforce (key value : String)
  | registerCaveat (key comment : String)
  | recommend (key value : String)
  | refuse (key comment : String)
  | remark (key comment : String)
  | invalidate (key : String)
  | say (comment : String)
  | sayOnce (comment : String)
  deriving Repr, DecidableEq

namespace Ledger

/-- The key an operation is about. -/
def Op.key? : Op → Option String
  | .seed key | .enforce key _ | .registerCaveat key _ | .recommend key _ | .refuse key _
  | .remark key _ | .invalidate key => some key
  | .say _ | .sayOnce _ => none

/-- The ledger after an operation. -/
def apply (l : Ledger) : Op → Ledger
  | .seed key => l.seed key
  | .enforce key value => l.enforce key value
  | .registerCaveat key comment => l.registerCaveat key comment
  | .recommend key value => l.recommend key value
  | .refuse key comment => l.refuse key comment
  | .remark key comment => l.remark key comment
  | .invalidate key => l.invalidate key
  | .say comment => l.say comment
  | .sayOnce comment => l.sayOnce comment

/-- The ledger after a list of operations. -/
def run (l : Ledger) (ops : List Op) : Ledger := ops.foldl apply l

/-- Whether a recommendation for a key would be taken. -/
def accepts (l : Ledger) (key : String) : Bool := !l.isSkipped key && !l.isEnforced key

theorem run_append (l : Ledger) (ops more : List Op) :
    l.run (ops ++ more) = (l.run ops).run more := List.foldl_append

end Ledger

end SparkTuner
