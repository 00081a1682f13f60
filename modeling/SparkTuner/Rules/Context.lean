import SparkTuner.Cluster.Shape
import SparkTuner.Ledger.Recommendations
import SparkTuner.Memory.Budget
import SparkTuner.Release.Basic
import SparkTuner.Tool
import SparkTuner.Version.Engine

/-!
# What rules see and change

The rules of a run share a context that does not change, and hand on a state: the ledger, and the
memory budget once it was made. Rules reach the ledger through its operations only.
-/

namespace SparkTuner

open Number Text

/-- The inputs of a run that every rule can see. -/
structure Context (K : Type) where
  app : AppSummary K
  /-- The reasons in the driver log, if there is one. -/
  driverLog : Option (List String) := none
  platform : Platform
  tool : Tool
  /-- What explains the gaps of the source cluster. -/
  clusterComments : List String := []
  /-- Values given by the user. -/
  enforced : KeyMap String := .empty
  /-- The layout of executors, if it is known. -/
  shape : Option Shape := none
  /-- The engine's version, if it is known. -/
  engine : Option EngineVersion := none
  latest : LatestRelease := .notChecked
  deriving Repr

/-- What rules hand on. -/
structure State where
  ledger : Ledger
  /-- The memory budget, once one was made. -/
  memory : Option Memory.Budget := none
  /-- Whether every size so far fits a 64-bit word. -/
  staysInWords : Bool := true
  deriving Repr, DecidableEq

namespace State

/-- The state after operations on the ledger. -/
def write (s : State) (ops : List Ledger.Op) : State := { s with ledger := s.ledger.run ops }

@[simp] theorem memory_write (s : State) (ops : List Ledger.Op) :
    (s.write ops).memory = s.memory := rfl

@[simp] theorem ledger_write (s : State) (ops : List Ledger.Op) :
    (s.write ops).ledger = s.ledger.run ops := rfl

@[simp] theorem staysInWords_write (s : State) (ops : List Ledger.Op) :
    (s.write ops).staysInWords = s.staysInWords := rfl

end State

namespace Ledger

/-- Recommends the default of a key that the source leaves unset. -/
def suggestDefault (l : Ledger) (key : String) : List Op :=
  match l.source.get? key, defaultValue? key with
  | none, some value => [.recommend key value]
  | _, _ => []

/-- Recommends a computed value, for a limited key its default instead. -/
def suggest (l : Ledger) (key : String) (value : Computed) : List Op :=
  if l.isComputable key then value.text?.toList.map (.recommend key) else l.suggestDefault key

end Ledger

/-- Recommends a computed value, for a limited key its default instead. -/
def State.suggest (s : State) (key : String) (value : Computed) : State :=
  s.write (s.ledger.suggest key value)

/-- The cores of an executor when nothing tells them. -/
def defaultExecutorCores : Nat := 16

/-- The cores of an executor: the property if it is a positive count, else those of the layout. -/
def Context.executorCores {K : Type} (ctx : Context K) (l : Ledger) : Nat :=
  match ((l.get? Key.executorCores).bind fun v => readCount32? (trimmed v)).filter (0 < ·) with
  | some cores => cores
  | none => (ctx.shape.map (·.coresPerExecutor)).getD defaultExecutorCores

/-- Whether a value is the word `true`, in letters of either case. -/
def isTrue (value : String) : Bool := sameLetters (trimmed value) "true"

end SparkTuner
