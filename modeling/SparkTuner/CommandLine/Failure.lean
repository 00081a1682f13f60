import SparkTuner.Error

/-!
# Failures of commands

A command that fails says what it was doing and what went wrong. Settings that are bad and targets
that contradict themselves are the user's to mend, which the exit code tells.
-/

namespace SparkTuner.CommandLine

/-- What went wrong. -/
inductive Cause where
  | refused (error : Error)
  /-- A file could not be read. -/
  | unreadable (error : FileError)
  /-- A file that is named is not there. -/
  | absent
  /-- A size leaves the 64-bit words. -/
  | overflow
  deriving Repr, DecidableEq

/-- The text of a cause. -/
def Cause.message : Cause → String
  | refused error => error.message
  | unreadable error => error.message
  | absent => "file not found"
  | overflow => "a size does not fit in 64 bits"

/-- Why a command failed. -/
structure Failure where
  /-- What the command was doing, if that has to be said. -/
  step : Option String := none
  cause : Cause
  deriving Repr, DecidableEq

namespace Failure

/-- The text shown to the user. -/
def message (f : Failure) : String :=
  match f.step with
  | some step => step ++ ": " ++ f.cause.message
  | none => f.cause.message

/-- What the process ends with. -/
def exitCode (f : Failure) : Nat :=
  match f.cause with
  | .refused (.config _) | .refused (.contradiction _) => 2
  | _ => 1

end Failure

/-- A result whose error says what was being done. -/
def during {α : Type} (step : String) (result : Except Error α) : Except Failure α :=
  result.mapError fun e => ⟨some step, .refused e⟩

/-- A result whose error speaks for itself. -/
def plainly {α : Type} (result : Except Error α) : Except Failure α :=
  result.mapError fun e => ⟨none, .refused e⟩

end SparkTuner.CommandLine
