/-!
# Log output

How much a run logs: more for each time the user asks for more output, or what a filter says.
-/

namespace SparkTuner.CommandLine

/-- The level of the log for a verbosity. -/
def logLevel : (verbose : Nat) → String
  | 0 => "info"
  | 1 => "debug"
  | 2 => "trace"
  | _ => "trace,hyper=debug,reqwest=debug"

/-- The filter of the log: the one that is given, or the level. -/
def logFilter (verbose : Nat) (filter : Option String) : String := filter.getD (logLevel verbose)

end SparkTuner.CommandLine
