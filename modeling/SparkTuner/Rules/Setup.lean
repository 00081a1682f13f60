import SparkTuner.Rules.Context

/-!
# Opening a run

Every known key that the application sets gets an entry, the user's values are fixed, and the gaps
of the source cluster are explained.
-/

namespace SparkTuner.Rules

variable {K : Type}

/-- Opens an entry for each known key that the application sets. -/
def seed (s : State) : State := s.write (Definition.all.map fun d => .seed d.key)

/-- Fixes the values given by the user. -/
def enforce (ctx : Context K) (s : State) : State :=
  s.write (ctx.enforced.toList.map fun (key, value) => .enforce key value)

/-- Explains the gaps of the source cluster. -/
def clusterDefaults (ctx : Context K) (s : State) : State :=
  s.write (ctx.clusterComments.map .sayOnce)

end SparkTuner.Rules
