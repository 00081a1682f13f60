import SparkTuner.Proofs.Rules.Unseen

/-!
# Lines said before the rules

A rule goes by values, never by what was said. It does not see lines that were said before it
(`Rule.unseen_prefaced`): they stay in front of what it says, as long as none of them is a line that
the rule makes sure to say once. That one it would then leave out.
-/

namespace SparkTuner

open Ledger Number

namespace Ledger

variable {lines : List String}

/-- The ledger with lines said before all others. -/
def prefaced (lines : List String) (l : Ledger) : Ledger :=
  { l with comments := lines ++ l.comments }

theorem isCarried_prefaced : IsCarried (prefaced lines) where
  entries _ := rfl
  policy _ := rfl
  caveats _ := rfl
  setEntry _ _ _ := rfl
  sayAll l cs := by simp [sayAll, prefaced]
  registerCaveat _ _ _ := rfl

end Ledger

namespace State

variable {lines : List String}

/-- The state with lines said before all others. -/
def prefaced (lines : List String) (s : State) : State :=
  { s with ledger := s.ledger.prefaced lines }

@[simp] theorem ledger_prefaced (s : State) :
    (s.prefaced lines).ledger = s.ledger.prefaced lines := rfl

@[simp] theorem staysInWords_prefaced (s : State) :
    (s.prefaced lines).staysInWords = s.staysInWords := rfl

end State

namespace Rule

variable {K : Type} [Quantity K] {ctx : Context K} {lines : List String}

/-- A rule does not see lines said before it, if it would say none of them once. -/
theorem unseen_prefaced {r : Rule} (hlines : ∀ c ∈ lines, ¬Writes ctx r (.sayOnce c)) :
    Unseen ctx r (Ledger.prefaced lines) where
  carried := isCarried_prefaced
  source _ _ _ := rfl
  written _ _ _ _ _ := rfl
  said c hc l := by
    have hnew : c ∉ lines := fun hmem => hlines c hmem hc
    simp [Ledger.prefaced, hnew]

theorem applyAll_prefaced {rules : List Rule}
    (hlines : ∀ r ∈ rules, ∀ c ∈ lines, ¬Writes ctx r (.sayOnce c)) (s : State) :
    applyAll ctx rules (s.prefaced lines) = (applyAll ctx rules s).prefaced lines :=
  applyAll_of_unseen (fun r hr => unseen_prefaced (hlines r hr)) s

end Rule

end SparkTuner
