import SparkTuner.Proofs.Rules.Unseen

/-!
# Sources cut down to some keys

Of the source, a ledger reads what it has for the key that an operation is about. A rule that goes
by none of the other keys does not see that the source is cut down to some of them
(`Rule.unseen_restricted`).
-/

namespace SparkTuner

open Ledger Number

namespace Ledger

variable {p : String → Bool}

/-- The ledger with a source that is cut down to the keys that `p` keeps. -/
def restricted (p : String → Bool) (l : Ledger) : Ledger :=
  { l with source := l.source.filter fun key _ => p key }

theorem isCarried_restricted : IsCarried (restricted p) where
  entries _ := rfl
  policy _ := rfl
  caveats _ := rfl
  setEntry _ _ _ := rfl
  sayAll _ _ := rfl
  registerCaveat _ _ _ := rfl

theorem get?_source_restricted {key : String} (hkey : p key = true) (l : Ledger) :
    (l.restricted p).source.get? key = l.source.get? key := by
  have hfilter : (l.restricted p).source.get? key = (l.source.get? key).filter fun _ => p key :=
    KeyMap.get?_filter ..
  rw [hfilter, hkey]
  cases l.source.get? key <;> rfl

end Ledger

namespace Rule

variable {K : Type} [Quantity K] {ctx : Context K} {p : String → Bool} {r : Rule} {op : Op}

theorem Writes.mem_concerns (h : Writes ctx r op) (henforce : r ≠ .enforce) {key : String}
    (hkey : op.key? = some key) : key ∈ r.concerns := by
  by_cases hseed : r = .seed
  · subst hseed
    cases h with
    | seed hd =>
      cases hkey
      exact List.mem_map_of_mem hd
    | recommend h => cases h
  · exact keys_subset_concerns r (h.mem_keys hseed henforce hkey)

theorem Writes.mem_enforced (h : Writes ctx .enforce op) {key : String}
    (hkey : op.key? = some key) : ∃ value, (key, value) ∈ ctx.enforced.toList := by
  cases h with
  | enforce h =>
    cases hkey
    exact ⟨_, h⟩
  | recommend h => cases h

/-- A rule does not see that the source is cut down, if the keys that it goes by are kept and those
that the user gives values. -/
theorem unseen_restricted (hp : ∀ key ∈ r.concerns, p key = true)
    (henforced : ∀ q ∈ ctx.enforced.toList, p q.1 = true) :
    Unseen ctx r (Ledger.restricted p) where
  carried := isCarried_restricted
  source key hkey := get?_source_restricted (hp key hkey)
  written op hop key hkey := by
    refine get?_source_restricted ?_
    by_cases henforce : r = .enforce
    · subst henforce
      obtain ⟨value, hmem⟩ := hop.mem_enforced hkey
      exact henforced _ hmem
    · exact hp key (hop.mem_concerns henforce hkey)
  said _ _ _ := rfl

end Rule

end SparkTuner
