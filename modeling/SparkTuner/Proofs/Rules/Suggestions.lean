import SparkTuner.Proofs.Ledger.Reported
import SparkTuner.Proofs.Rules.Frame

/-!
# Lists of suggestions

Most rules suggest computed values for different keys, one after the other. A key that nobody
touched shows the value that is suggested for it at the end of the list
(`State.chosen?_suggestAll`), and every other key is left alone.
-/

namespace SparkTuner

open Ledger Number

namespace State

variable {s t : State} {key : String} {value : Computed} {values : List (String × Computed)}

/-- The state after a list of suggestions. -/
def suggestAll (s : State) (values : List (String × Computed)) : State :=
  values.foldl (fun s p => s.suggest p.1 p.2) s

theorem suggestAll_append (s : State) (values more : List (String × Computed)) :
    s.suggestAll (values ++ more) = (s.suggestAll values).suggestAll more :=
  List.foldl_append

theorem Reaches.suggestAll {keys : List String} (h : s.Reaches (IsAbout keys) t)
    (hkeys : values.map Prod.fst ⊆ keys) : s.Reaches (IsAbout keys) (t.suggestAll values) := by
  induction values generalizing t with
  | nil => exact h
  | cons p values ih =>
    have hfirst := (admits_isAbout s keys).suggest h p.1 (hkeys List.mem_cons_self) p.2
    exact ih hfirst fun key hkey => hkeys (List.mem_cons_of_mem _ hkey)

theorem suggestAll_reaches (values : List (String × Computed)) (s : State) :
    s.Reaches (IsAbout (values.map Prod.fst)) (s.suggestAll values) :=
  (Reaches.refl s).suggestAll (List.Subset.refl _)

theorem account_suggestAll (h : key ∉ values.map Prod.fst) :
    (s.suggestAll values).ledger.account key = s.ledger.account key :=
  (suggestAll_reaches values s).account_of_not_mem h

/-- A key that nobody touched gets the value that is suggested, if there is one. -/
theorem chosen?_suggest (huntouched : (s.ledger.account key).IsUntouched (s.ledger.freshEntry key))
    (hskip : s.ledger.isSkipped key = false) (hlimited : s.ledger.isComputable key = true)
    (value : Computed) :
    ((s.suggest key value).ledger.account key).chosen? = value.text? := by
  rw [suggest, ledger_write, Ledger.suggest, if_pos hlimited]
  cases value.text? with
  | none => exact huntouched.chosen? rfl
  | some text =>
    rw [Option.toList_some, List.map_singleton, run_cons]
    show (((s.ledger.apply (.recommend key text))).account key).chosen? = some text
    rw [account_apply_self _ rfl]
    exact huntouched.chosen?_after_recommend rfl hskip key text

/-- Of values for different keys, each comes to its key. -/
theorem chosen?_suggestAll (hmem : (key, value) ∈ values)
    (hkeys : (values.map Prod.fst).Nodup)
    (huntouched : (s.ledger.account key).IsUntouched (s.ledger.freshEntry key))
    (hskip : s.ledger.isSkipped key = false) (hlimited : s.ledger.isComputable key = true) :
    ((s.suggestAll values).ledger.account key).chosen? = value.text? := by
  obtain ⟨before, later, rfl⟩ := List.append_of_mem hmem
  rw [List.map_append, List.map_cons] at hkeys
  obtain ⟨-, hlater, hbefore⟩ := List.nodup_append.1 hkeys
  have hlater' : key ∉ later.map Prod.fst := (List.nodup_cons.1 hlater).1
  have hbefore' : key ∉ before.map Prod.fst :=
    fun hmem => hbefore key hmem key List.mem_cons_self rfl
  have hreach := suggestAll_reaches before s
  have hskip' : (s.suggestAll before).ledger.isSkipped key = false := by
    rw [isSkipped, hreach.policy]
    exact hskip
  have hlimited' : (s.suggestAll before).ledger.isComputable key = true := by
    rw [isComputable, hreach.policy]
    exact hlimited
  have huntouched' : ((s.suggestAll before).ledger.account key).IsUntouched
      ((s.suggestAll before).ledger.freshEntry key) := by
    rw [account_suggestAll hbefore', hreach.freshEntry]
    exact huntouched
  have hsplit : s.suggestAll (before ++ (key, value) :: later) =
      ((s.suggestAll before).suggest key value).suggestAll later := by
    rw [suggestAll_append]
    rfl
  rw [hsplit, account_suggestAll hlater']
  exact chosen?_suggest huntouched' hskip' hlimited' value

end State

end SparkTuner
