import SparkTuner.Proofs.Ledger.Enforced

/-!
# What the report shows for a key

The report shows of a key what its account has at the end of the run (`value?_finish`). Three kinds
of account matter to the rules that come after the values of the user: one that is untouched, one
that was recommended a value once, and one that never gets more than the default of its key.
-/

namespace SparkTuner

open Ledger

/-- The operation only says something about its key, or gives the key its default, the source
leaving it unset. -/
def Ledger.Op.GivesDefault (given default? : Option String) : Op → Prop
  | .recommend _ value => given = none ∧ default? = some value
  | .registerCaveat _ _ | .remark _ _ | .say _ | .sayOnce _ => True
  | .seed _ | .enforce _ _ | .refuse _ _ | .invalidate _ => False

/-- The value that the report shows for a key, if the user or a rule gave it. -/
def Recommendations.chosen? (r : Recommendations) (key : String) : Option String :=
  (r.entries.get? key).bind fun e => if e.recommended.isSome then e.rendered? else none

/-- What is shown and is no placeholder is what rules go by. -/
theorem Entry.current?_of_rendered? {e : Entry} {value : String} (h : e.rendered? = some value)
    (hvalue : value ≠ placeholder) :
    e.skipped = false ∧ e.unresolved = false ∧ e.current? = some value := by
  cases hskip : e.skipped with
  | true =>
    rw [rendered?_of_skipped hskip] at h
    cases h
  | false =>
    cases hresolved : e.unresolved with
    | true =>
      have hshown : e.rendered? = some placeholder := by
        simp [rendered?, resolution, hskip, hresolved]
      exact absurd (Option.some.inj (h.symm.trans hshown)) hvalue
    | false =>
      refine ⟨rfl, rfl, ?_⟩
      unfold rendered? at h
      split at h
      · cases h
      · exact absurd (Option.some.inj h).symm hvalue
      · exact h
      · exact h

namespace Account

variable {fresh : Entry} {a : Account} {op : Op} {value : String}

/-- The value that the report shows. -/
def reported? (a : Account) : Option String :=
  (a.entry.filter (·.isSubstantial)).bind Entry.rendered?

/-- The value that the report shows, if the user or a rule gave it. -/
def chosen? (a : Account) : Option String :=
  a.entry.bind fun e => if e.recommended.isSome then e.rendered? else none

/-! ## Values of the user and values that were recommended -/

theorem Holds.chosen? (h : a.Holds value) : a.chosen? = some value := by
  obtain ⟨e, he, -, hvalue, hresolved, hskip⟩ := h
  have hrendered : e.rendered? = some value :=
    Entry.rendered?_of_recommended hvalue hresolved hskip
  simp [Account.chosen?, he, hvalue, hrendered]

theorem IsUntouched.chosen? (h : a.IsUntouched fresh) (hfresh : fresh.recommended = none) :
    a.chosen? = none := by
  rcases h with h | h <;> simp [Account.chosen?, h, hfresh]

/-- A caveat leaves what was recommended as it is. -/
theorem recommended_caution {e : Entry} (h : a.entry = some e) (fresh : Entry) :
    ∃ e', (a.caution fresh).account.entry = some e' ∧ e'.recommended = e.recommended ∧
      e'.enforced = e.enforced ∧ e'.unresolved = e.unresolved ∧ e'.skipped = e.skipped := by
  unfold caution
  split
  · exact ⟨e, h, rfl, rfl, rfl, rfl⟩
  · dsimp only
    split
    · exact ⟨e, h, rfl, rfl, rfl, rfl⟩
    · refine ⟨_, rfl, ?_, ?_, ?_, ?_⟩ <;> rw [entryOr, h, Option.getD_some]

/-- A recommendation is taken by an entry that the user does not hold. -/
theorem entry_after_recommend (hfresh : fresh.skipped = false)
    (henforced : (a.entryOr fresh).enforced = false) (hskip : (a.entryOr fresh).skipped = false)
    (key value : String) :
    ∃ e, (a.after fresh (.recommend key value)).account.entry = some e ∧
      e.recommended = some value ∧ e.enforced = false ∧ e.unresolved = false ∧
      e.skipped = false := by
  have hany : a.entry.any (·.enforced) = false := by
    cases he : a.entry with
    | none => rfl
    | some e =>
      rw [entryOr, he] at henforced
      exact henforced
  have hentry : (a.withEntry (recommended (a.entryOr fresh) key value)).entry =
      some (recommended (a.entryOr fresh) key value) := rfl
  obtain ⟨e, he, hvalue, henforced', hresolved, hskip'⟩ := recommended_caution hentry fresh
  refine ⟨e, ?_, hvalue, henforced'.trans henforced, hresolved, hskip'.trans hskip⟩
  simp only [Account.after, hfresh, hany, Bool.false_eq_true, if_false]
  exact he

theorem IsUntouched.chosen?_after_recommend (h : a.IsUntouched fresh)
    (henforced : fresh.enforced = false) (hskip : fresh.skipped = false) (key value : String) :
    (a.after fresh (.recommend key value)).account.chosen? = some value := by
  have hentry := h.entryOr
  obtain ⟨e, he, hvalue, -, hresolved, hskip'⟩ :=
    entry_after_recommend (a := a) hskip (by rw [hentry, henforced]) (by rw [hentry, hskip]) key
      value
  have hrendered : e.rendered? = some value :=
    Entry.rendered?_of_recommended hvalue hresolved hskip'
  simp [Account.chosen?, he, hvalue, hrendered]

/-! ## Defaults -/

/-- Nobody touched the key, or it got its default, the source leaving it unset. -/
def AtDefault (fresh : Entry) (default? : Option String) (a : Account) : Prop :=
  a.IsUntouched fresh ∨
    fresh.given = none ∧ ∃ e value, a.entry = some e ∧ default? = some value ∧
      e.recommended = some value ∧ e.enforced = false ∧ e.unresolved = false ∧ e.skipped = false

section AtDefault

variable {default? : Option String}

theorem AtDefault.free (h : a.AtDefault fresh default?) (henforced : fresh.enforced = false)
    (hskip : fresh.skipped = false) :
    (a.entryOr fresh).enforced = false ∧ (a.entryOr fresh).skipped = false := by
  rcases h with h | ⟨-, e, value, he, -, -, henforced', -, hskip'⟩
  · rw [h.entryOr]
    exact ⟨henforced, hskip⟩
  · rw [entryOr, he]
    exact ⟨henforced', hskip'⟩

theorem AtDefault.after (h : a.AtDefault fresh default?) (henforced : fresh.enforced = false)
    (hskip : fresh.skipped = false) (hop : op.GivesDefault fresh.given default?) :
    (a.after fresh op).account.AtDefault fresh default? := by
  cases op with
  | recommend key value =>
    obtain ⟨hgiven, hdefault⟩ := hop
    obtain ⟨henforced', hskip'⟩ := h.free henforced hskip
    obtain ⟨e, he, hvalue⟩ := entry_after_recommend hskip henforced' hskip' key value
    exact Or.inr ⟨hgiven, e, value, he, hdefault, hvalue⟩
  | registerCaveat key comment => exact h
  | remark key comment => exact h
  | say comment => exact h
  | sayOnce comment => exact h
  | seed key => exact hop.elim
  | enforce key value => exact hop.elim
  | refuse key comment => exact hop.elim
  | invalidate key => exact hop.elim

/-- The entry of a key that the source sets stays as it was opened. -/
theorem entry_after_of_given (hgiven : fresh.given ≠ none)
    (hop : op.GivesDefault fresh.given default?) :
    (a.after fresh op).account.entry = a.entry := by
  cases op with
  | recommend key value => exact absurd hop.1 hgiven
  | registerCaveat key comment => rfl
  | remark key comment => rfl
  | say comment => rfl
  | sayOnce comment => rfl
  | seed key => exact hop.elim
  | enforce key value => exact hop.elim
  | refuse key comment => exact hop.elim
  | invalidate key => exact hop.elim

theorem reported?_of_entry_eq_fresh {l : Ledger} {key : String} (hskip : l.isSkipped key = false)
    (h : a.entry = some (l.freshEntry key)) : a.reported? = l.source.get? key := by
  have hentry : l.freshEntry key = { given := l.source.get? key, skipped := false } := by
    rw [freshEntry, hskip]
  rw [reported?, h, hentry]
  cases l.source.get? key <;> rfl

/-- At its default a key that the source leaves unset shows nothing or the default. -/
theorem AtDefault.reported? {l : Ledger} {key : String} (hskip : l.isSkipped key = false)
    (hgiven : l.source.get? key = none) (h : a.AtDefault (l.freshEntry key) default?) :
    a.reported? = none ∨ ∃ value, default? = some value ∧ a.reported? = some value := by
  rcases h with (h | h) | ⟨-, e, value, he, hdefault, hvalue, -, hresolved, hskip'⟩
  · left
    rw [Account.reported?, h]
    rfl
  · left
    rw [reported?_of_entry_eq_fresh hskip h, hgiven]
  · right
    have hsubstantial : e.isSubstantial = true := by simp [Entry.isSubstantial, hvalue]
    refine ⟨value, hdefault, ?_⟩
    rw [Account.reported?, he, Option.filter_some, if_pos hsubstantial]
    exact Entry.rendered?_of_recommended hvalue hresolved hskip'

end AtDefault

end Account

namespace Ledger

theorem value?_finish (l : Ledger) (key : String) :
    l.finish.value? key = (l.account key).reported? := by
  rw [Recommendations.value?, entries_finish]
  rfl

theorem chosen?_finish (l : Ledger) (key : String) :
    l.finish.chosen? key = (l.account key).chosen? := by
  have haccount : (l.account key).entry = l.entry? key := rfl
  rw [Recommendations.chosen?, entries_finish, Account.chosen?, haccount]
  cases he : l.entry? key with
  | none => rfl
  | some e =>
    by_cases hvalue : e.recommended.isSome
    · have hsubstantial : e.isSubstantial = true := by simp [Entry.isSubstantial, hvalue]
      rw [Option.filter_some, if_pos hsubstantial]
    · by_cases hsubstantial : e.isSubstantial <;> simp [Option.filter, hvalue, hsubstantial]

/-- What the user or a rule gave is the value that the report shows. -/
theorem value?_of_chosen? {l : Ledger} {key value : String}
    (h : (l.account key).chosen? = some value) : l.finish.value? key = some value := by
  obtain ⟨e, he, hshown⟩ := Option.bind_eq_some_iff.1 h
  split at hshown
  next hvalue =>
    have hsubstantial : e.isSubstantial = true := by simp [Entry.isSubstantial, hvalue]
    rw [value?_finish, Account.reported?, he, Option.filter_some, if_pos hsubstantial]
    exact hshown
  next => cases hshown

end Ledger

end SparkTuner
