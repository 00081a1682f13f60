import SparkTuner.Proofs.Ledger.Reported

/-!
# What rules read is what the report shows

A rule looks a value up through `Ledger.get?`, the report through `Entry.rendered?` and a filter on
the entries. The two agree because of what every operation keeps of an entry (`IsSound.after`): it
still says what the source says, the user's values are never left open, and there is something in
it that the final result has to keep.
-/

namespace SparkTuner

open Ledger

/-! ## One entry -/

/-- The entry still has what it was opened with, and while the user holds it, it has a value. -/
structure Entry.Continues (e fresh : Entry) : Prop where
  given : e.given = fresh.given
  skipped : e.skipped = fresh.skipped
  held : e.enforced = true → e.recommended.isSome = true ∧ e.unresolved = false

/-- A fresh entry is not held. -/
theorem Entry.Continues.refl {fresh : Entry} (h : fresh.enforced = false) :
    fresh.Continues fresh where
  given := rfl
  skipped := rfl
  held he := by
    rw [h] at he
    cases he

/-- An entry that is shown and not open shows what rules go by. -/
theorem Entry.rendered?_eq_current? {e : Entry} (hskip : e.skipped = false)
    (hresolved : e.unresolved = false) (h : e.isSubstantial = true) :
    e.rendered? = e.current? ∧ e.current?.isSome = true := by
  simp only [isSubstantial, hresolved, Bool.or_false] at h
  cases hvalue : e.recommended with
  | some value =>
    have hcurrent : e.current? = some value := by simp [current?, hresolved, hvalue]
    exact ⟨(rendered?_of_recommended hvalue hresolved hskip).trans hcurrent.symm,
      by simp [hcurrent]⟩
  | none =>
    cases hgiven : e.given with
    | none => simp [hvalue, hgiven] at h
    | some value =>
      simp [rendered?, resolution, current?, hskip, hresolved, hvalue, hgiven]

namespace Account

variable {fresh e : Entry} {a : Account}

/-! ## One account -/

/-- The entry of the account, if it has one, continues the fresh one and says something. -/
def IsSound (fresh : Entry) (a : Account) : Prop :=
  ∀ e, a.entry = some e → e.Continues fresh ∧ e.isSubstantial = true

theorem isSound_withEntry (h : e.Continues fresh) (hsubstantial : e.isSubstantial = true) :
    (a.withEntry e).IsSound fresh := by
  intro e' he'
  cases he'
  exact ⟨h, hsubstantial⟩

/-- The entry that an operation changes continues the fresh one, also when it is opened by it. -/
theorem IsSound.entryOr (ha : a.IsSound fresh) (hfresh : fresh.enforced = false) :
    (a.entryOr fresh).Continues fresh := by
  unfold Account.entryOr
  cases he : a.entry with
  | none => exact .refl hfresh
  | some e => exact (ha e he).1

/-- A caveat changes nothing that is shown. -/
theorem IsSound.caution (ha : a.IsSound fresh) (he : a.entry = some e) :
    (a.caution fresh).account.IsSound fresh := by
  obtain ⟨hcontinues, hsubstantial⟩ := ha e he
  unfold Account.caution
  split
  · exact ha
  · dsimp only
    split
    · exact ha
    · rw [Account.entryOr, he, Option.getD_some]
      exact isSound_withEntry ⟨hcontinues.given, hcontinues.skipped, hcontinues.held⟩ hsubstantial

theorem IsSound.after (ha : a.IsSound fresh) (hfresh : fresh.enforced = false) (op : Op) :
    (a.after fresh op).account.IsSound fresh := by
  have hopen := ha.entryOr hfresh
  cases op with
  | seed key =>
    simp only [Account.after]
    split
    next hgiven =>
      refine isSound_withEntry hopen ?_
      simp [Entry.isSubstantial, hopen.given, hgiven]
    next => exact ha
  | enforce key value =>
    simp only [Account.after]
    split
    · exact ha
    · exact isSound_withEntry ⟨hopen.given, hopen.skipped, fun _ => ⟨rfl, rfl⟩⟩
        (by simp [Entry.isSubstantial])
  | registerCaveat key comment => exact ha
  | recommend key value =>
    simp only [Account.after]
    split
    · exact ha
    · split
      next hheld =>
        obtain ⟨e, he, -⟩ := (Option.any_eq_true _ _).1 hheld
        exact ha.caution he
      next =>
        refine IsSound.caution (isSound_withEntry ⟨hopen.given, hopen.skipped, ?_⟩ ?_) rfl
        · exact fun _ => ⟨rfl, rfl⟩
        · simp [Account.recommended, Entry.isSubstantial]
  | refuse key comment =>
    simp only [Account.after]
    split
    · exact ha
    · by_cases hheld : (a.entryOr fresh).enforced = true
      · rw [if_pos hheld]
        exact isSound_withEntry hopen (by simp [Entry.isSubstantial, (hopen.held hheld).1])
      · rw [if_neg hheld]
        exact isSound_withEntry ⟨hopen.given, hopen.skipped, fun h => absurd h hheld⟩
          (by simp [Entry.isSubstantial])
  | remark key comment => exact ha
  | invalidate key =>
    simp only [Account.after]
    split
    · exact ha
    · exact isSound_withEntry ⟨hopen.given, hopen.skipped, fun h => by cases h⟩
        (by simp [Entry.isSubstantial])
  | say comment => exact ha
  | sayOnce comment => exact ha

end Account

/-! ## The whole ledger -/

namespace Ledger

/-- Whatever is written, the account of every key stays sound. -/
theorem isSound_run (source : KeyMap String) (policy : KeyPolicy) (ops : List Op) (key : String) :
    (((start source policy).run ops).account key).IsSound ((start source policy).freshEntry key) :=
  account_run_induction (fun op _ _ _ ha => ha.after rfl op) fun _ h => by cases h

/-- Nothing that was written is lost at the end. -/
theorem entries_finish_eq {l : Ledger}
    (h : ∀ key e, l.entry? key = some e → e.isSubstantial = true) :
    l.finish.entries = l.entries := by
  refine KeyMap.ext fun key => ?_
  rw [entries_finish]
  cases he : l.entry? key with
  | none => exact he.symm
  | some e => exact (Option.filter_eq_some_iff.2 ⟨rfl, h key e he⟩).trans he.symm

/-- What rules read is what the report shows. Whatever is asked of a ledger, the report shows for a
key what rules read for it, and a placeholder where they read nothing because the value is missing;
of a key that is to be skipped or was never written about it shows nothing, and rules read the
source. No entry departs from the source, is held without a value, or is lost at the end. -/
theorem read_is_reported (source : KeyMap String) (policy : KeyPolicy) (calls : List Call) :
    let l := (start source policy).serve calls
    (∀ key e, l.entry? key = some e → key ∉ policy.skip →
      (e.unresolved = false →
        l.finish.value? key = l.get? key ∧ (l.get? key).isSome = true) ∧
      (e.unresolved = true →
        l.finish.value? key = some placeholder ∧ l.get? key = none ∧
          l.recommended? key = none)) ∧
      (∀ key, key ∈ policy.skip ∨ l.entry? key = none →
        l.finish.value? key = none ∧ l.get? key = source.get? key) ∧
      (∀ key e, l.entry? key = some e →
        e.given = source.get? key ∧
          (e.enforced = true → e.recommended.isSome = true ∧ e.unresolved = false)) ∧
      l.finish.entries = l.entries := by
  intro l
  have hsource : l.source = source := source_run ..
  have hsound : ∀ key e, l.entry? key = some e →
      e.Continues ((start source policy).freshEntry key) ∧ e.isSubstantial = true :=
    fun key e he => isSound_run source policy _ key e he
  have hentries : l.finish.entries = l.entries :=
    entries_finish_eq fun key e he => (hsound key e he).2
  have hvalue : ∀ key, l.finish.value? key = (l.entry? key).bind Entry.rendered? := by
    intro key
    rw [Recommendations.value?, hentries]
    rfl
  refine ⟨fun key e he hkey => ?_, fun key hkey => ?_, fun key e he => ?_, hentries⟩
  · obtain ⟨hcontinues, hsubstantial⟩ := hsound key e he
    have hskip : e.skipped = false := hcontinues.skipped.trans (by simp [isSkipped, start, hkey])
    have hget : l.get? key = e.current? := by simp [get?, he, hskip]
    rw [hvalue, he, Option.bind_some, hget]
    refine ⟨fun hresolved => Entry.rendered?_eq_current? hskip hresolved hsubstantial, ?_⟩
    intro hopen
    exact ⟨by simp [Entry.rendered?, Entry.resolution, hskip, hopen],
      by simp [Entry.current?, hopen], by simp [recommended?, he, hopen]⟩
  · rw [hvalue]
    cases he : l.entry? key with
    | none => exact ⟨rfl, by simp [get?, he, hsource]⟩
    | some e =>
      have hkey' : key ∈ policy.skip := hkey.resolve_right (by simp [he])
      have hskip : e.skipped = true :=
        (hsound key e he).1.skipped.trans (by simp [isSkipped, start, hkey'])
      exact ⟨Entry.rendered?_of_skipped hskip, by simp [get?, he, hskip, hsource]⟩
  · exact ⟨(hsound key e he).1.given, (hsound key e he).1.held⟩

end Ledger

end SparkTuner
