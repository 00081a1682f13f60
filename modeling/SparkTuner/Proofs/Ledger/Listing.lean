import Mathlib.Data.List.Basic
import SparkTuner.Proofs.Ledger.Readings

/-!
# What the listings show

A listing goes through the entries in the order of their keys. The short one leaves out the entries
that show what the source has: an entry that is neither skipped nor open shows a value, which is the
one it was opened with exactly if the entry counts as unchanged (`Entry.resolution_cases`).
-/

namespace SparkTuner

open Ledger

/-! ## One entry -/

namespace Entry

/-- An entry ends in one of four ways, each with what it shows. -/
theorem resolution_cases (e : Entry) :
    (e.resolution = .skipped ∧ e.rendered? = none) ∨
      (e.resolution = .unresolved ∧ e.rendered? = some placeholder) ∨
      (∃ value, e.resolution = .tuned ∧ e.rendered? = some value ∧ e.given ≠ some value) ∨
      ∃ value, e.resolution = .unchanged ∧ e.rendered? = some value ∧ e.given = some value := by
  cases hskip : e.skipped with
  | true => exact Or.inl ⟨by simp [resolution, hskip], rendered?_of_skipped hskip⟩
  | false =>
    refine Or.inr ?_
    cases hopen : e.unresolved with
    | true =>
      have hresolution : e.resolution = .unresolved := by simp [resolution, hskip, hopen]
      exact Or.inl ⟨hresolution, by rw [rendered?, hresolution]⟩
    | false =>
      cases hnew : e.recommended with
      | some value =>
        have hrendered : e.rendered? = some value := rendered?_of_recommended hnew hopen hskip
        refine Or.inr ?_
        by_cases hgiven : e.given = some value
        · exact Or.inr ⟨value, by simp [resolution, hskip, hopen, hnew, hgiven], hrendered, hgiven⟩
        · refine Or.inl ⟨value, ?_, hrendered, hgiven⟩
          cases hold : e.given with
          | none => simp [resolution, hskip, hopen, hnew, hold]
          | some old =>
            have hne : value ≠ old := fun h => hgiven (hold.trans (congrArg some h.symm))
            simp [resolution, hskip, hopen, hnew, hold, hne]
      | none =>
        cases hold : e.given with
        | none =>
          have hresolution : e.resolution = .unresolved := by
            simp [resolution, hskip, hopen, hnew, hold]
          exact Or.inl ⟨hresolution, by rw [rendered?, hresolution]⟩
        | some old =>
          have hresolution : e.resolution = .unchanged := by
            simp [resolution, hskip, hopen, hnew, hold]
          have hrendered : e.rendered? = some old := by
            rw [rendered?, hresolution]
            simp [current?, hopen, hnew, hold]
          exact Or.inr (Or.inr ⟨old, hresolution, hrendered, rfl⟩)

end Entry

/-! ## The listings -/

namespace Recommendations

variable {r : Recommendations} {source : KeyMap String} {key value : String}

theorem properties_ascending (r : Recommendations) (filter : OutputFilter) :
    (r.properties filter).Pairwise fun p q => p.1 < q.1 := by
  -- What is shown for an entry stands under the key of the entry.
  have hkey : ∀ (p : String × Entry) (q : String × String),
      (if lists filter p.2 then p.2.rendered?.map (p.1, ·) else none) = some q → q.1 = p.1 := by
    intro p q h
    split at h
    · obtain ⟨value, -, rfl⟩ := Option.map_eq_some_iff.1 h
      rfl
    · cases h
  refine r.entries.ascending.filterMap _ fun p q hlt p' hp' q' hq' => ?_
  rw [hkey p p' hp', hkey q q' hq']
  exact hlt

/-- What shows a value is listed in full. -/
theorem lists_all_of_rendered? {e : Entry} (h : e.rendered? = some value) :
    lists .all e = true := by
  rcases e.resolution_cases with ⟨-, hshown⟩ | ⟨hres, -⟩ | ⟨_, hres, -⟩ | ⟨_, hres, -⟩
  · cases hshown.symm.trans h
  all_goals simp [lists, hres]

/-- The full listing has every key that has a value in the report, with this value. -/
theorem mem_properties_all_iff : (key, value) ∈ r.properties .all ↔ r.value? key = some value := by
  rw [mem_properties, value?, Option.bind_eq_some_iff]
  exact exists_congr fun e => and_congr_right fun _ => and_iff_right_of_imp lists_all_of_rendered?

/-- Whether a pair of a listing tells what the source does not: a value is missing, or it is not the
one the source has. -/
def departs (r : Recommendations) (source : KeyMap String) (p : String × String) : Bool :=
  (r.entries.get? p.1).any (fun e => e.resolution = .unresolved) || source.get? p.1 ≠ some p.2

/-- The short listing is the full one without what the source has already. -/
theorem changedOnly_eq_filter (hgiven : ∀ key e, r.entries.get? key = some e →
      e.given = source.get? key) :
    r.properties .changedOnly = (r.properties .all).filter (r.departs source) := by
  unfold properties
  rw [List.filter_filterMap]
  refine List.filterMap_congr fun p hp => ?_
  obtain ⟨key, e⟩ := p
  have hentry : r.entries.get? key = some e := KeyMap.get?_eq_some_iff.2 hp
  have hdeparts : ∀ value, r.departs source (key, value) =
      (decide (e.resolution = .unresolved) || decide (e.given ≠ some value)) := by
    intro value
    simp only [departs, hentry, hgiven key e hentry, Option.any_some]
  rcases e.resolution_cases with ⟨hres, hshown⟩ | ⟨hres, hshown⟩ | ⟨value, hres, hshown, hne⟩ |
    ⟨value, hres, hshown, heq⟩
  · simp [lists, hres]
  · simp [lists, hres, hshown, Option.filter_some, hdeparts]
  · simp [lists, hres, hshown, Option.filter_some, hdeparts, hne]
  · simp [lists, hres, hshown, Option.filter_some, hdeparts, heq]

theorem get?_ofList_properties {filter : OutputFilter} {key value : String} :
    (KeyMap.ofList (r.properties filter)).get? key = some value ↔
      (key, value) ∈ r.properties filter :=
  KeyMap.get?_ofList (r.properties_ascending filter)

/-- The short listing has the values of the full one, but for those that the source has too. -/
theorem get?_changedOnly_cases (hgiven : ∀ key e, r.entries.get? key = some e →
      e.given = source.get? key) (key : String) :
    (KeyMap.ofList (r.properties .changedOnly)).get? key =
        (KeyMap.ofList (r.properties .all)).get? key ∨
      (KeyMap.ofList (r.properties .changedOnly)).get? key = none ∧
        (KeyMap.ofList (r.properties .all)).get? key = source.get? key := by
  have hshort : ∀ value, (KeyMap.ofList (r.properties .changedOnly)).get? key = some value ↔
      (key, value) ∈ r.properties .all ∧ r.departs source (key, value) = true := by
    intro value
    rw [get?_ofList_properties, changedOnly_eq_filter hgiven, List.mem_filter]
  cases hall : (KeyMap.ofList (r.properties .all)).get? key with
  | none =>
    refine Or.inl (Option.eq_none_iff_forall_ne_some.2 fun value hvalue => ?_)
    have hmem := ((hshort value).1 hvalue).1
    rw [← get?_ofList_properties, hall] at hmem
    cases hmem
  | some value =>
    have hmem := get?_ofList_properties.1 hall
    by_cases hdeparts : r.departs source (key, value) = true
    · exact Or.inl ((hshort value).2 ⟨hmem, hdeparts⟩)
    · refine Or.inr ⟨Option.eq_none_iff_forall_ne_some.2 fun value' hvalue' => ?_, ?_⟩
      · obtain ⟨hmem', hdeparts'⟩ := (hshort value').1 hvalue'
        rw [← get?_ofList_properties, hall] at hmem'
        cases hmem'
        exact hdeparts hdeparts'
      · simp only [departs, Bool.or_eq_true, decide_eq_true_eq, not_or, ne_eq, not_not] at hdeparts
        exact hdeparts.2.symm

end Recommendations

end SparkTuner
