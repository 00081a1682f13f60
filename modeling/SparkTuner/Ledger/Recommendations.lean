import SparkTuner.Ledger.Basic

/-!
# Recommendations

The result of a run: the entries by key and the comments in order. The short listing leaves out the
keys that keep their value.
-/

namespace SparkTuner

/-- Which entries a listing has. -/
inductive OutputFilter where
  /-- Those whose value differs from the application's, and the placeholders. -/
  | changedOnly
  /-- All that are not skipped. -/
  | all
  deriving Repr, DecidableEq

/-- The result of a run. -/
structure Recommendations where
  entries : KeyMap Entry
  /-- Everything that was said, in ascending order. -/
  comments : List String
  deriving Repr, DecidableEq

/-- Comments in ascending order. -/
def sortComments (comments : List String) : List String :=
  comments.mergeSort fun a b => decide (a ≤ b)

namespace Recommendations

/-- A result that has nothing but comments. -/
def ofComments (comments : List String) : Recommendations := ⟨.empty, sortComments comments⟩

/-- Whether a listing has an entry. -/
def lists (filter : OutputFilter) (e : Entry) : Bool :=
  match filter, e.resolution with
  | _, .skipped => false
  | .changedOnly, .unchanged => false
  | _, _ => true

/-- The listed keys with their values, by key. -/
def properties (r : Recommendations) (filter : OutputFilter) : List (String × String) :=
  r.entries.toList.filterMap fun (key, e) =>
    if lists filter e then e.rendered?.map (key, ·) else none

/-- The reported value of a key. -/
def value? (r : Recommendations) (key : String) : Option String :=
  (r.entries.get? key).bind Entry.rendered?

end Recommendations

/-- Ends a run. -/
def Ledger.finish (l : Ledger) : Recommendations :=
  ⟨l.entries.filter fun _ e => e.isSubstantial, sortComments l.comments⟩

theorem sortComments_perm (comments : List String) : (sortComments comments).Perm comments :=
  List.mergeSort_perm ..

theorem Recommendations.mem_properties {r : Recommendations} {filter : OutputFilter}
    {key value : String} :
    (key, value) ∈ r.properties filter ↔
      ∃ e, r.entries.get? key = some e ∧ lists filter e ∧ e.rendered? = some value := by
  simp only [properties, List.mem_filterMap, KeyMap.get?_eq_some_iff, Prod.exists]
  constructor
  · rintro ⟨k, e, hmem, h⟩
    split at h
    next hl =>
      obtain ⟨v, hv, heq⟩ := Option.map_eq_some_iff.1 h
      cases heq
      exact ⟨e, hmem, hl, hv⟩
    next => cases h
  · rintro ⟨e, hmem, hl, hv⟩
    exact ⟨key, e, hmem, by simp [hl, hv]⟩

@[simp] theorem Ledger.entries_finish (l : Ledger) (key : String) :
    l.finish.entries.get? key = (l.entry? key).filter (·.isSubstantial) :=
  KeyMap.get?_filter ..

theorem Ledger.comments_finish_perm (l : Ledger) : l.finish.comments.Perm l.comments :=
  sortComments_perm l.comments

/-- An entry that is not to be touched shows no value. -/
theorem Entry.rendered?_of_skipped {e : Entry} (h : e.skipped) : e.rendered? = none := by
  simp [rendered?, resolution, h]

end SparkTuner
