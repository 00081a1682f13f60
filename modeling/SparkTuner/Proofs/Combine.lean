import SparkTuner.Combine
import SparkTuner.Proofs.Ledger.Interleaving
import SparkTuner.Proofs.Ledger.Listing
import SparkTuner.Proofs.Ledger.Transcript

/-!
# Combined properties

Combining works key by key: what a key has in the end is decided by what the source and the
recommendations have for it (`get?_combine`). A recommendation of the source's own value therefore
changes nothing, so that the short listing gives the same properties as the full one.
-/

namespace SparkTuner

open Ledger

/-! ## One key -/

/-- What a key has in the end, of what the source gives and what is recommended. -/
def prevailing? (given recommended : Option String) : Option String :=
  match recommended with
  | none => given
  | some value => if value = placeholder ∧ given.isSome then given else some value

@[simp] theorem prevailing?_none (given : Option String) : prevailing? given none = given := rfl

theorem prevailing?_of_kept {given : Option String} {value : String}
    (h : value = placeholder ∧ given.isSome) : prevailing? given (some value) = given :=
  if_pos h

theorem prevailing?_of_taken {given : Option String} {value : String}
    (h : ¬(value = placeholder ∧ given.isSome)) : prevailing? given (some value) = some value :=
  if_neg h

/-- A recommendation prevails, unless it is a placeholder for a value that is there. -/
theorem prevailing?_eq_ite (given recommended : Option String) :
    prevailing? given recommended =
      if recommended.isSome ∧ ¬(recommended = some placeholder ∧ given.isSome) then recommended
      else given := by
  cases recommended with
  | none => rfl
  | some value =>
    by_cases hkept : value = placeholder ∧ given.isSome
    · rw [prevailing?_of_kept hkept, if_neg fun h => h.2 ⟨congrArg some hkept.1, hkept.2⟩]
    · rw [prevailing?_of_taken hkept,
        if_pos ⟨rfl, fun h => hkept ⟨Option.some.inj h.1, h.2⟩⟩]

theorem prevailing?_self (given : Option String) : prevailing? given given = given := by
  cases given with
  | none => rfl
  | some value => exact ite_self _

theorem prevailing?_prevailing? (given recommended : Option String) :
    prevailing? (prevailing? given recommended) recommended = prevailing? given recommended := by
  cases recommended with
  | none => rfl
  | some value =>
    by_cases hkept : value = placeholder ∧ given.isSome
    · rw [prevailing?_of_kept hkept, prevailing?_of_kept hkept]
    · rw [prevailing?_of_taken hkept, prevailing?_self]

theorem get?_overrideWith (merged : KeyMap String) (key value k : String) :
    (overrideWith merged key value).get? k =
      if k = key then prevailing? (merged.get? k) (some value) else merged.get? k := by
  unfold overrideWith
  split
  next hkept =>
    split
    next hk =>
      subst hk
      exact (prevailing?_of_kept hkept).symm
    next => rfl
  next htaken =>
    rw [KeyMap.get?_insert]
    split
    next hk =>
      subst hk
      exact (prevailing?_of_taken htaken).symm
    next => rfl

/-- Recommendations are put over the source one after the other; each key is met once. -/
theorem get?_overrideAll {pairs : List (String × String)}
    (h : pairs.Pairwise fun p q => p.1 < q.1) (merged : KeyMap String) (k : String) :
    (pairs.foldl (fun merged (key, value) => overrideWith merged key value) merged).get? k =
      prevailing? (merged.get? k) (KeyMap.lookup? k pairs) := by
  induction pairs generalizing merged with
  | nil => rfl
  | cons p rest ih =>
    obtain ⟨hp, hrest⟩ := List.pairwise_cons.1 h
    rw [List.foldl_cons, ih hrest, get?_overrideWith, KeyMap.lookup?]
    by_cases hk : k = p.1
    · subst hk
      rw [if_pos rfl, if_pos rfl, KeyMap.lookup?_eq_none hp, prevailing?_none]
    · rw [if_neg hk, if_neg hk]

theorem get?_combine (source recommended : KeyMap String) (k : String) :
    (combine source recommended).get? k =
      if k ∈ hiddenKeys then none else prevailing? (source.get? k) (recommended.get? k) := by
  rw [combine, KeyMap.get?_filter, get?_overrideAll recommended.ascending]
  have hlookup : KeyMap.lookup? k recommended.toList = recommended.get? k := rfl
  rw [hlookup]
  by_cases hk : k ∈ hiddenKeys
  · rw [if_pos hk]
    exact Option.filter_eq_none_iff.2 fun a _ => by simp [hk]
  · rw [if_neg hk]
    cases prevailing? (source.get? k) (recommended.get? k) with
    | none => rfl
    | some value => exact Option.filter_some_pos (by simp [hk])

/-! ## Two listings -/

/-- Recommendations that differ only in what the source has too come to the same. -/
theorem combine_congr {source short full : KeyMap String}
    (h : ∀ k, short.get? k = full.get? k ∨ short.get? k = none ∧ full.get? k = source.get? k) :
    combine source short = combine source full := by
  refine KeyMap.ext fun k => ?_
  rw [get?_combine, get?_combine]
  rcases h k with hsame | ⟨hshort, hfull⟩
  · rw [hsame]
  · rw [hshort, hfull, prevailing?_none, prevailing?_self]

/-- To combine again with the same recommendations changes nothing. -/
theorem combine_combine (source recommended : KeyMap String) :
    combine (combine source recommended) recommended = combine source recommended := by
  refine KeyMap.ext fun k => ?_
  rw [get?_combine, get?_combine]
  by_cases hk : k ∈ hiddenKeys
  · rw [if_pos hk, if_pos hk]
  · rw [if_neg hk, if_neg hk, prevailing?_prevailing?]

theorem combine_changedOnly {r : Recommendations} {source : KeyMap String}
    (hgiven : ∀ key e, r.entries.get? key = some e → e.given = source.get? key) :
    combine source (.ofList (r.properties .changedOnly)) =
      combine source (.ofList (r.properties .all)) :=
  combine_congr (r.get?_changedOnly_cases hgiven)

/-- The short report loses nothing. Whatever is asked of a ledger, both listings of its result
ascend strictly by key, its comments are all that was said, sorted, the full listing has just the
values of the result, and the short one just those pairs of the full one that are placeholders or
differ from the source; combined with the source both give the same properties. Combining gives each
key that is not hidden its recommended value, unless that is a placeholder for a value there, and
doing it twice is doing it once. -/
theorem short_report_loses_nothing :
    (∀ (source : KeyMap String) (policy : KeyPolicy) (calls : List Call),
      let l := (start source policy).serve calls
      let r := l.finish
      (∀ filter, (r.properties filter).Pairwise fun p q => p.1 < q.1) ∧
        r.comments.Pairwise (· ≤ ·) ∧
        r.comments.Perm
          (((start source policy).transcript (calls.flatMap Call.ops)).map Line.text) ∧
        l.comments = ((start source policy).transcript (calls.flatMap Call.ops)).map Line.text ∧
        (∀ key value, (key, value) ∈ r.properties .all ↔ r.value? key = some value) ∧
        r.properties .changedOnly = (r.properties .all).filter (fun p =>
          (r.entries.get? p.1).any (fun e => e.resolution = .unresolved) ||
            source.get? p.1 ≠ some p.2) ∧
        combine source (.ofList (r.properties .changedOnly)) =
          combine source (.ofList (r.properties .all))) ∧
      ∀ s r : KeyMap String,
        (∀ k, (combine s r).get? k =
          if k ∈ hiddenKeys then none
          else if r.contains k ∧ ¬(r.get? k = some placeholder ∧ s.contains k) then r.get? k
          else s.get? k) ∧
        combine (combine s r) r = combine s r := by
  refine ⟨fun source policy calls => ?_, fun s r => ⟨fun k => ?_, combine_combine s r⟩⟩
  · intro l r
    have hcomments : l.comments =
        ((start source policy).transcript (calls.flatMap Call.ops)).map Line.text :=
      comments_run (start source policy) _
    have hgiven : ∀ key e, r.entries.get? key = some e → e.given = source.get? key := by
      intro key e he
      have hentry : l.entry? key = some e :=
        (Option.filter_eq_some_iff.1 ((entries_finish l key).symm.trans he)).1
      exact (isSound_run source policy _ key e hentry).1.given
    refine ⟨r.properties_ascending, sortComments_pairwise _, ?_, hcomments,
      fun _ _ => Recommendations.mem_properties_all_iff,
      Recommendations.changedOnly_eq_filter hgiven, combine_changedOnly hgiven⟩
    rw [← hcomments]
    exact comments_finish_perm l
  · rw [get?_combine, prevailing?_eq_ite]
    rfl

end SparkTuner
