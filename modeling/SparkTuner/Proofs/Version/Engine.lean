import Mathlib.Data.Prod.Lex
import SparkTuner.Proofs.Version.Semantic
import SparkTuner.Version.Engine

/-!
# Engine versions are read by their leading numbers

A semantic version leads with the same three numbers (`IsSemantic.leads`), so what is read off a
text does not depend on which of the two ways reads it (`EngineVersion.parse?_eq_some_iff`).
-/

namespace SparkTuner

open Text

namespace Version

/-! ## Leading numbers -/

/-- The third number of a text, read off what follows the first two. -/
inductive IsPatch : List Char → ℕ → Prop where
  | read {run rest : List Char} {n : ℕ} (hrun : IsRun isDecimalDigit run rest)
    (hword : IsWord run n) : IsPatch ('.' :: (run ++ rest)) n
  | unreadable {run rest : List Char} (hrun : IsRun isDecimalDigit run rest)
    (hword : ∀ n, ¬IsWord run n) : IsPatch ('.' :: (run ++ rest)) 0
  | absent {rest : List Char} (hrest : rest.head? ≠ some '.') : IsPatch rest 0

/-- The text starts with two dotted runs of decimal digits that are numbers, and the third number
is read off the rest. -/
inductive Leads : List Char → Triple → Prop where
  | intro {major minor rest : List Char} {t : Triple} (hmajor : IsWord major t.major)
    (hminor : IsWord minor t.minor) (hrun : IsRun isDecimalDigit minor rest)
    (hpatch : IsPatch rest t.patch) : Leads (major ++ '.' :: (minor ++ rest)) t

variable {cs ds rest : List Char} {n : ℕ} {t : Triple}

theorem IsWord.decimalDigits (h : IsWord ds n) : ∀ c ∈ ds, isDecimalDigit c = true :=
  fun c hc => isDecimalDigit_of_isDigit (h.digits c hc)

theorem word?_eq_some_iff : word? ds = some n ↔ IsWord ds n := readWord_eq_some_iff

theorem word?_eq_none_iff : word? ds = none ↔ ∀ n, ¬IsWord ds n := by
  simp only [Option.eq_none_iff_forall_ne_some, ne_eq, word?_eq_some_iff]

theorem isDecimalDigit_point : isDecimalDigit '.' = false := by decide

theorem leadingDecimals_append (h : IsRun isDecimalDigit ds rest) :
    leadingDecimals (ds ++ rest) = (ds, rest) := by
  rw [leadingDecimals, h.takeWhile_eq, h.dropWhile_eq]

/-- What `leading?` reads for the third number. -/
theorem patch_eq_iff :
    (match rest with
      | '.' :: rest => (word? (leadingDecimals rest).1).getD 0
      | _ => 0) = n ↔ IsPatch rest n := by
  constructor
  · rintro rfl
    split
    next rest =>
      obtain ⟨run, rest, rfl, hrun⟩ := exists_run isDecimalDigit rest
      rw [leadingDecimals_append hrun]
      cases hword : word? run with
      | none => exact .unreadable hrun (word?_eq_none_iff.1 hword)
      | some n => exact .read hrun (word?_eq_some_iff.1 hword)
    next hmatch =>
      refine .absent fun hpoint => ?_
      obtain ⟨rest', rfl⟩ := List.head?_eq_some_iff.1 hpoint
      exact hmatch rest' rfl
  · intro h
    cases h with
    | read hrun hword =>
      simp only [leadingDecimals_append hrun, word?_eq_some_iff.2 hword, Option.getD_some]
    | unreadable hrun hword =>
      simp only [leadingDecimals_append hrun, word?_eq_none_iff.2 hword, Option.getD_none]
    | absent hrest =>
      split
      · exact absurd rfl hrest
      · rfl

theorem exists_isPatch (rest : List Char) : ∃ n, IsPatch rest n := ⟨_, patch_eq_iff.1 rfl⟩

theorem leading?_eq_some_iff : leading? cs = some t ↔ Leads cs t := by
  constructor
  · intro h
    obtain ⟨major, rest, rfl, hmajor⟩ := exists_run isDecimalDigit cs
    rw [leading?, leadingDecimals_append hmajor] at h
    split at h
    next _ rest heq =>
      cases heq
      obtain ⟨minor, rest, rfl, hminor⟩ := exists_run isDecimalDigit rest
      rw [leadingDecimals_append hminor] at h
      dsimp only at h
      split at h
      next hm hn =>
        cases h
        exact .intro (word?_eq_some_iff.1 hm) (word?_eq_some_iff.1 hn) hminor (patch_eq_iff.1 rfl)
      next => cases h
    next => cases h
  · rintro ⟨hmajor, hminor, hrun, hpatch⟩
    simp only [leading?, leadingDecimals_append hrun,
      leadingDecimals_append (isRun_cons hmajor.decimalDigits isDecimalDigit_point),
      word?_eq_some_iff.2 hmajor, word?_eq_some_iff.2 hminor]
    exact congrArg (fun n => some (Triple.mk t.major t.minor n)) (patch_eq_iff.2 hpatch)

/-- The numbers of a semantic version are the ones it leads with. -/
theorem IsSemantic.leads (h : IsSemantic cs t) : Leads cs t := by
  cases h with
  | intro hmajor hminor hpatch htail =>
    have hrun := htail.isRun hpatch.decimalDigits (by decide) (by decide)
    exact .intro hmajor.toIsWord hminor.toIsWord
      (isRun_cons hminor.decimalDigits isDecimalDigit_point) (.read hrun hpatch.toIsWord)

/-- A text that is a semantic version is read alike by its leading numbers. -/
theorem semantic?_or_leading? (cs : List Char) : (semantic? cs).or (leading? cs) = leading? cs := by
  cases h : semantic? cs with
  | none => exact Option.none_or
  | some t => exact (leading?_eq_some_iff.2 (semantic?_eq_some_iff.1 h).leads).symm

end Version

/-! ## What is read and asked -/

namespace EngineVersion

open Version

variable {text : String} {v : EngineVersion}

theorem parse?_eq_some_iff :
    parse? text = some v ↔
      v.text = String.ofList (trim text.toList) ∧ Leads (trim text.toList) v.triple := by
  rw [parse?, semantic?_or_leading?, Option.map_eq_some_iff]
  constructor
  · rintro ⟨t, ht, rfl⟩
    exact ⟨rfl, leading?_eq_some_iff.1 ht⟩
  · rintro ⟨htext, hleads⟩
    exact ⟨v.triple, leading?_eq_some_iff.2 hleads, by rw [← htext]⟩

theorem isSome_parse?_iff :
    (parse? text).isSome = true ↔
      ∃ major minor rest, trim text.toList = major ++ '.' :: (minor ++ rest) ∧
        IsRun isDecimalDigit major ('.' :: (minor ++ rest)) ∧ IsRun isDecimalDigit minor rest ∧
        (∃ m, IsWord major m) ∧ ∃ n, IsWord minor n := by
  simp only [Option.isSome_iff_exists, parse?_eq_some_iff]
  constructor
  · rintro ⟨⟨_, t⟩, -, hleads⟩
    generalize trim _ = cs at hleads
    obtain ⟨hmajor, hminor, hrun, -⟩ := hleads
    exact ⟨_, _, _, rfl, isRun_cons hmajor.decimalDigits isDecimalDigit_point, hrun, ⟨_, hmajor⟩,
      _, hminor⟩
  · rintro ⟨major, minor, rest, hcs, -, hrun, ⟨m, hmajor⟩, n, hminor⟩
    obtain ⟨k, hpatch⟩ := exists_isPatch rest
    refine ⟨⟨String.ofList (trim text.toList), m, n, k⟩, rfl, ?_⟩
    rw [hcs]
    exact .intro hmajor hminor hrun hpatch

/-- The earlier number decides. -/
theorem atLeast_iff {a b c : ℕ} :
    v.atLeast a b c = true ↔
      toLex (a, toLex (b, c)) ≤ toLex (v.triple.major, toLex (v.triple.minor, v.triple.patch)) := by
  simp only [atLeast, Prod.Lex.toLex_le_toLex, Bool.or_eq_true, Bool.and_eq_true, decide_eq_true_eq,
    beq_iff_eq, eq_comm (b := a), eq_comm (b := b)]

end EngineVersion

open Version EngineVersion

/-- The texts of the grammar are the semantic versions, and their leading numbers are the same
three. So a text has a version when it leads with two dotted runs of digits that are numbers, what
follows counts only for the third number, and versions are compared by the earliest number that
differs. -/
theorem engineVersions_are_read_one_way :
    (∀ cs t, semantic? cs = some t ↔ IsSemantic cs t) ∧
    (∀ cs t, semantic? cs = some t → leading? cs = some t) ∧
    (∀ text v, parse? text = some v ↔
      v.text = String.ofList (trim text.toList) ∧ Leads (trim text.toList) v.triple) ∧
    (∀ text, (parse? text).isSome = true ↔
      ∃ major minor rest, trim text.toList = major ++ '.' :: (minor ++ rest) ∧
        IsRun isDecimalDigit major ('.' :: (minor ++ rest)) ∧ IsRun isDecimalDigit minor rest ∧
        (∃ m, IsWord major m) ∧ ∃ n, IsWord minor n) ∧
    ∀ (v : EngineVersion) (a b c : ℕ), v.atLeast a b c = true ↔
      toLex (a, toLex (b, c)) ≤ toLex (v.triple.major, toLex (v.triple.minor, v.triple.patch)) := by
  refine ⟨fun _ _ => semantic?_eq_some_iff, ?_, fun _ _ => parse?_eq_some_iff,
    fun _ => isSome_parse?_iff, fun _ _ _ _ => atLeast_iff⟩
  intro cs t h
  exact leading?_eq_some_iff.2 (semantic?_eq_some_iff.1 h).leads

/-- What a vendor appends is a pre-release, and it does not hide the numbers in front of it. -/
theorem vendorSuffix_read_one_way :
    let cs := "3.4.1-amzn-2".toList
    let t : Triple := ⟨3, 4, 1⟩
    IsSemantic cs t ∧ leading? cs = some t ∧
      ∃ v, parse? " 3.4.1-amzn-2" = some v ∧ v.triple = t ∧ v.atLeast 3 4 0 = true := by
  intro cs t
  obtain ⟨hsemantic, hleading, hparse, -, hatLeast⟩ := engineVersions_are_read_one_way
  have hread : semantic? cs = some t := by decide +kernel
  have hleads : Leads cs t := leading?_eq_some_iff.1 (hleading cs t hread)
  have htrim : trim " 3.4.1-amzn-2".toList = cs := by decide +kernel
  refine ⟨(hsemantic cs t).1 hread, hleading cs t hread, ⟨String.ofList cs, t⟩, ?_, rfl, ?_⟩
  · rw [hparse, htrim]
    exact ⟨rfl, hleads⟩
  · exact (hatLeast _ 3 4 0).2 (by decide)

end SparkTuner
