import Mathlib.Data.List.Basic
import SparkTuner.Plugin.Jar
import SparkTuner.Proofs.Text

/-!
# The grammar of plugin jars

A file name is a plugin's by a grammar that leaves open what stands in front of it and what the
classifier is (`IsName`). The reader tries each place of a text and takes the longest runs of digits
there. It finds a version exactly if the text ends in a name of the grammar (`find?_eq_some_iff`).

Soundness leaves two things to show: that a text of the grammar is not refused, and that it has one
version only. For the latter the text is cut at its hyphens, since a classifier has none
(`EndsInName.parts`).
-/

namespace SparkTuner

open Text

namespace PluginJar

/-! ## Grammar -/

/-- A nonempty run of decimal digits, of any script. -/
structure IsNumber (ds : List Char) : Prop where
  ne_nil : ds ≠ []
  digits : ∀ c ∈ ds, isDecimalDigit c = true

/-- Two digits, two digits and at least one digit, with points between them. -/
inductive IsVersion : List Char → Prop where
  | intro {year month patch : List Char} (hyear : IsNumber year) (hyear' : year.length = 2)
    (hmonth : IsNumber month) (hmonth' : month.length = 2) (hpatch : IsNumber patch) :
    IsVersion (year ++ '.' :: month ++ '.' :: patch)

/-- What follows the version: the extension, and a classifier may stand in front of it. -/
inductive IsEnding : List Char → Prop where
  | plain : IsEnding extension
  | classified {classifier : List Char} (hne : classifier ≠ [])
    (hchars : ∀ c ∈ classifier, isClassifierChar c = true) :
    IsEnding ('-' :: (classifier ++ extension))

/-- The text is a plugin's file name with this version. -/
inductive IsName (version : List Char) : List Char → Prop where
  | intro {major minor ending : List Char} (hmajor : IsNumber major) (hminor : IsNumber minor)
    (hversion : IsVersion version) (hending : IsEnding ending) :
    IsName version (stem ++ (major ++ '.' :: (minor ++ '-' :: (version ++ ending))))

/-- The text is anything, and a plugin's file name with this version after it. -/
def EndsInName (version cs : List Char) : Prop :=
  ∃ front name, cs = front ++ name ∧ IsName version name

variable {cs run rest version version' : List Char}

/-! ## The reader -/

theorem digits?_eq_some_iff :
    digits? cs = some (run, rest) ↔
      cs = run ++ rest ∧ run ≠ [] ∧ IsRun isDecimalDigit run rest := by
  obtain ⟨run', rest', rfl, hrun⟩ := exists_run isDecimalDigit cs
  rw [digits?, hrun.takeWhile_eq, hrun.dropWhile_eq]
  cases run' with
  | nil =>
    refine iff_of_false nofun ?_
    rintro ⟨heq, hne, hrun'⟩
    exact hne (hrun.unique hrun' heq).1.symm
  | cons c cs =>
    rw [Option.some.injEq, Prod.mk.injEq]
    constructor
    · rintro ⟨rfl, rfl⟩
      exact ⟨rfl, List.cons_ne_nil c cs, hrun⟩
    · rintro ⟨heq, -, hrun'⟩
      exact hrun.unique hrun' heq

/-- Digits are read up to the next character that is none. -/
theorem IsNumber.digits?_append {c : Char} (h : IsNumber run) (hc : isDecimalDigit c = false) :
    digits? (run ++ c :: rest) = some (run, c :: rest) :=
  digits?_eq_some_iff.2 ⟨rfl, h.ne_nil, isRun_cons h.digits hc⟩

theorem twoDigits?_eq_some_iff :
    twoDigits? cs = some (run, rest) ↔ cs = run ++ rest ∧ IsNumber run ∧ run.length = 2 := by
  constructor
  · intro h
    unfold twoDigits? at h
    split at h
    next a b rest =>
      split at h
      next hdigits =>
        cases h
        rw [Bool.and_eq_true] at hdigits
        exact ⟨rfl, ⟨nofun, by simpa using hdigits⟩, rfl⟩
      next => cases h
    next => cases h
  · rintro ⟨rfl, hrun, htwo⟩
    obtain ⟨a, b, rfl⟩ := List.length_eq_two.1 htwo
    have hdigits : (isDecimalDigit a && isDecimalDigit b) = true := by simpa using hrun.digits
    exact if_pos hdigits

theorem afterScala?_eq_some_iff :
    afterScala? cs = some rest ↔ ∃ major minor, IsNumber major ∧ IsNumber minor ∧
      cs = major ++ '.' :: (minor ++ '-' :: rest) := by
  constructor
  · intro h
    unfold afterScala? at h
    split at h
    next major rest' hmajor =>
      split at h
      next minor rest hminor =>
        cases h
        obtain ⟨rfl, hne, hrun⟩ := digits?_eq_some_iff.1 hmajor
        obtain ⟨rfl, hne', hrun'⟩ := digits?_eq_some_iff.1 hminor
        exact ⟨major, minor, ⟨hne, hrun.all⟩, ⟨hne', hrun'.all⟩, rfl⟩
      next => cases h
    next => cases h
  · rintro ⟨major, minor, hmajor, hminor, rfl⟩
    have hpoint : isDecimalDigit '.' = false := by decide
    have hhyphen : isDecimalDigit '-' = false := by decide
    simp only [afterScala?, hmajor.digits?_append hpoint, hminor.digits?_append hhyphen]

theorem version?_eq_some_iff :
    version? cs = some (version, rest) ↔ IsVersion version ∧ cs = version ++ rest ∧
      ∀ c, rest.head? = some c → isDecimalDigit c = false := by
  constructor
  · intro h
    unfold version? at h
    split at h
    next year afterYear hreadYear =>
      split at h
      next month afterMonth hreadMonth =>
        obtain ⟨⟨patch, rest⟩, hreadPatch, heq⟩ := Option.map_eq_some_iff.1 h
        cases heq
        obtain ⟨rfl, hyear, hyear'⟩ := twoDigits?_eq_some_iff.1 hreadYear
        obtain ⟨rfl, hmonth, hmonth'⟩ := twoDigits?_eq_some_iff.1 hreadMonth
        obtain ⟨rfl, hne, hrun⟩ := digits?_eq_some_iff.1 hreadPatch
        refine ⟨.intro hyear hyear' hmonth hmonth' ⟨hne, hrun.all⟩, ?_, hrun.stops⟩
        simp only [List.append_assoc, List.cons_append]
      next => cases h
    next => cases h
  · rintro ⟨⟨hyear, hyear', hmonth, hmonth', hpatch⟩, rfl, hstops⟩
    have hrun : IsRun isDecimalDigit _ rest := ⟨hpatch.digits, hstops⟩
    simp only [version?, List.append_assoc, List.cons_append,
      twoDigits?_eq_some_iff.2 ⟨rfl, hyear, hyear'⟩,
      twoDigits?_eq_some_iff.2 ⟨rfl, hmonth, hmonth'⟩,
      digits?_eq_some_iff.2 ⟨rfl, hpatch.ne_nil, hrun⟩, Option.map_some]

theorem isEnd_iff : isEnd cs = true ↔ IsEnding cs := by
  have hcut : ∀ classifier : List Char,
      (classifier ++ extension).take ((classifier ++ extension).length - extension.length) =
        classifier := by
    intro classifier
    rw [List.length_append, Nat.add_sub_cancel, List.take_left]
  unfold isEnd
  rw [Bool.or_eq_true, beq_iff_eq]
  constructor
  · rintro (rfl | h)
    · exact .plain
    · split at h
      next rest =>
        simp only [Bool.and_eq_true, List.isSuffixOf_iff_suffix] at h
        obtain ⟨⟨⟨classifier, rfl⟩, hne⟩, hchars⟩ := h
        rw [hcut] at hne hchars
        exact .classified (by simpa using hne) (List.all_eq_true.1 hchars)
      next => cases h
  · rintro (_ | ⟨hne, hchars⟩)
    · exact Or.inl rfl
    · refine Or.inr ?_
      simp only [hcut, Bool.and_eq_true, List.isSuffixOf_iff_suffix]
      exact ⟨⟨List.suffix_append _ _, by simpa using hne⟩, List.all_eq_true.2 hchars⟩

theorem IsEnding.not_digit {ending : List Char} (h : IsEnding ending) :
    ∀ c, ending.head? = some c → isDecimalDigit c = false := by
  intro c hc
  cases h with
  | plain =>
    cases hc
    decide
  | classified =>
    cases hc
    decide

theorem ofName?_eq_some_iff : ofName? cs = some version ↔ IsName version cs := by
  constructor
  · intro h
    unfold ofName? at h
    split at h
    next => cases h
    next rest hstem =>
      split at h
      next version ending hread =>
        split at h
        next hend =>
          cases h
          obtain ⟨afterScala, hscala, hreadVersion⟩ := Option.bind_eq_some_iff.1 hread
          obtain ⟨major, minor, hmajor, hminor, rfl⟩ := afterScala?_eq_some_iff.1 hscala
          obtain ⟨hversion, rfl, -⟩ := version?_eq_some_iff.1 hreadVersion
          rw [after?_eq_some_iff.1 hstem]
          exact .intro hmajor hminor hversion (isEnd_iff.1 hend)
        next => cases h
      next => cases h
  · rintro (@⟨major, minor, ending, hmajor, hminor, hversion, hending⟩)
    have hscala : afterScala? (major ++ '.' :: (minor ++ '-' :: (version ++ ending))) =
        some (version ++ ending) :=
      afterScala?_eq_some_iff.2 ⟨major, minor, hmajor, hminor, rfl⟩
    have hread : version? (version ++ ending) = some (version, ending) :=
      version?_eq_some_iff.2 ⟨hversion, rfl, hending.not_digit⟩
    simp only [ofName?, after?_eq_some_iff.2 rfl, hscala, Option.bind_some, hread,
      isEnd_iff.2 hending, if_true]

/-! ## One version -/

theorem IsNumber.hyphen_not_mem (h : IsNumber run) : '-' ∉ run := fun hmem => by
  have hdigit := h.digits '-' hmem
  revert hdigit
  decide

theorem IsVersion.hyphen_not_mem (h : IsVersion version) : '-' ∉ version := by
  obtain ⟨hyear, -, hmonth, -, hpatch⟩ := h
  simp [hyear.hyphen_not_mem, hmonth.hyphen_not_mem, hpatch.hyphen_not_mem]

theorem IsVersion.head_ne (h : IsVersion version) : version.head? ≠ some 's' := by
  obtain ⟨hyear, -, -, -, -⟩ := h
  obtain ⟨c, cs, rfl⟩ := List.exists_cons_of_ne_nil hyear.ne_nil
  intro hhead
  cases hhead
  have hdigit := hyear.digits 's' List.mem_cons_self
  revert hdigit
  decide

/-- Cut at its hyphens, the text has the version in the last part but one if there is a classifier,
and in front of the extension in the last part if not. -/
theorem EndsInName.parts (h : EndsInName version cs) : IsVersion version ∧
    ∃ front last' last, Text.parts '-' cs = front ++ [last', last] ∧
      (last' = version ∨ last'.head? = some 's' ∧ last = version ++ extension) := by
  obtain ⟨before, _, rfl, @⟨major, minor, ending, hmajor, hminor, hversion, hending⟩⟩ := h
  refine ⟨hversion, ?_⟩
  have hstem : stem = "rapids-4".toList ++ '-' :: "spark_".toList := by decide
  have hextension : '-' ∉ extension := by decide
  have hscala : '-' ∉ "spark_".toList ++ (major ++ '.' :: minor) := by
    simp [hmajor.hyphen_not_mem, hminor.hyphen_not_mem]
  have hcs : before ++ (stem ++ (major ++ '.' :: (minor ++ '-' :: (version ++ ending)))) =
      (before ++ "rapids-4".toList) ++ '-' ::
        (("spark_".toList ++ (major ++ '.' :: minor)) ++ '-' :: (version ++ ending)) := by
    simp only [hstem, List.append_assoc, List.cons_append]
  rw [hcs, parts_append_parts, parts_append hscala]
  cases hending with
  | plain =>
    have hlast : '-' ∉ version ++ extension := by
      simp [hversion.hyphen_not_mem, hextension]
    rw [parts_of_not_mem hlast]
    exact ⟨_, _, _, rfl, Or.inr ⟨rfl, rfl⟩⟩
  | @classified classifier hne hchars =>
    have hlast : '-' ∉ classifier ++ extension := by
      have hclassifier : '-' ∉ classifier := fun hmem => absurd (hchars '-' hmem) (by decide)
      simp [hclassifier, hextension]
    rw [parts_append hversion.hyphen_not_mem, parts_of_not_mem hlast]
    exact ⟨_ ++ [_], version, _, by rw [List.append_assoc]; rfl, Or.inl rfl⟩

theorem EndsInName.unique (h : EndsInName version cs) (h' : EndsInName version' cs) :
    version = version' := by
  obtain ⟨hversion, front, last', last, hparts, hends⟩ := h.parts
  obtain ⟨hversion', front', last₂', last₂, hparts', hends'⟩ := h'.parts
  obtain ⟨-, hlasts⟩ := List.append_inj' (hparts.symm.trans hparts') rfl
  cases hlasts
  rcases hends with rfl | ⟨hhead, rfl⟩ <;> rcases hends' with rfl | ⟨hhead', hlast⟩
  · rfl
  · exact absurd hhead' hversion.head_ne
  · exact absurd hhead hversion'.head_ne
  · exact List.append_cancel_right hlast

theorem endsInName_of_find? (h : find? cs = some version) : EndsInName version cs := by
  induction cs with
  | nil => cases h
  | cons c cs ih =>
    rcases Option.or_eq_some_iff.1 h with hname | ⟨-, hfind⟩
    · exact ⟨[], c :: cs, rfl, ofName?_eq_some_iff.1 hname⟩
    · obtain ⟨front, name, rfl, hname⟩ := ih hfind
      exact ⟨c :: front, name, rfl, hname⟩

theorem EndsInName.isSome_find? (h : EndsInName version cs) : (find? cs).isSome = true := by
  obtain ⟨front, name, rfl, hname⟩ := h
  induction front with
  | nil =>
    have hread := ofName?_eq_some_iff.2 hname
    cases name with
    | nil => cases hread
    | cons c cs =>
      show ((ofName? (c :: cs)).or (find? cs)).isSome = true
      rw [hread, Option.some_or]
      rfl
  | cons c front ih =>
    show ((ofName? (c :: (front ++ name))).or (find? (front ++ name))).isSome = true
    rw [Option.isSome_or, ih, Bool.or_true]

theorem find?_eq_some_iff : find? cs = some version ↔ EndsInName version cs := by
  constructor
  · exact endsInName_of_find?
  · intro h
    obtain ⟨version', hfind⟩ := Option.isSome_iff_exists.1 h.isSome_find?
    rw [hfind, h.unique (endsInName_of_find? hfind)]

end PluginJar

open PluginJar

variable {entry : String} {version : List Char}

theorem isPluginJar_iff :
    isPluginJar entry = true ↔ ∃ version, EndsInName version (trim entry.toList) := by
  rw [isPluginJar, Option.isSome_iff_exists]
  exact exists_congr fun _ => find?_eq_some_iff

theorem pluginJarVersion?_of_endsInName (h : EndsInName version (trim entry.toList)) :
    pluginJarVersion? entry = PluginVersion.parse? (String.ofList version) := by
  rw [pluginJarVersion?, find?_eq_some_iff.2 h, Option.bind_some]

theorem pluginJarVersion?_of_not_isPluginJar (h : isPluginJar entry = false) :
    pluginJarVersion? entry = none := by
  rw [isPluginJar, Option.isSome_eq_false_iff, Option.isNone_iff_eq_none] at h
  rw [pluginJarVersion?, h, Option.bind_none]

end SparkTuner
