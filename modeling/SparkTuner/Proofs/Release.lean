import SparkTuner.Proofs.Text
import SparkTuner.Release.Basic

/-!
# The release in metadata

A release element is a version between two tags, with blanks around it at most
(`StartsWithElement`). The reader tries each place of a text, with the longest runs there, and finds
the version of the first element (`element?_eq_some_iff`). A tag that starts no element hides
nothing, since the reader goes on right behind the first character of it.
-/

namespace SparkTuner.Release

open Text

/-! ## Elements -/

/-- The text starts with a release element that holds this version. -/
inductive StartsWithElement (version : List Char) : List Char → Prop where
  | intro {before after rest : List Char} (hbefore : ∀ c ∈ before, isBlank c = true)
    (hne : version ≠ []) (hversion : ∀ c ∈ version, c ≠ '<' ∧ isBlank c = false)
    (hafter : ∀ c ∈ after, isBlank c = true) :
    StartsWithElement version (openTag ++ (before ++ (version ++ (after ++ (closeTag ++ rest)))))

/-- A release element with this version stands somewhere in the text. -/
def HasElement (version cs : List Char) : Prop :=
  ∃ front rest, cs = front ++ rest ∧ StartsWithElement version rest

/-- The release element that starts first in the text holds this version. -/
def IsFirstElement (version cs : List Char) : Prop :=
  ∃ front rest, cs = front ++ rest ∧ StartsWithElement version rest ∧
    ∀ front' rest' version', cs = front' ++ rest' → StartsWithElement version' rest' →
      front.length ≤ front'.length

variable {version version' cs front rest : List Char} {c : Char}

theorem isVersionChar_iff : isVersionChar c = true ↔ c ≠ '<' ∧ isBlank c = false := by
  simp [isVersionChar]

theorem isVersionChar_of_isBlank (h : isBlank c = true) : isVersionChar c = false := by
  simp [isVersionChar, h]

theorem not_startsWithElement_nil : ¬StartsWithElement version [] := by
  intro h
  generalize hcs : ([] : List Char) = cs at h
  cases h
  cases hcs

/-! ## The reader at one place -/

theorem startsWithElement_of_elementAt? (h : elementAt? cs = some version) :
    StartsWithElement version cs := by
  unfold elementAt? at h
  split at h
  next => cases h
  next rest htag =>
    obtain ⟨before, behind, rfl, hbefore⟩ := exists_run isBlank rest
    obtain ⟨found, behind, rfl, hfound⟩ := exists_run isVersionChar behind
    obtain ⟨after, behind, rfl, hafter⟩ := exists_run isBlank behind
    simp only [hbefore.dropWhile_eq, hfound.takeWhile_eq, hfound.dropWhile_eq,
      hafter.dropWhile_eq] at h
    split at h
    next hclosed =>
      cases h
      obtain ⟨hne, hclose⟩ := hclosed
      obtain ⟨rest, rfl⟩ := List.isPrefixOf_iff_prefix.1 hclose
      rw [after?_eq_some_iff.1 htag]
      exact .intro hbefore.all hne (fun c hc => isVersionChar_iff.1 (hfound.all c hc)) hafter.all
    next => cases h

theorem elementAt?_of_startsWithElement (h : StartsWithElement version cs) :
    elementAt? cs = some version := by
  obtain @⟨before, after, rest, hbefore, hne, hversion, hafter⟩ := h
  have hafter' : IsRun isBlank after (closeTag ++ rest) := isRun_cons hafter (by decide)
  -- behind the version stands a blank or the closing tag, so that its run ends there
  have hversion' : IsRun isVersionChar version (after ++ (closeTag ++ rest)) := by
    refine ⟨fun c hc => isVersionChar_iff.2 (hversion c hc), fun c hc => ?_⟩
    cases after with
    | nil =>
      cases hc
      decide
    | cons d ds =>
      cases hc
      exact isVersionChar_of_isBlank (hafter c List.mem_cons_self)
  have hbefore' : IsRun isBlank before (version ++ (after ++ (closeTag ++ rest))) := by
    obtain ⟨d, ds, rfl⟩ := List.exists_cons_of_ne_nil hne
    exact isRun_cons hbefore (hversion d List.mem_cons_self).2
  have hclose : closeTag.isPrefixOf (closeTag ++ rest) = true :=
    List.isPrefixOf_iff_prefix.2 (List.prefix_append closeTag rest)
  simp only [elementAt?, after?_eq_some_iff.2 rfl, hbefore'.dropWhile_eq, hversion'.takeWhile_eq,
    hversion'.dropWhile_eq, hafter'.dropWhile_eq]
  exact if_pos ⟨hne, hclose⟩

theorem elementAt?_eq_some_iff : elementAt? cs = some version ↔ StartsWithElement version cs :=
  ⟨startsWithElement_of_elementAt?, elementAt?_of_startsWithElement⟩

theorem elementAt?_eq_none_iff :
    elementAt? cs = none ↔ ∀ version, ¬StartsWithElement version cs := by
  rw [Option.eq_none_iff_forall_ne_some]
  exact forall_congr' fun _ => not_congr elementAt?_eq_some_iff

/-! ## The first element -/

theorem not_isFirstElement_nil : ¬IsFirstElement version [] := by
  rintro ⟨front, rest, hcs, helement, -⟩
  obtain ⟨-, rfl⟩ := List.append_eq_nil_iff.1 hcs.symm
  exact not_startsWithElement_nil helement

/-- The first element starts with the text, or it is the first one of the text behind the first
character. -/
theorem isFirstElement_cons : IsFirstElement version (c :: cs) ↔
    StartsWithElement version (c :: cs) ∨
      (∀ version', ¬StartsWithElement version' (c :: cs)) ∧ IsFirstElement version cs := by
  constructor
  · rintro ⟨front, rest, hcs, helement, hfirst⟩
    cases front with
    | nil =>
      rw [List.nil_append] at hcs
      exact Or.inl (hcs ▸ helement)
    | cons d front =>
      cases hcs
      refine Or.inr ⟨fun version' h => ?_, front, rest, rfl, helement, ?_⟩
      · exact absurd (hfirst [] _ version' rfl h) (Nat.not_succ_le_zero _)
      · intro front' rest' version' hcs h
        exact Nat.le_of_succ_le_succ (hfirst (c :: front') rest' version' (by rw [hcs]; rfl) h)
  · rintro (helement | ⟨hnone, front, rest, rfl, helement, hfirst⟩)
    · exact ⟨[], c :: cs, rfl, helement, fun _ _ _ _ _ => Nat.zero_le _⟩
    · refine ⟨c :: front, rest, rfl, helement, fun front' rest' version' hcs h => ?_⟩
      cases front' with
      | nil =>
        rw [List.nil_append] at hcs
        exact absurd (hcs ▸ h) (hnone version')
      | cons d front' =>
        obtain ⟨-, hcs⟩ := List.cons.inj hcs
        exact Nat.succ_le_succ (hfirst front' rest' version' hcs h)

theorem element?_eq_some_iff : element? cs = some version ↔ IsFirstElement version cs := by
  induction cs with
  | nil => exact iff_of_false nofun not_isFirstElement_nil
  | cons c cs ih =>
    rw [element?, Option.or_eq_some_iff, elementAt?_eq_some_iff, elementAt?_eq_none_iff, ih,
      isFirstElement_cons]

theorem IsFirstElement.unique (h : IsFirstElement version cs) (h' : IsFirstElement version' cs) :
    version = version' :=
  Option.some.inj ((element?_eq_some_iff.2 h).symm.trans (element?_eq_some_iff.2 h'))

/-- What is said of the version of the first element is said of this one. -/
theorem IsFirstElement.exists_iff (h : IsFirstElement version cs) {P : List Char → Prop} :
    (∃ version', IsFirstElement version' cs ∧ P version') ↔ P version :=
  ⟨fun ⟨_, h', hP⟩ => h.unique h' ▸ hP, fun hP => ⟨version, h, hP⟩⟩

/-- No text in front of an element keeps the reader from finding one. -/
theorem exists_isFirstElement (h : StartsWithElement version rest) (front : List Char) :
    ∃ version', IsFirstElement version' (front ++ rest) := by
  induction front with
  | nil => exact ⟨version, [], rest, rfl, h, fun _ _ _ _ _ => Nat.zero_le _⟩
  | cons c front ih =>
    by_cases hhere : ∃ version', StartsWithElement version' (c :: (front ++ rest))
    · obtain ⟨version', helement⟩ := hhere
      exact ⟨version', isFirstElement_cons.2 (Or.inl helement)⟩
    · obtain ⟨version', hfirst⟩ := ih
      exact ⟨version', isFirstElement_cons.2 (Or.inr ⟨not_exists.1 hhere, hfirst⟩)⟩

theorem exists_isFirstElement_iff :
    (∃ version, IsFirstElement version cs) ↔ ∃ version, HasElement version cs := by
  constructor
  · rintro ⟨version, front, rest, hcs, helement, -⟩
    exact ⟨version, front, rest, hcs, helement⟩
  · rintro ⟨version, front, rest, rfl, helement⟩
    exact exists_isFirstElement helement front

/-! ## The release -/

section Parse

variable {metadata : String} {release : PluginVersion}

theorem parse_of_version (h : IsFirstElement version metadata.toList)
    (hread : PluginVersion.parse? (String.ofList version) = some release) :
    parse metadata = .ok release := by
  simp only [parse, element?_eq_some_iff.2 h, hread]

theorem parse_of_not_version (h : IsFirstElement version metadata.toList)
    (hread : PluginVersion.parse? (String.ofList version) = none) :
    parse metadata =
      .error (.parse ("Invalid release version '" ++ String.ofList version ++ "'")) := by
  simp only [parse, element?_eq_some_iff.2 h, hread]

theorem parse_of_no_element (h : ¬∃ version, IsFirstElement version metadata.toList) :
    parse metadata = .error (.parse "No <release> element in metadata") := by
  have hnone : element? metadata.toList = none :=
    Option.eq_none_iff_forall_ne_some.2 fun version hfound =>
      h ⟨version, element?_eq_some_iff.1 hfound⟩
  simp only [parse, hnone]

end Parse

/-- The release of metadata is the version in its first release element, which there is if there is
any. Reading fails exactly if there is none, or if that version is not one of the plugin. -/
theorem release_of_first_element (metadata : String) :
    ((∃ version, IsFirstElement version metadata.toList) ↔
      ∃ version, HasElement version metadata.toList) ∧
    (∀ version version', IsFirstElement version metadata.toList →
      IsFirstElement version' metadata.toList → version = version') ∧
    (∀ release, parse metadata = .ok release ↔
      ∃ version, IsFirstElement version metadata.toList ∧
        PluginVersion.parse? (String.ofList version) = some release) ∧
    ∀ e, parse metadata = .error e ↔
      (¬∃ version, HasElement version metadata.toList) ∧
        e = .parse "No <release> element in metadata" ∨
      ∃ version, IsFirstElement version metadata.toList ∧
        PluginVersion.parse? (String.ofList version) = none ∧
        e = .parse ("Invalid release version '" ++ String.ofList version ++ "'") := by
  refine ⟨exists_isFirstElement_iff, fun _ _ h => h.unique, ?_⟩
  rw [← exists_isFirstElement_iff]
  by_cases hsome : ∃ version, IsFirstElement version metadata.toList
  · have ⟨version, hfirst⟩ := hsome
    simp only [hfirst.exists_iff, hsome, not_true, false_and, false_or]
    cases hread : PluginVersion.parse? (String.ofList version) with
    | none => simp [parse_of_not_version hfirst hread, eq_comm]
    | some found => simp [parse_of_version hfirst hread]
  · have hnone : ∀ P : List Char → Prop,
        ¬∃ version, IsFirstElement version metadata.toList ∧ P version :=
      fun _ ⟨version, hfirst, _⟩ => hsome ⟨version, hfirst⟩
    simp [parse_of_no_element hsome, hsome, hnone, eq_comm]

/-- An element without a version, and one that is not closed, are passed over. -/
theorem openElement_passed_over :
    let metadata :=
      "<release> </release><release><release>\n 24.10.1</release><release>25</release>"
    let version := "24.10.1".toList
    IsFirstElement version metadata.toList ∧ parse metadata = .ok ⟨"24.10.1", [24, 10, 1]⟩ ∧
      ∀ version', IsFirstElement version' metadata.toList → version' = version := by
  intro metadata version
  obtain ⟨-, hunique, hparse, -⟩ := release_of_first_element metadata
  have hfirst : IsFirstElement version metadata.toList :=
    element?_eq_some_iff.1 (by decide +kernel)
  have hread : PluginVersion.parse? (String.ofList version) = some ⟨"24.10.1", [24, 10, 1]⟩ := by
    decide +kernel
  exact ⟨hfirst, (hparse _).2 ⟨version, hfirst, hread⟩, fun _ h => hunique _ _ h hfirst⟩

end SparkTuner.Release
