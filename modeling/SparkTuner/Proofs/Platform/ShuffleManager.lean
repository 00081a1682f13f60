import Mathlib.Data.Nat.Notation
import Mathlib.Logic.ExistsUnique
import SparkTuner.Platform.ShuffleManager
import SparkTuner.Proofs.Number.Numeral
import SparkTuner.Proofs.Text

/-!
# Shuffle managers belong to releases

On Databricks the class is looked up by how the runtime's version starts. This finds the release
that the runtime leads with, unless the number after its point goes on with another digit
(`runtimes_belong_to_releases`). Elsewhere the class carries the three numbers of the engine,
written without anything between them. A tag of three digits can be taken apart in one way only
(`EngineVersion.tag_eq_iff`), so that no other version is taken for a supported one
(`engine_tags_do_not_collide`).
-/

namespace SparkTuner

open Number Text

namespace ShuffleManager

/-! ## Classes -/

theorem className_injective {tag tag' : String} (h : className tag = className tag') :
    tag = tag' := by
  unfold className at h
  have hlists := congrArg String.toList h
  simp only [String.toList_append, List.append_left_inj, List.append_right_inj] at hlists
  exact String.toList_injective hlists

/-! ## Runtimes -/

/-- Two runs of decimal digits, of any script, and a point between them. -/
inductive IsRelease : List Char → Prop where
  | intro {major minor : List Char} (hmajor : major ≠ []) (hminor : minor ≠ [])
    (hdigits : ∀ c ∈ major ++ minor, isDecimalDigit c = true) : IsRelease (major ++ '.' :: minor)

/-- A runtime starts with a release, and no digit follows it. -/
structure LeadsWith (release runtime : List Char) : Prop where
  isRelease : IsRelease release
  ends : ∃ rest, runtime = release ++ rest ∧ ∀ c, rest.head? = some c → isDecimalDigit c = false

/-- A runtime starts with a release, and another digit follows it. -/
def GoesOn (release runtime : List Char) : Prop :=
  ∃ digit rest, runtime = release ++ digit :: rest ∧ isDecimalDigit digit = true

/-- The shuffle manager is the one for the release that the runtime leads with, and there is none
for other releases. -/
structure BelongsTo (runtime : String) (m : ShuffleManager) : Prop where
  supported_iff : ∀ row ∈ runtimeTags,
    m = .supported (className row.2) ↔ LeadsWith row.1.toList runtime.toList
  unsupported_iff :
    m = .unsupported runtime ↔ ∀ row ∈ runtimeTags, ¬LeadsWith row.1.toList runtime.toList

variable {release runtime : List Char} {row : String × String} {text : String}

/-- A runtime leads with one release only. -/
theorem LeadsWith.unique {release' : List Char} (h : LeadsWith release runtime)
    (h' : LeadsWith release' runtime) : release = release' := by
  obtain ⟨⟨-, -, hdigits⟩, rest, rfl, hends⟩ := h
  obtain ⟨⟨-, -, hdigits'⟩, rest', hruntime, hends'⟩ := h'
  rw [List.forall_mem_append] at hdigits hdigits'
  have hpoint : isDecimalDigit '.' = false := by decide
  simp only [List.append_assoc, List.cons_append] at hruntime
  obtain ⟨rfl, hafter⟩ :=
    (isRun_cons hdigits.1 hpoint).unique (isRun_cons hdigits'.1 hpoint) hruntime
  have hminor : IsRun isDecimalDigit _ rest := ⟨hdigits.2, hends⟩
  have hminor' : IsRun isDecimalDigit _ rest' := ⟨hdigits'.2, hends'⟩
  rw [(hminor.unique hminor' (List.cons.inj hafter).2).1]

theorem goesOn_iff : GoesOn release runtime ↔
    release <+: runtime ∧ (runtime.drop release.length).head?.any isDecimalDigit = true := by
  constructor
  · rintro ⟨digit, rest, rfl, hdigit⟩
    rw [List.drop_left]
    exact ⟨List.prefix_append _ _, hdigit⟩
  · rintro ⟨⟨rest, rfl⟩, hdigit⟩
    rw [List.drop_left, Option.any_eq_true] at hdigit
    obtain ⟨digit, hhead, hdigit⟩ := hdigit
    obtain ⟨rest, rfl⟩ := List.head?_eq_some_iff.1 hhead
    exact ⟨digit, rest, rfl, hdigit⟩

instance (release runtime : List Char) : Decidable (GoesOn release runtime) :=
  decidable_of_iff _ goesOn_iff.symm

theorem GoesOn.not_leadsWith (h : GoesOn release runtime) : ¬LeadsWith release runtime := by
  rintro ⟨-, rest, hruntime, hends⟩
  obtain ⟨digit, rest', hruntime', hdigit⟩ := h
  rw [hruntime', List.append_cancel_left_eq] at hruntime
  have hstop := hends digit (by rw [← hruntime, List.head?_cons])
  rw [hdigit] at hstop
  cases hstop

theorem isPrefix_iff (h : IsRelease release) :
    release <+: runtime ↔ LeadsWith release runtime ∨ GoesOn release runtime := by
  constructor
  · rintro ⟨rest, rfl⟩
    cases rest with
    | nil => exact Or.inl ⟨h, [], rfl, nofun⟩
    | cons c rest =>
      cases hc : isDecimalDigit c with
      | true => exact Or.inr ⟨c, rest, rfl, hc⟩
      | false =>
        refine Or.inl ⟨h, c :: rest, rfl, fun d hd => ?_⟩
        cases hd
        exact hc
  · rintro (⟨-, rest, rfl, -⟩ | ⟨digit, rest, rfl, -⟩)
    · exact List.prefix_append release rest
    · exact List.prefix_append release (digit :: rest)

theorem isRelease_of_mem (h : row ∈ runtimeTags) : IsRelease row.1.toList := by
  simp only [runtimeTags, List.mem_cons, List.not_mem_nil, or_false] at h
  rcases h with rfl | rfl | rfl
  · exact @IsRelease.intro ['1', '1'] ['3'] nofun nofun (List.all_eq_true.1 (by decide))
  · exact @IsRelease.intro ['1', '2'] ['2'] nofun nofun (List.all_eq_true.1 (by decide))
  · exact @IsRelease.intro ['1', '3'] ['3'] nofun nofun (List.all_eq_true.1 (by decide))

/-- The releases are of one length, so that a runtime starts with one of them only. -/
theorem eq_of_isPrefix {row' : String × String} (h : row ∈ runtimeTags) (h' : row' ∈ runtimeTags)
    (hrow : row.1.toList <+: runtime) (hrow' : row'.1.toList <+: runtime) : row = row' := by
  have hlength : ∀ row ∈ runtimeTags, row.1.toList.length = 4 := by decide
  have hkey : ∀ row ∈ runtimeTags, ∀ row' ∈ runtimeTags, row.1 = row'.1 → row = row' := by decide
  have hstart : row.1.toList <+: row'.1.toList := by
    refine List.prefix_of_prefix_length_le hrow hrow' ?_
    rw [hlength row h, hlength row' h']
  refine hkey row h row' h' (String.toList_injective (hstart.eq_of_length ?_))
  rw [hlength row h, hlength row' h']

/-- The class is the one of the release that the runtime starts with. -/
theorem ofRuntime_cases (text : String) :
    (∃ row ∈ runtimeTags, row.1.toList <+: text.toList ∧
      ofRuntime (some text) = .supported (className row.2)) ∨
    ((∀ row ∈ runtimeTags, ¬row.1.toList <+: text.toList) ∧
      ofRuntime (some text) = .unsupported text) := by
  rw [ofRuntime]
  cases hfind : runtimeTags.find? fun row => row.1.toList.isPrefixOf text.toList with
  | none =>
    refine Or.inr ⟨fun row hrow hprefix => ?_, rfl⟩
    exact List.find?_eq_none.1 hfind row hrow (List.isPrefixOf_iff_prefix.2 hprefix)
  | some row =>
    have hprefix := List.find?_some hfind
    exact Or.inl ⟨row, List.mem_of_find?_eq_some hfind, List.isPrefixOf_iff_prefix.1 hprefix, rfl⟩

theorem ofRuntime_eq_supported_iff (h : row ∈ runtimeTags) :
    ofRuntime (some text) = .supported (className row.2) ↔ row.1.toList <+: text.toList := by
  have htag : ∀ row ∈ runtimeTags, ∀ row' ∈ runtimeTags, row.2 = row'.2 → row = row' := by decide
  obtain ⟨row', hrow', hprefix, heq⟩ | ⟨hnone, heq⟩ := ofRuntime_cases text
  · rw [heq, ShuffleManager.supported.injEq]
    constructor
    · intro hclass
      rw [← htag row' hrow' row h (className_injective hclass)]
      exact hprefix
    · intro hrow
      rw [eq_of_isPrefix hrow' h hprefix hrow]
  · rw [heq]
    exact iff_of_false nofun (hnone row h)

theorem ofRuntime_eq_unsupported_iff :
    ofRuntime (some text) = .unsupported text ↔
      ∀ row ∈ runtimeTags, ¬row.1.toList <+: text.toList := by
  obtain ⟨row, hrow, hprefix, heq⟩ | ⟨hnone, heq⟩ := ofRuntime_cases text
  · rw [heq]
    exact iff_of_false nofun fun hnone => hnone row hrow hprefix
  · exact iff_of_true heq hnone

/-- What is found belongs to the runtime unless a release of the table goes on in it. -/
theorem belongsTo_ofRuntime_iff :
    BelongsTo text (ofRuntime (some text)) ↔
      ∀ row ∈ runtimeTags, ¬GoesOn row.1.toList text.toList := by
  constructor
  · intro hbelongs row hrow hgoesOn
    have hprefix := (isPrefix_iff (isRelease_of_mem hrow)).2 (Or.inr hgoesOn)
    have hfound := (ofRuntime_eq_supported_iff hrow).2 hprefix
    exact hgoesOn.not_leadsWith ((hbelongs.supported_iff row hrow).1 hfound)
  · intro hends
    have hleads : ∀ row ∈ runtimeTags,
        row.1.toList <+: text.toList ↔ LeadsWith row.1.toList text.toList := by
      intro row hrow
      rw [isPrefix_iff (isRelease_of_mem hrow), or_iff_left (hends row hrow)]
    constructor
    · intro row hrow
      rw [ofRuntime_eq_supported_iff hrow, hleads row hrow]
    · rw [ofRuntime_eq_unsupported_iff]
      exact forall₂_congr fun row hrow => not_congr (hleads row hrow)

/-! ## Engine tags -/

/-- A tag of three digits, one for each number of the release. -/
inductive Spells : List Char → Version.Triple → Prop where
  | intro {a b c : Char} (ha : isDigit a = true) (hb : isDigit b = true) (hc : isDigit c = true) :
    Spells [a, b, c] ⟨digitValue a, digitValue b, digitValue c⟩

theorem Spells.eq {tag : List Char} {t t' : Version.Triple} (h : Spells tag t)
    (h' : Spells tag t') : t = t' := by
  cases h
  cases h'
  rfl

theorem exists_spells {tag : String} (h : tag ∈ engineTags) : ∃ t, Spells tag.toList t := by
  have htable : ∀ tag ∈ engineTags, tag.toList.length = 3 ∧ tag.toList.all isDigit = true := by
    decide
  obtain ⟨hlength, hdigits⟩ := htable tag h
  obtain ⟨a, b, c, habc⟩ := List.length_eq_three.1 hlength
  simp only [habc, List.all_cons, List.all_nil, Bool.and_eq_true, Bool.and_true] at hdigits
  rw [habc]
  exact ⟨_, .intro hdigits.1 hdigits.2.1 hdigits.2.2⟩

end ShuffleManager

/-! ## Tags of versions -/

theorem eq_singletons_of_append {α : Type} {xs ys zs : List α} {a b c : α} (hx : xs ≠ [])
    (hy : ys ≠ []) (hz : zs ≠ []) (h : xs ++ ys ++ zs = [a, b, c]) :
    xs = [a] ∧ ys = [b] ∧ zs = [c] := by
  obtain ⟨x, xs, rfl⟩ := List.exists_cons_of_ne_nil hx
  obtain ⟨y, ys, rfl⟩ := List.exists_cons_of_ne_nil hy
  obtain ⟨z, zs, rfl⟩ := List.exists_cons_of_ne_nil hz
  have hlength := congrArg List.length h
  simp only [List.length_append, List.length_cons, List.length_nil] at hlength
  obtain rfl : xs = [] := List.eq_nil_of_length_eq_zero (by omega)
  obtain rfl : ys = [] := List.eq_nil_of_length_eq_zero (by omega)
  obtain rfl : zs = [] := List.eq_nil_of_length_eq_zero (by omega)
  simpa using h

namespace EngineVersion

open ShuffleManager

theorem toList_tag (v : EngineVersion) :
    v.tag.toList = Nat.toDigits 10 v.triple.major ++ Nat.toDigits 10 v.triple.minor ++
      Nat.toDigits 10 v.triple.patch := by
  simp only [tag, String.toList_append, Nat.toList_repr]

/-- Each number has at least one digit, so none of them has more in a tag of three. -/
theorem tag_eq_iff {v : EngineVersion} {tag : String} {t : Version.Triple}
    (h : Spells tag.toList t) : v.tag = tag ↔ v.triple = t := by
  rw [← String.toList_inj, toList_tag]
  generalize tag.toList = cs at h
  obtain ⟨ha, hb, hc⟩ := h
  rw [Version.Triple.mk.injEq, ← toDigits_eq_singleton_iff ha, ← toDigits_eq_singleton_iff hb,
    ← toDigits_eq_singleton_iff hc]
  constructor
  · exact eq_singletons_of_append Nat.toDigits_ne_nil Nat.toDigits_ne_nil Nat.toDigits_ne_nil
  · rintro ⟨hmajor, hminor, hpatch⟩
    rw [hmajor, hminor, hpatch]
    rfl

theorem tag_eq_iff_spells {v : EngineVersion} {tag : String} (h : tag ∈ engineTags) :
    v.tag = tag ↔ Spells tag.toList v.triple := by
  obtain ⟨t, ht⟩ := exists_spells h
  rw [tag_eq_iff ht]
  constructor
  · rintro rfl
    exact ht
  · exact fun hv => hv.eq ht

end EngineVersion

namespace ShuffleManager

open EngineVersion

variable {v : EngineVersion} {found : String}

/-- The class is the one whose tag has the digits of the version. -/
theorem ofEngine_cases (v : EngineVersion) :
    (∃ tag ∈ engineTags, Spells tag.toList v.triple ∧
      ofEngine (some v) = .supported (className tag)) ∨
    ((∀ tag ∈ engineTags, ¬Spells tag.toList v.triple) ∧
      ofEngine (some v) = .unsupported v.text) := by
  rw [ofEngine]
  split
  next hmem =>
    have htag : v.tag ∈ engineTags := List.contains_iff_mem.1 hmem
    exact Or.inl ⟨v.tag, htag, (tag_eq_iff_spells htag).1 rfl, rfl⟩
  next hnot =>
    refine Or.inr ⟨fun tag htag hspells => hnot (List.contains_iff_mem.2 ?_), rfl⟩
    rw [(tag_eq_iff_spells htag).2 hspells]
    exact htag

theorem ofEngine_eq_supported_iff : ofEngine (some v) = .supported found ↔
    ∃ tag ∈ engineTags, Spells tag.toList v.triple ∧ found = className tag := by
  obtain ⟨tag, htag, hspells, heq⟩ | ⟨hnone, heq⟩ := ofEngine_cases v
  · rw [heq, ShuffleManager.supported.injEq]
    constructor
    · rintro rfl
      exact ⟨tag, htag, hspells, rfl⟩
    · rintro ⟨tag', htag', hspells', rfl⟩
      rw [← (tag_eq_iff_spells htag).2 hspells, (tag_eq_iff_spells htag').2 hspells']
  · rw [heq]
    refine iff_of_false nofun ?_
    rintro ⟨tag, htag, hspells, -⟩
    exact hnone tag htag hspells

theorem ofEngine_eq_unsupported_iff : ofEngine (some v) = .unsupported v.text ↔
    ∀ tag ∈ engineTags, ¬Spells tag.toList v.triple := by
  obtain ⟨tag, htag, hspells, heq⟩ | ⟨hnone, heq⟩ := ofEngine_cases v
  · rw [heq]
    exact iff_of_false nofun fun hnone => hnone tag htag hspells
  · exact iff_of_true heq hnone

/-- The class tells the three numbers of the version. -/
theorem triple_eq_of_ofEngine {w : EngineVersion} (hv : ofEngine (some v) = .supported found)
    (hw : ofEngine (some w) = .supported found) : v.triple = w.triple := by
  obtain ⟨tag, -, hspells, rfl⟩ := ofEngine_eq_supported_iff.1 hv
  obtain ⟨tag', -, hspells', hfound⟩ := ofEngine_eq_supported_iff.1 hw
  rw [← className_injective hfound] at hspells'
  exact hspells.eq hspells'

end ShuffleManager

/-! ## Platforms -/

open ShuffleManager

theorem Platform.shuffleManager_of_databricks {p : Platform} (hp : p.isDatabricks = true)
    (engine : Option EngineVersion) (runtime : Option String) :
    p.shuffleManager engine runtime = ofRuntime runtime := if_pos hp

theorem Platform.shuffleManager_of_not_databricks {p : Platform} (hp : p.isDatabricks = false)
    (engine : Option EngineVersion) (runtime : Option String) :
    p.shuffleManager engine runtime = ofEngine engine := if_neg (ne_true_of_eq_false hp)

/-- On Databricks, the shuffle manager belongs to the release that the runtime leads with, exactly
if no release of the table goes on in the runtime. If one does, the runtime gets the class of that
release all the same. The version of the engine does not matter. -/
theorem runtimes_belong_to_releases {p : Platform} (hp : p.isDatabricks = true)
    (engine : Option EngineVersion) (runtime : String) :
    (∀ other, p.shuffleManager other (some runtime) = p.shuffleManager engine (some runtime)) ∧
    (∀ release release', LeadsWith release runtime.toList → LeadsWith release' runtime.toList →
      release = release') ∧
    (BelongsTo runtime (p.shuffleManager engine (some runtime)) ↔
      ∀ row ∈ runtimeTags, ¬GoesOn row.1.toList runtime.toList) ∧
    ∀ row ∈ runtimeTags, GoesOn row.1.toList runtime.toList →
      p.shuffleManager engine (some runtime) = .supported (className row.2) := by
  simp only [p.shuffleManager_of_databricks hp]
  refine ⟨fun _ => trivial, fun _ _ => LeadsWith.unique, belongsTo_ofRuntime_iff, ?_⟩
  intro row hrow hgoesOn
  rw [ofRuntime_eq_supported_iff hrow, isPrefix_iff (isRelease_of_mem hrow)]
  exact Or.inr hgoesOn

/-- What follows the release does not matter, and neither does the engine. -/
theorem machineLearningRuntime_belongs :
    let runtime := "12.2.x-gpu-ml-scala2.12"
    Platform.databricksAws.isDatabricks = true ∧
      (∀ row ∈ runtimeTags, ¬GoesOn row.1.toList runtime.toList) ∧
      BelongsTo runtime
        (Platform.databricksAws.shuffleManager (some ⟨"3.4.1", 3, 4, 1⟩) (some runtime)) := by
  intro runtime
  have hends : ∀ row ∈ runtimeTags, ¬GoesOn row.1.toList runtime.toList := by decide +kernel
  have hp : Platform.databricksAws.isDatabricks = true := rfl
  obtain ⟨-, -, hbelongs, -⟩ :=
    runtimes_belong_to_releases hp (some ⟨"3.4.1", 3, 4, 1⟩) runtime
  exact ⟨hp, hends, hbelongs.2 hends⟩

/-- This runtime is of release 11.30, which has no class. It gets the one of 11.3. -/
theorem longerMinor_taken_for_release :
    let runtime := "11.30.x-scala2.12"
    let found := Platform.databricksAws.shuffleManager none (some runtime)
    LeadsWith "11.30".toList runtime.toList ∧ (∀ row ∈ runtimeTags, row.1 ≠ "11.30") ∧
      found = .supported (className "330db") ∧ ¬BelongsTo runtime found := by
  intro runtime found
  have hmem : ("11.3", "330db") ∈ runtimeTags := by decide
  have hgoesOn : GoesOn "11.3".toList runtime.toList := by decide +kernel
  have hrelease : IsRelease "11.30".toList :=
    @IsRelease.intro ['1', '1'] ['3', '0'] nofun nofun (List.all_eq_true.1 (by decide))
  have hends : ∀ c, ".x-scala2.12".toList.head? = some c → isDecimalDigit c = false := by
    rintro c ⟨⟩
    decide
  have hlist : runtime.toList = "11.30".toList ++ ".x-scala2.12".toList := by decide +kernel
  have hprefix : "11.3".toList <+: runtime.toList :=
    (isPrefix_iff (isRelease_of_mem hmem)).2 (Or.inr hgoesOn)
  refine ⟨⟨hrelease, _, hlist, hends⟩, by decide, ?_, ?_⟩
  · exact (ofRuntime_eq_supported_iff hmem).2 hprefix
  · exact fun hbelongs => belongsTo_ofRuntime_iff.1 hbelongs _ hmem hgoesOn

/-- Away from Databricks, a class is found exactly if the three numbers of the engine are the digits
of a tag: there are seventeen such versions, and the class tells which of them it is. No other
version has a tag that is listed. -/
theorem engine_tags_do_not_collide {p : Platform} (hp : p.isDatabricks = false)
    (runtime : Option String) :
    engineTags.length = 17 ∧ engineTags.Nodup ∧
    (∀ tag ∈ engineTags, ∃! t, Spells tag.toList t) ∧
    ∀ v : EngineVersion,
      (∀ tag ∈ engineTags, v.tag = tag ↔ Spells tag.toList v.triple) ∧
      (∀ found, p.shuffleManager (some v) runtime = .supported found ↔
        ∃ tag ∈ engineTags, Spells tag.toList v.triple ∧ found = className tag) ∧
      (p.shuffleManager (some v) runtime = .unsupported v.text ↔
        ∀ tag ∈ engineTags, ¬Spells tag.toList v.triple) ∧
      ∀ w found, p.shuffleManager (some v) runtime = .supported found →
        p.shuffleManager (some w) runtime = .supported found → v.triple = w.triple := by
  simp only [p.shuffleManager_of_not_databricks hp]
  refine ⟨rfl, by decide, ?_, fun v => ⟨fun _ => EngineVersion.tag_eq_iff_spells, fun _ =>
    ofEngine_eq_supported_iff, ofEngine_eq_unsupported_iff, fun _ _ => triple_eq_of_ofEngine⟩⟩
  intro tag htag
  obtain ⟨t, ht⟩ := exists_spells htag
  exact ⟨t, ht, fun _ ht' => ht'.eq ht⟩

/-- A minor number of two digits does not end up at the tag of another version. -/
theorem minorForty_not_taken_for_four :
    Platform.dataproc.isDatabricks = false ∧
      Platform.dataproc.shuffleManager (some ⟨"3.4.0", 3, 4, 0⟩) none =
        .supported (className "340") ∧
      Platform.dataproc.shuffleManager (some ⟨"3.40", 3, 40, 0⟩) none = .unsupported "3.40" := by
  have hp : Platform.dataproc.isDatabricks = false := rfl
  obtain ⟨-, -, -, hversions⟩ := engine_tags_do_not_collide hp none
  obtain ⟨hspells, hsupported, -, -⟩ := hversions ⟨"3.4.0", 3, 4, 0⟩
  obtain ⟨hspells', -, hunsupported, -⟩ := hversions ⟨"3.40", 3, 40, 0⟩
  refine ⟨hp, (hsupported _).2 ⟨"340", by decide, ?_, rfl⟩, hunsupported.2 fun tag htag h => ?_⟩
  · exact (hspells "340" (by decide)).1 (by decide)
  · have hnot : EngineVersion.tag ⟨"3.40", 3, 40, 0⟩ ∉ engineTags := by decide
    exact hnot ((hspells' tag htag).2 h ▸ htag)

end SparkTuner
