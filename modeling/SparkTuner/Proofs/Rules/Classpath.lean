import SparkTuner.Proofs.Plugin.Jar
import SparkTuner.Proofs.Rules.Wording

/-!
# What is said of the jars on a classpath

There are four things to say, each on its own condition (`JarRemark`), and their texts start with
different letters. So the text tells what the classpath holds and what is known of the latest
release (`plugin_jars_are_recognised`).
-/

namespace SparkTuner

open Ledger Text

namespace Rules

variable {K : Type} {latest : LatestRelease} {entries : List String} {c : String}

/-- The plugin's jars among the entries of a classpath. -/
def pluginJars (entries : List String) : List String := entries.filter isPluginJar

/-- What there is to say of the jars on a classpath. -/
inductive JarRemark (latest : LatestRelease) (entries : List String) : String → Prop where
  | missing (h : pluginJars entries = []) : JarRemark latest entries missingJarComment
  | several (h : 2 ≤ (pluginJars entries).length) :
    JarRemark latest entries (severalJarsComment (pluginJars entries))
  | newer {jar : String} {current known : PluginVersion} (hjar : pluginJars entries = [jar])
    (hcurrent : pluginJarVersion? jar = some current) (hlatest : latest = .known known)
    (hless : current.compare known = .lt) :
    JarRemark latest entries (newerReleaseComment known current)
  | unverified {jar : String} {current : PluginVersion} (hjar : pluginJars entries = [jar])
    (hcurrent : pluginJarVersion? jar = some current) (hlatest : latest = .unavailable) :
    JarRemark latest entries unverifiedReleaseComment

theorem releaseComment?_eq_some_iff {jar : String} (hjar : pluginJars entries = [jar]) :
    releaseComment? latest jar = some c ↔ JarRemark latest entries c := by
  constructor
  · intro h
    unfold releaseComment? at h
    split at h
    next current known hcurrent =>
      split at h
      next hless =>
        cases h
        exact .newer hjar hcurrent rfl hless
      next => cases h
    next hcurrent =>
      cases h
      exact .unverified hjar hcurrent rfl
    next => cases h
  · intro h
    cases h with
    | missing h => cases hjar.symm.trans h
    | several h =>
      rw [hjar] at h
      cases Nat.not_succ_le_self 1 h
    | newer hjar' hcurrent hlatest hless =>
      cases hjar.symm.trans hjar'
      simp only [releaseComment?, hcurrent, hlatest, hless, if_true]
    | unverified hjar' hcurrent hlatest =>
      cases hjar.symm.trans hjar'
      simp only [releaseComment?, hcurrent, hlatest]

theorem jarComment?_eq_some_iff :
    jarComment? latest entries = some c ↔ JarRemark latest entries c := by
  unfold jarComment?
  split
  next hnone =>
    rw [Option.some.injEq]
    constructor
    · rintro rfl
      exact .missing hnone
    · intro h
      cases h with
      | missing => rfl
      | several h =>
        rw [pluginJars, hnone] at h
        cases h
      | newer hjar => cases hnone.symm.trans hjar
      | unverified hjar => cases hnone.symm.trans hjar
  next jar hjar => exact releaseComment?_eq_some_iff hjar
  next hnone hone =>
    rw [Option.some.injEq]
    constructor
    · rintro rfl
      refine .several ?_
      unfold pluginJars
      rcases hjars : entries.filter isPluginJar with _ | ⟨jar, _ | ⟨jar', jars⟩⟩
      · exact absurd hjars hnone
      · exact absurd hjars (hone jar)
      · exact Nat.le_add_left 2 jars.length
    · intro h
      cases h with
      | missing h => exact absurd h hnone
      | several => rfl
      | newer hjar => exact absurd hjar (hone _)
      | unverified hjar => exact absurd hjar (hone _)

/-- The letter that a remark starts with tells why it is made. -/
theorem JarRemark.of_firstLetter? (h : JarRemark latest entries c) :
    (firstLetter? c = some 'R' → pluginJars entries = []) ∧
    (firstLetter? c = some 'M' → 2 ≤ (pluginJars entries).length) ∧
    (firstLetter? c = some 'A' → ∃ jar current known, pluginJars entries = [jar] ∧
      pluginJarVersion? jar = some current ∧ latest = .known known ∧
      current.compare known = .lt ∧ c = newerReleaseComment known current) ∧
    (firstLetter? c = some 'C' → latest = .unavailable) := by
  cases h with
  | missing h => simp [firstLetter?_missingJarComment, h]
  | several h => simp [firstLetter?_severalJarsComment, h]
  | @newer jar current known hjar hcurrent hlatest hless =>
    simp only [firstLetter?_newerReleaseComment, Option.some.injEq, Char.reduceEq, false_imp_iff,
      true_imp_iff, true_and, and_true]
    exact ⟨jar, current, known, hjar, hcurrent, hlatest, hless, rfl⟩
  | unverified hjar hcurrent hlatest => simp [firstLetter?_unverifiedReleaseComment, hlatest]

theorem jarRemark_missing_iff :
    JarRemark latest entries missingJarComment ↔ pluginJars entries = [] :=
  ⟨fun h => h.of_firstLetter?.1 firstLetter?_missingJarComment, .missing⟩

theorem jarRemark_several_iff :
    JarRemark latest entries (severalJarsComment (pluginJars entries)) ↔
      2 ≤ (pluginJars entries).length :=
  ⟨fun h => h.of_firstLetter?.2.1 (firstLetter?_severalJarsComment _), .several⟩

section Single

variable {jar : String} {current : PluginVersion}

theorem jarRemark_unverified_iff (hjar : pluginJars entries = [jar])
    (hcurrent : pluginJarVersion? jar = some current) :
    JarRemark latest entries unverifiedReleaseComment ↔ latest = .unavailable :=
  ⟨fun h => h.of_firstLetter?.2.2.2 firstLetter?_unverifiedReleaseComment,
    .unverified hjar hcurrent⟩

theorem newerReleaseComment_inj {known known' : PluginVersion} :
    newerReleaseComment known current = newerReleaseComment known' current ↔
      known.text = known'.text := by
  constructor
  · intro h
    unfold newerReleaseComment at h
    have hlists := congrArg String.toList h
    simp only [String.toList_append, List.append_left_inj, List.append_right_inj] at hlists
    exact String.toList_injective hlists
  · intro h
    unfold newerReleaseComment
    rw [h]

theorem jarRemark_newer_iff (hjar : pluginJars entries = [jar])
    (hcurrent : pluginJarVersion? jar = some current) (named : PluginVersion) :
    JarRemark latest entries (newerReleaseComment named current) ↔
      ∃ known, latest = .known known ∧ current.compare known = .lt ∧ known.text = named.text := by
  constructor
  · intro h
    obtain ⟨jar', current', known, hjar', hcurrent', hlatest, hless, htext⟩ :=
      h.of_firstLetter?.2.2.1 (firstLetter?_newerReleaseComment _ _)
    cases hjar.symm.trans hjar'
    cases hcurrent.symm.trans hcurrent'
    exact ⟨known, hlatest, hless, (newerReleaseComment_inj.1 htext).symm⟩
  · rintro ⟨known, hlatest, hless, htext⟩
    rw [← newerReleaseComment_inj.2 htext]
    exact .newer hjar hcurrent hlatest hless

end Single

/-- The rule says what there is to say unless it has been said, and leaves all else as it is. -/
theorem classpath_adds (ctx : Context K) (s : State) :
    ∃ added, classpath ctx s = { s with ledger := s.ledger.sayAll added } ∧
      ∀ c, c ∈ added ↔ c ∉ s.ledger.comments ∧ JarRemark ctx.latest ctx.app.rapidsJars c := by
  have hnothing : s = { s with ledger := s.ledger.sayAll [] } := by simp [sayAll]
  simp only [← jarComment?_eq_some_iff]
  unfold classpath
  cases jarComment? ctx.latest ctx.app.rapidsJars with
  | none => exact ⟨[], hnothing, by simp⟩
  | some c =>
    show ∃ added, { s with ledger := s.ledger.sayOnce c } = _ ∧ _
    unfold sayOnce
    split
    next hsaid =>
      refine ⟨[], hnothing, fun d => iff_of_false List.not_mem_nil ?_⟩
      rintro ⟨hnew, hd⟩
      cases hd
      exact hnew (List.contains_iff_mem.1 hsaid)
    next hsaid =>
      refine ⟨[c], rfl, fun d => ?_⟩
      rw [List.mem_singleton, Option.some.injEq]
      constructor
      · rintro rfl
        exact ⟨fun hmem => hsaid (List.contains_iff_mem.2 hmem), rfl⟩
      · rintro ⟨-, rfl⟩
        rfl

end Rules

open Rules PluginJar

/-- An entry holds the plugin exactly if it ends in a name of the grammar, which fixes the version.
The rule says that there is no such entry, names them if there are several, and compares a single
one with the latest release. -/
theorem plugin_jars_are_recognised :
    (∀ entry, isPluginJar entry = true ↔
      ∃ version, EndsInName version (trim entry.toList)) ∧
    (∀ cs version version', EndsInName version cs → EndsInName version' cs →
      version = version') ∧
    (∀ entry version, EndsInName version (trim entry.toList) →
      pluginJarVersion? entry = PluginVersion.parse? (String.ofList version)) ∧
    (∀ entry, isPluginJar entry = false → pluginJarVersion? entry = none) ∧
    ∀ (K : Type) (ctx : Context K) (s : State),
      let jars := pluginJars ctx.app.rapidsJars
      let said := s.ledger.comments
      ∃ added, classpath ctx s = { s with ledger := s.ledger.sayAll added } ∧
        (missingJarComment ∈ added ↔ missingJarComment ∉ said ∧ jars = []) ∧
        (severalJarsComment jars ∈ added ↔ severalJarsComment jars ∉ said ∧ 2 ≤ jars.length) ∧
        ∀ jar current, jars = [jar] → pluginJarVersion? jar = some current →
          (∀ named, newerReleaseComment named current ∈ added ↔
            newerReleaseComment named current ∉ said ∧ ∃ known, ctx.latest = .known known ∧
              current.compare known = .lt ∧ known.text = named.text) ∧
          (unverifiedReleaseComment ∈ added ↔
            unverifiedReleaseComment ∉ said ∧ ctx.latest = .unavailable) := by
  refine ⟨fun _ => isPluginJar_iff, fun _ _ _ => EndsInName.unique,
    fun _ _ => pluginJarVersion?_of_endsInName, fun _ => pluginJarVersion?_of_not_isPluginJar, ?_⟩
  intro K ctx s jars said
  obtain ⟨added, hrule, hadded⟩ := classpath_adds ctx s
  refine ⟨added, hrule, ?_, ?_, fun jar current hjar hcurrent => ⟨fun named => ?_, ?_⟩⟩
  · rw [hadded, jarRemark_missing_iff]
  · rw [hadded, jarRemark_several_iff]
  · rw [hadded, jarRemark_newer_iff hjar hcurrent]
  · rw [hadded, jarRemark_unverified_iff hjar hcurrent]

/-- The name may follow a path, and the classifier is no part of the version. -/
theorem classifiedJar_recognised :
    let entry := " /opt/jars/rapids-4-spark_2.12-24.08.1-cuda11.jar"
    let current : PluginVersion := ⟨"24.08.1", [24, 8, 1]⟩
    let known : PluginVersion := ⟨"24.10.0", [24, 10, 0]⟩
    let ctx : Context ℚ :=
      { app := { AppSummary.blank with rapidsJars := ["/opt/jars/cudf-24.08.0.jar", entry] }
        platform := .onPrem
        tool := .profiling
        latest := .known known }
    let s : State := { ledger := .start .empty {} }
    EndsInName "24.08.1".toList (trim entry.toList) ∧ isPluginJar entry = true ∧
      pluginJarVersion? entry = some current ∧ pluginJars ctx.app.rapidsJars = [entry] ∧
      newerReleaseComment known current ∈ (classpath ctx s).ledger.comments ∧
      isPluginJar "cudf-24.08.0.jar" = false ∧ pluginJarVersion? "cudf-24.08.0.jar" = none := by
  intro entry current known ctx s
  obtain ⟨hjar, -, hversion, hnone, hrule⟩ := plugin_jars_are_recognised
  have hends : EndsInName "24.08.1".toList (trim entry.toList) :=
    find?_eq_some_iff.1 (by decide +kernel)
  have hread : PluginVersion.parse? (String.ofList "24.08.1".toList) = some current := by
    decide +kernel
  have hjars : pluginJars ctx.app.rapidsJars = [entry] := by decide +kernel
  have hother : isPluginJar "cudf-24.08.0.jar" = false := by decide +kernel
  have hcurrent : pluginJarVersion? entry = some current :=
    (hversion entry _ hends).trans hread
  have hless : current.compare known = .lt := by cbv
  obtain ⟨added, hadded, -, -, hsingle⟩ := hrule ℚ ctx s
  have hnewer := ((hsingle entry current hjars hcurrent).1 known).2
    ⟨List.not_mem_nil, known, rfl, hless, rfl⟩
  refine ⟨hends, (hjar entry).2 ⟨_, hends⟩, hcurrent, hjars, ?_, hother, hnone _ hother⟩
  rw [hadded]
  exact List.mem_append_right _ hnewer

end SparkTuner
