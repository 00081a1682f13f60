import Mathlib.Data.List.Induction
import SparkTuner.Proofs.CommandLine.Recommend
import SparkTuner.Proofs.FirstOccurrence
import SparkTuner.Proofs.Tuner.Build

/-!
# Layers of settings

Each layer replaces single values of those below it, and adds its keys to theirs: what is listed
already stays as it is, and each new key is added once, where it first occurs (`addKeys_eq`). So a
layer that is put over the settings again changes nothing. A tuner made by the settings skips the
keys they list and those that the platform keeps to itself.
-/

namespace SparkTuner

open Text

/-- The keys in the environment: what stands between commas, without the blanks around it and where
that leaves anything. -/
def Environment.keys (env : Environment) : List String :=
  let listed := (env.skipKeys.map fun text => parts ',' text.toList).getD []
  ((listed.map trim).filter (· ≠ [])).map String.ofList

/-- The tuner is made for the platform of the settings and under their keys. -/
structure TunerInput.GoesBy {K : Type} (input : TunerInput K) (s : Settings) : Prop where
  platform : s.readPlatform = .ok input.platform
  policy : input.policy = { skip := s.skipKeys, limited := s.limitedKeys }

/-- A platform is read back from its name. -/
theorem Platform.parse_name (p : Platform) : parse p.name = .ok p := by
  have hwanted : lowered (trimmed p.name) = p.name := by cases p <;> decide +kernel
  have hne : p.name ≠ "on-prem" := by cases p <;> decide
  simp only [parse, hwanted, if_neg hne, ofName?_name]

/-- A strategy is read back from its name. -/
theorem SizingStrategy.parse_name (strategy : SizingStrategy) :
    parse strategy.name = .ok strategy := by
  have hwanted : trimmed strategy.name = strategy.name := by cases strategy <;> decide +kernel
  have hfind : all.find? (fun s => s.name == strategy.name) = some strategy := by
    cases strategy <;> decide
  simp only [parse, hwanted, hfind]

theorem Environment.keys_eq (env : Environment) :
    env.keys = (env.skipKeys.map Settings.keysIn).getD [] := by
  have hempty : ∀ cs : List Char, (!(String.ofList cs).isEmpty) = decide (cs ≠ []) := by
    intro cs
    rw [Bool.eq_iff_iff]
    simp [String.ofList_eq_empty_iff]
  cases hkeys : env.skipKeys with
  | none => simp [keys, hkeys]
  | some text =>
    simp only [keys, hkeys, Option.map_some, Option.getD_some, Settings.keysIn, cut, trimmed,
      List.map_map, List.filter_map, Function.comp_def, String.toList_ofList, hempty]

namespace Settings

/-! ## Lists of keys -/

section Keys

variable {keys more : List String} {key : String}

theorem addKeys_append (keys more more' : List String) :
    addKeys keys (more ++ more') = addKeys (addKeys keys more) more' :=
  List.foldl_append ..

theorem addKeys_concat (keys more : List String) (key : String) :
    addKeys keys (more ++ [key]) =
      if key ∈ addKeys keys more then addKeys keys more else addKeys keys more ++ [key] := by
  rw [addKeys_append]
  simp only [addKeys, List.foldl_cons, List.foldl_nil, List.contains_iff_mem]

/-- The keys that are there stay as they are, and each of the others is added once. -/
theorem addKeys_eq (keys more : List String) :
    addKeys keys more = keys ++ (more.filter (· ∉ keys)).eraseDups := by
  induction more using List.reverseRecOn with
  | nil => simp [addKeys]
  | append_singleton more key ih =>
    rw [addKeys_concat, ih, List.filter_append]
    by_cases hkey : key ∈ keys
    · simp [hkey]
    · by_cases hmore : key ∈ more <;> simp [hkey, hmore, eraseDups_concat]

theorem exists_listsOnce_addKeys (keys more : List String) :
    ∃ added, addKeys keys more = keys ++ added ∧ ListsOnce (more.filter (· ∉ keys)) added :=
  ⟨_, addKeys_eq keys more, listsOnce_eraseDups _⟩

theorem mem_addKeys : key ∈ addKeys keys more ↔ key ∈ keys ∨ key ∈ more := by
  simp only [addKeys_eq, List.mem_append, List.mem_eraseDups, List.mem_filter, decide_eq_true_eq]
  by_cases hkey : key ∈ keys <;> simp [hkey]

/-- Keys that are there already are not added again. -/
theorem addKeys_of_subset (h : ∀ key ∈ more, key ∈ keys) : addKeys keys more = keys := by
  have hnone : more.filter (· ∉ keys) = [] := by simpa using h
  rw [addKeys_eq, hnone, List.eraseDups_nil, List.append_nil]

theorem addKeys_addKeys (keys more : List String) :
    addKeys (addKeys keys more) more = addKeys keys more :=
  addKeys_of_subset fun _ h => mem_addKeys.2 (Or.inr h)

end Keys

/-! ## A layer put over the settings again -/

theorem getD_getD {α : Type} (o : Option α) (a : α) : o.getD (o.getD a) = o.getD a := by
  cases o <;> rfl

theorem withEnvironment_withEnvironment (s : Settings) (env : Environment) :
    (s.withEnvironment env).withEnvironment env = s.withEnvironment env := by
  simp only [withEnvironment, getD_getD, addKeys_addKeys]

theorem withFlags_withFlags (s : Settings) (flags : Flags) :
    (s.withFlags flags).withFlags flags = s.withFlags flags := by
  simp only [withFlags, getD_getD, addKeys_addKeys, Bool.and_assoc, Bool.and_self]

/-! ## Both layers -/

section Layers

variable (file : Settings) (env : Environment) (flags : Flags)

theorem skipKeys_layers :
    ((file.withEnvironment env).withFlags flags).skipKeys =
      addKeys file.skipKeys (env.keys ++ flags.skipKeys) := by
  rw [addKeys_append, env.keys_eq]
  rfl

theorem checkRelease_layers :
    ((file.withEnvironment env).withFlags flags).checkRelease =
      if flags.noReleaseCheck then false
      else match env.checkRelease.map trimmed with
        | some "true" => true
        | some "false" => false
        | _ => file.checkRelease := by
  show ((env.checkRelease.bind truth?).getD file.checkRelease && !flags.noReleaseCheck) = _
  cases flags.noReleaseCheck with
  | true => simp
  | false =>
    cases env.checkRelease with
    | none => simp
    | some text =>
      simp only [Option.bind_some, Option.map_some, truth?]
      split <;> simp_all

theorem parse_platform_layers :
    Platform.parse ((file.withEnvironment env).withFlags flags).platform =
      (flags.platform.map Except.ok).getD (Platform.parse (env.platform.getD file.platform)) := by
  rw [platform_withFlags]
  cases flags.platform with
  | none => simp only [Option.map_none, Option.getD_none]
  | some p => simp only [Option.map_some, Option.getD_some, Platform.parse_name]

end Layers

end Settings

theorem TunerInput.GoesBy.mem_skip {K : Type} [Number.Quantity K] {input : TunerInput K}
    {s : Settings} {readers : Readers K} {t : Tuner K} {key : String} (h : input.GoesBy s)
    (hbuild : input.build readers = .ok t) :
    key ∈ t.policy.skip ↔ key ∈ s.skipKeys ∨ key ∈ input.platform.excludedKeys := by
  obtain ⟨-, -, -, -, hskip, -⟩ := exists_chooseWorker hbuild
  rw [hskip, h.policy, List.mem_append]

/-- A run makes its tuner by its settings. -/
theorem CommandLine.Loaded.goesBy {w : CommandLine.Surroundings} {globals : CommandLine.Globals}
    {options : CommandLine.RecommendOptions} (run : CommandLine.Loaded w globals options) :
    run.input.GoesBy run.settings :=
  ⟨run.platform_eq, rfl⟩

open CommandLine in
/-- Settings from a file, with the environment and the flags over them: the platform and the release
check are those of the uppermost layer that gives them, except that flags only switch the check off.
The keys are those of the file, then the new ones of the other layers, each once and in their order.
A layer changes nothing the second time, and what is skipped in the end is what is listed or kept by
the platform. -/
theorem layered_settings_lose_no_key {file : Settings} {env : Environment} {flags : Flags}
    (hvalid : ((file.withEnvironment env).withFlags flags).validate = .ok ()) :
    let settings := (file.withEnvironment env).withFlags flags
    (∃ platform, settings.readPlatform = .ok platform ∧
      (flags.platform.map Except.ok).getD
        (Platform.parse (env.platform.getD file.platform)) = .ok platform ∧
      ∀ {K : Type} [Number.Quantity K] (input : TunerInput K) (readers : Readers K) (t : Tuner K),
        input.GoesBy settings → input.build readers = .ok t →
        ∀ key, key ∈ t.policy.skip ↔
          key ∈ settings.skipKeys ∨ key ∈ platform.excludedKeys) ∧
    (∀ (w : Surroundings) (globals : Globals) (options : RecommendOptions)
      (run : Loaded w globals options), run.settings = settings → run.input.GoesBy settings) ∧
    (settings.checkRelease =
      if flags.noReleaseCheck then false
      else match env.checkRelease.map trimmed with
        | some "true" => true
        | some "false" => false
        | _ => file.checkRelease) ∧
    (∃ added, settings.skipKeys = file.skipKeys ++ added ∧
      ListsOnce ((env.keys ++ flags.skipKeys).filter (· ∉ file.skipKeys)) added) ∧
    (∃ added, settings.limitedKeys = file.limitedKeys ++ added ∧
      ListsOnce (flags.limitedKeys.filter (· ∉ file.limitedKeys)) added) ∧
    (file.withEnvironment env).withEnvironment env = file.withEnvironment env ∧
    settings.withFlags flags = settings := by
  intro settings
  refine ⟨?_, ?_, file.checkRelease_layers env flags, ?_, ?_,
    file.withEnvironment_withEnvironment env, (file.withEnvironment env).withFlags_withFlags flags⟩
  · obtain ⟨platform, hread⟩ := (Settings.validate_eq_ok_iff.1 hvalid).exists_readPlatform
    have hparse := Settings.readPlatform_eq_ok_iff.1 hread
    refine ⟨platform, hread, (file.parse_platform_layers env flags).symm.trans hparse, ?_⟩
    intro K _ input readers t hinput hbuild key
    rw [hinput.mem_skip hbuild, Except.ok.inj (hinput.platform.symm.trans hread)]
  · rintro w globals options run hsettings
    exact hsettings ▸ run.goesBy
  · rw [file.skipKeys_layers env flags]
    exact Settings.exists_listsOnce_addKeys _ _
  · exact Settings.exists_listsOnce_addKeys _ _

open CommandLine in
/-- Three layers: the file repeats a key, the environment and the flags repeat keys of their own and
of the layers below, and the platform of the flags keeps keys to itself. -/
theorem threeLayers_lose_no_key :
    let file : Settings :=
      { platform := "mainframe", skipKeys := ["a", "a"], limitedKeys := ["x"] }
    let env : Environment :=
      { platform := some "emr", checkRelease := some " false ", skipKeys := some "b, , a,b " }
    let flags : Flags :=
      { platform := some .databricksAws, skipKeys := ["c", "b"], limitedKeys := ["y", "x", "y"] }
    let settings := (file.withEnvironment env).withFlags flags
    let input : TunerInput Float :=
      { app := .unavailable, platform := .databricksAws
        policy := { skip := settings.skipKeys, limited := settings.limitedKeys } }
    settings.validate = .ok () ∧ settings.checkRelease = false ∧
      settings.skipKeys = ["a", "a", "b", "c"] ∧ settings.limitedKeys = ["x", "y"] ∧
      settings.withFlags flags = settings ∧
      ∃ t, input.build Surroundings.readers = .ok t ∧ "spark.executor.cores" ∈ t.policy.skip ∧
        "c" ∈ t.policy.skip ∧ "y" ∉ t.policy.skip := by
  intro file env flags settings input
  have hsettings : settings.IsValid :=
    { platform := ⟨_, Platform.parse_name .databricksAws⟩
      strategy := ⟨_, SizingStrategy.parse_name .constantGpus⟩
      lookupTimeout := by decide +kernel
      metadataUrl := by decide +kernel
      skipKeys := by decide +kernel
      limitedKeys := by decide +kernel }
  have hvalid : settings.validate = .ok () := Settings.validate_eq_ok_iff.2 hsettings
  have hskip : settings.skipKeys = ["a", "a", "b", "c"] := by decide +kernel
  obtain ⟨⟨platform, hread, -, hskips⟩, -, hcheck, -, -, -, hagain⟩ :=
    layered_settings_lose_no_key hvalid
  have hplatform : settings.readPlatform = .ok .databricksAws :=
    Settings.readPlatform_eq_ok_iff.2 (Platform.parse_name .databricksAws)
  cases hread.symm.trans hplatform
  obtain ⟨t, hbuild⟩ : ∃ t, input.build Surroundings.readers = .ok t := ⟨_, rfl⟩
  have hkeys := hskips input Surroundings.readers t ⟨hread, rfl⟩ hbuild
  rw [hskip] at hkeys
  refine ⟨hvalid, hcheck.trans (by decide +kernel), hskip, by decide +kernel, hagain, t, hbuild,
    (hkeys _).2 (Or.inr (by decide)), (hkeys _).2 (Or.inl (by decide)), ?_⟩
  rw [hkeys]
  decide

end SparkTuner
