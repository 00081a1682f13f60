import SparkTuner.Proofs.CommandLine.Recommend
import SparkTuner.Proofs.Tuner.Degraded
import SparkTuner.Proofs.Tuner.Words

/-!
# What stops recommending

The command that makes recommendations is stopped by obstacles of eight kinds, and it meets them in
the order of its steps. The first one decides what the process ends with; if there is none, a report
is printed, which tells of each description that is not well-formed. Only a run that leaves the
64-bit words ends without any of them and without a report (`recommending_stops_at_obstacles`).
-/

namespace SparkTuner.CommandLine

/-! ## Obstacles -/

/-- What stops a command that makes recommendations, in the order in which it gets there. -/
inductive Obstacle where
  /-- The settings file cannot be read, or holds no settings. -/
  | settingsFile
  /-- The settings of the file and the environment are not valid. -/
  | settings
  /-- The settings are not valid with the flags over them. -/
  | flags
  | summary
  | cluster
  | target
  | driverLog
  /-- The worker of the target contradicts itself. -/
  | contradiction
  deriving DecidableEq

/-- A file that is named cannot be read. -/
def Surroundings.Lacks (w : Surroundings) (path : Option String) : Prop :=
  ∃ p e, path = some p ∧ w.content p = .error e

namespace Obstacle

/-- Every obstacle, in order. -/
def all : List Obstacle :=
  [settingsFile, settings, flags, summary, cluster, target, driverLog, contradiction]

/-- The obstacles that would be met before. -/
def earlier (o : Obstacle) : List Obstacle := all.takeWhile (· ≠ o)

/-- What the process ends with: settings and targets that could be read are the user's to mend. -/
def exitCode : Obstacle → ℕ
  | settings | flags | contradiction => 2
  | _ => 1

section Surroundings

variable (w : Surroundings) (globals : Globals) (options : RecommendOptions)

/-- The obstacle is there. -/
def IsThere : Obstacle → Prop
  | settingsFile => ∃ path, w.settingsFile? globals.settings = some path ∧
      ∀ text s, w.content path = .ok text → Settings.parse text ≠ .ok s
  | settings => ∃ s, w.layeredSettings globals.settings = .ok s ∧ ¬s.IsValid
  | flags => ∃ s, w.layeredSettings globals.settings = .ok s ∧ ¬(s.withFlags options.flags).IsValid
  | summary => ∃ path, options.summary = some path ∧
      ∀ text app, w.content path = .ok text → AppSummary.parse text ≠ .ok app
  | cluster => w.Lacks options.cluster
  | target => w.Lacks options.target
  | driverLog => w.Lacks options.driverLog
  | contradiction => ∃ path text description info, options.target = some path ∧
      w.content path = .ok text ∧ TargetDescription.parse text = .ok description ∧
      description.worker = some info ∧ info.IsContradictory

/-- None of these obstacles is there. -/
def Clear (obstacles : List Obstacle) : Prop := ∀ o ∈ obstacles, ¬o.IsThere w globals options

/-- The obstacle is there, and none before it. -/
def IsFirst (o : Obstacle) : Prop :=
  o.IsThere w globals options ∧ Clear w globals options o.earlier

end Surroundings

variable {w : Surroundings} {globals : Globals} {options : RecommendOptions} {o o' : Obstacle}

theorem mem_all (o : Obstacle) : o ∈ all := by
  cases o <;> decide

theorem mem_earlier_or (o o' : Obstacle) : o = o' ∨ o ∈ o'.earlier ∨ o' ∈ o.earlier := by
  cases o <;> cases o' <;> decide

theorem IsFirst.eq (h : o.IsFirst w globals options) (h' : o'.IsFirst w globals options) :
    o = o' := by
  rcases mem_earlier_or o o' with heq | hlt | hgt
  · exact heq
  · exact absurd h.1 (h'.2 o hlt)
  · exact absurd h'.1 (h.2 o' hgt)

theorem Clear.snoc {obstacles : List Obstacle} (h : Clear w globals options obstacles)
    (ho : ¬o.IsThere w globals options) : Clear w globals options (obstacles ++ [o]) := by
  intro o' ho'
  rcases List.mem_append.1 ho' with hmem | hmem
  · exact h o' hmem
  · exact List.mem_singleton.1 hmem ▸ ho

end Obstacle

/-! ## Steps -/

/-- The failure is one that a command ends with at this obstacle. -/
def Failure.EndsAt (f : Failure) (o : Obstacle) : Prop :=
  f.cause ≠ .overflow ∧ f.exitCode = o.exitCode

/-- The step fails if the obstacle is there, as a command ends at it, and only then. -/
structure StopsAt {α : Type} (w : Surroundings) (globals : Globals) (options : RecommendOptions)
    (step : Except Failure α) (o : Obstacle) : Prop where
  of_error : ∀ f, step = .error f → o.IsThere w globals options ∧ f.EndsAt o
  of_ok : ∀ a, step = .ok a → ¬o.IsThere w globals options

section Steps

variable {α : Type} {w : Surroundings} {globals : Globals} {options : RecommendOptions}
  {step : Except Failure α} {o : Obstacle} {f : Failure}

theorem stopsAt_of_isThere (hthere : o.IsThere w globals options) (hends : f.EndsAt o) :
    StopsAt w globals options (.error f : Except Failure α) o :=
  ⟨fun _ hf => Except.error.inj hf ▸ ⟨hthere, hends⟩, nofun⟩

theorem stopsAt_of_not_isThere {a : α} (hthere : ¬o.IsThere w globals options) :
    StopsAt w globals options (.ok a) o :=
  ⟨nofun, fun _ _ => hthere⟩

/-! ### Reading a file -/

/-- A file that has to be there cannot be read or parsed, or it is both. -/
theorem need_bind_cases (w : Surroundings) (path : String)
    (parse : String → Except Error α) :
    ((∀ text a, w.content path = .ok text → parse text ≠ .ok a) ∧
        ∃ e, (w.need path).bind parse = .error e ∧
          ((∃ cause, e = .file cause) ∨ ∃ text, parse text = .error e)) ∨
      ∃ text a, w.content path = .ok text ∧ parse text = .ok a ∧
        (w.need path).bind parse = .ok a := by
  cases hcontent : w.content path with
  | error cause =>
    have hread : (w.need path).bind parse = .error (.file cause) := by
      rw [Surroundings.need, hcontent]
      rfl
    exact Or.inl ⟨nofun, _, hread, Or.inl ⟨cause, rfl⟩⟩
  | ok text =>
    have hread : (w.need path).bind parse = parse text := by
      rw [Surroundings.need, hcontent]
      rfl
    cases hparse : parse text with
    | error e =>
      refine Or.inl ⟨fun text' a htext => ?_, e, hread.trans hparse, Or.inr ⟨text, hparse⟩⟩
      cases htext
      rw [hparse]
      exact nofun
    | ok a => exact Or.inr ⟨text, a, rfl, hparse, hread.trans hparse⟩

theorem eq_toml_of_parse {text : String} {e : Error} (h : Settings.parse text = .error e) :
    e = .toml := by
  unfold Settings.parse at h
  split at h
  · cases h
  · cases h
    rfl

theorem eq_json_of_parse {text : String} {e : Error} (h : AppSummary.parse text = .error e) :
    e = .json := by
  unfold AppSummary.parse at h
  split at h
  · cases h
  · cases h
    rfl

/-! ### Descriptions -/

section Descriptions

variable {name : String} {parse : String → Except Error α} {missing : Cause} {path : Option String}
  {given : Given α}

/-- Only a description that cannot be read fails; one that is read is parsed, whatever comes of
it. -/
theorem loadDescription_stopsAt (hmissing : missing = .absent ∨ missing = .unreadable .notFound)
    (hthere : o.IsThere w globals options ↔ w.Lacks path) (hcode : o.exitCode = 1) :
    StopsAt w globals options (w.loadDescription name parse missing path) o := by
  unfold Surroundings.loadDescription
  split
  next =>
    refine stopsAt_of_not_isThere fun h => ?_
    obtain ⟨path, e, hpath, -⟩ := hthere.1 h
    cases hpath
  next path =>
    cases hcontent : w.content path with
    | ok text =>
      refine stopsAt_of_not_isThere fun h => ?_
      obtain ⟨path', e, hpath, he⟩ := hthere.1 h
      cases hpath
      cases hcontent.symm.trans he
    | error e =>
      have hlacks := hthere.2 ⟨path, e, rfl, hcontent⟩
      cases e with
      | notFound =>
        rcases hmissing with rfl | rfl <;>
          exact stopsAt_of_isThere hlacks ⟨nofun, hcode.symm⟩
      | _ => exact stopsAt_of_isThere hlacks ⟨nofun, hcode.symm⟩

theorem exists_text_of_loadDescription
    (h : w.loadDescription name parse missing path = .ok given) (hgiven : given ≠ .absent) :
    ∃ p text, path = some p ∧ w.content p = .ok text := by
  unfold Surroundings.loadDescription at h
  split at h
  next =>
    cases h
    exact absurd rfl hgiven
  next p =>
    split at h
    next text htext => exact ⟨p, text, rfl, htext⟩
    next => cases h
    next => cases h

/-- A tuner reads what was parsed. -/
theorem read_of_loadDescription {p text : String} (reader : String → Except Error α)
    (h : w.loadDescription name parse missing path = .ok given) (hpath : path = some p)
    (htext : w.content p = .ok text) : given.read reader = (parse text).map some := by
  unfold Surroundings.loadDescription at h
  simp only [hpath, htext] at h
  cases h
  cases parse text <;> rfl

end Descriptions

/-! ### Settings -/

theorem layeredSettings_cases (w : Surroundings) (globals : Globals) (options : RecommendOptions) :
    (Obstacle.settingsFile.IsThere w globals options ∧
        ∃ e, w.layeredSettings globals.settings = .error e ∧
          ((∃ cause, e = .file cause) ∨ e = .toml)) ∨
      ¬Obstacle.settingsFile.IsThere w globals options ∧
        ∃ s, w.layeredSettings globals.settings = .ok s := by
  unfold Surroundings.layeredSettings Obstacle.IsThere
  cases w.settingsFile? globals.settings with
  | none =>
    refine Or.inr ⟨?_, _, rfl⟩
    rintro ⟨path, hpath, -⟩
    cases hpath
  | some path =>
    dsimp only
    rcases need_bind_cases w path Settings.parse with ⟨hnone, e, he, hcause⟩ |
      ⟨text, s, htext, hparse, hs⟩
    · refine Or.inl ⟨⟨path, rfl, hnone⟩, e, by rw [he]; rfl, hcause.imp_right ?_⟩
      rintro ⟨text, hparse⟩
      exact eq_toml_of_parse hparse
    · refine Or.inr ⟨?_, _, by rw [hs]; rfl⟩
      rintro ⟨path', hpath, hnone⟩
      cases hpath
      exact hnone text s htext hparse

theorem loadSettings_eq (w : Surroundings) (named : Option String) :
    w.loadSettings named = during "Failed to load configuration"
      (w.layeredSettings named >>= fun s => s.validate >>= fun _ => .ok s) := rfl

/-- Loading the settings ends at one of the first two obstacles, or they are not there. -/
theorem loadSettings_cases (w : Surroundings) (globals : Globals) (options : RecommendOptions) :
    (∃ o f, w.loadSettings globals.settings = .error f ∧
        o.IsFirst w globals options ∧ f.EndsAt o) ∨
      Obstacle.Clear w globals options [.settingsFile, .settings] ∧
        ∃ s, w.layeredSettings globals.settings = .ok s ∧
          w.loadSettings globals.settings = .ok s := by
  rw [loadSettings_eq]
  rcases layeredSettings_cases w globals options with ⟨hthere, e, he, hcause⟩ | ⟨hfile, s, hs⟩
  · refine Or.inl ⟨.settingsFile, _, by rw [he]; rfl, ⟨hthere, nofun⟩, ?_⟩
    rcases hcause with ⟨cause, rfl⟩ | rfl
    · exact ⟨nofun, rfl⟩
    · exact ⟨nofun, rfl⟩
  · have hclear : Obstacle.Clear w globals options [.settingsFile] := by
      intro o ho
      exact List.mem_singleton.1 ho ▸ hfile
    rcases s.validate_cases with ⟨hvalid, hok⟩ | ⟨hinvalid, text, hbad⟩
    · refine Or.inr ⟨hclear.snoc ?_, s, hs, by rw [hs, ok_bind, hok]; rfl⟩
      rintro ⟨s', hs', hinvalid⟩
      cases hs.symm.trans hs'
      exact hinvalid hvalid
    · refine Or.inl ⟨.settings, _, by rw [hs, ok_bind, hbad]; rfl, ⟨⟨s, hs, hinvalid⟩, hclear⟩, ?_⟩
      exact ⟨nofun, rfl⟩

/-- The flags go over the settings that were loaded, and are checked with them. -/
theorem flags_isThere_iff {base : Settings} (options : RecommendOptions)
    (hbase : w.loadSettings globals.settings = .ok base) :
    Obstacle.Clear w globals options [.settingsFile, .settings] ∧
      (Obstacle.flags.IsThere w globals options ↔ ¬(base.withFlags options.flags).IsValid) := by
  rcases loadSettings_cases w globals options with ⟨o, f, hf, -⟩ | ⟨hclear, s, hs, hloaded⟩
  · cases hbase.symm.trans hf
  · cases hbase.symm.trans hloaded
    refine ⟨hclear, ?_, fun hinvalid => ⟨base, hs, hinvalid⟩⟩
    rintro ⟨s', hs', hinvalid⟩
    cases hs.symm.trans hs'
    exact hinvalid

/-- With valid settings, also below the flags, none of the first three obstacles is there. -/
theorem Checked.clear (c : Checked w globals options) :
    Obstacle.Clear w globals options [.settingsFile, .settings, .flags] := by
  obtain ⟨hclear, hflags⟩ := flags_isThere_iff options c.loaded
  exact hclear.snoc fun hthere => hflags.1 hthere (Settings.validate_eq_ok_iff.1 c.valid)

/-! ### Files -/

theorem loadApp_stopsAt (w : Surroundings) (globals : Globals) (options : RecommendOptions) :
    StopsAt w globals options (w.loadApp options) .summary := by
  unfold Surroundings.loadApp
  split
  next path hpath =>
    unfold Surroundings.loadSummary
    rcases need_bind_cases w path AppSummary.parse with ⟨hnone, e, he, hcause⟩ |
      ⟨text, app, htext, hparse, happ⟩
    · rw [he]
      refine stopsAt_of_isThere ⟨path, hpath, hnone⟩ ?_
      rcases hcause with ⟨cause, rfl⟩ | ⟨text, hparse⟩
      · exact ⟨nofun, rfl⟩
      · rw [eq_json_of_parse hparse]
        exact ⟨nofun, rfl⟩
    · rw [happ]
      refine stopsAt_of_not_isThere ?_
      rintro ⟨path', hpath', hnone⟩
      cases hpath.symm.trans hpath'
      exact hnone text app htext hparse
  next hpath =>
    refine stopsAt_of_not_isThere ?_
    rintro ⟨path, hpath', -⟩
    cases hpath.symm.trans hpath'

theorem loadCluster_stopsAt (w : Surroundings) (globals : Globals) (options : RecommendOptions) :
    StopsAt w globals options (w.loadCluster options) .cluster :=
  loadDescription_stopsAt (Or.inl rfl) Iff.rfl rfl

theorem loadTarget_stopsAt (w : Surroundings) (globals : Globals) (options : RecommendOptions) :
    StopsAt w globals options (w.loadTarget options) .target :=
  loadDescription_stopsAt (Or.inr rfl) Iff.rfl rfl

theorem loadDriverLog_stopsAt (w : Surroundings) (globals : Globals) (options : RecommendOptions) :
    StopsAt w globals options (w.loadDriverLog options.driverLog) .driverLog := by
  unfold Surroundings.loadDriverLog
  split
  next hpath =>
    refine stopsAt_of_not_isThere ?_
    rintro ⟨path, e, hpath', -⟩
    cases hpath.symm.trans hpath'
  next path hpath =>
    unfold Surroundings.need
    cases hcontent : w.content path with
    | error e =>
      exact stopsAt_of_isThere ⟨path, e, hpath, hcontent⟩ ⟨nofun, rfl⟩
    | ok text =>
      refine stopsAt_of_not_isThere ?_
      rintro ⟨path', e, hpath', he⟩
      cases hpath.symm.trans hpath'
      cases hcontent.symm.trans he

end Steps

/-! ## Descriptions -/

/-- A description of the cluster or the target can be read as a file but not parsed. -/
inductive Misread (w : Surroundings) (options : RecommendOptions) :
    TunerInput.Part → Error → Prop where
  | cluster {path text : String} {cause : Error} (hpath : options.cluster = some path)
      (htext : w.content path = .ok text) (h : ClusterDescription.parse text = .error cause) :
      Misread w options .cluster cause
  | target {path text : String} {cause : Error} (hpath : options.target = some path)
      (htext : w.content path = .ok text) (h : TargetDescription.parse text = .error cause) :
      Misread w options .target cause

namespace Loaded

variable {w : Surroundings} {globals : Globals} {options : RecommendOptions}
  (p : Loaded w globals options)

/-- A description that is not well-formed is one that the tuner is told of. -/
theorem fails_of_misread {part : TunerInput.Part} {cause : Error}
    (h : Misread w options part cause) : p.input.Fails Surroundings.readers part cause := by
  cases h with
  | cluster hpath htext hparse =>
    refine (read_of_loadDescription _ p.cluster_eq hpath htext).trans ?_
    rw [hparse]
    rfl
  | target hpath htext hparse =>
    refine (read_of_loadDescription _ p.target_eq hpath htext).trans ?_
    rw [hparse]
    rfl

/-- The tuner is stopped by a target exactly if it contradicts itself as it is written. -/
theorem contradicts_iff : p.input.Contradicts Surroundings.readers ↔
    Obstacle.contradiction.IsThere w globals options := by
  constructor
  · rintro ⟨description, info, hread, hworker, hcontradictory⟩
    have hgiven : p.target ≠ .absent := by
      intro habsent
      have hnothing : p.target.read Surroundings.readers.target = .ok none := by
        rw [habsent]
        rfl
      cases hnothing.symm.trans hread
    obtain ⟨path, text, hpath, htext⟩ := exists_text_of_loadDescription p.target_eq hgiven
    have hparsed := (read_of_loadDescription _ p.target_eq hpath htext).symm.trans hread
    cases hparse : TargetDescription.parse text with
    | error e =>
      rw [hparse] at hparsed
      cases hparsed
    | ok found =>
      rw [hparse] at hparsed
      cases hparsed
      exact ⟨path, text, description, info, hpath, htext, hparse, hworker, hcontradictory⟩
  · rintro ⟨path, text, description, info, hpath, htext, hparse, hworker, hcontradictory⟩
    refine ⟨description, info, ?_, hworker, hcontradictory⟩
    refine (read_of_loadDescription _ p.target_eq hpath htext).trans ?_
    rw [hparse]
    rfl

/-- With all files, none of the obstacles before the last one is there. -/
theorem clear (p : Loaded w globals options) :
    Obstacle.Clear w globals options Obstacle.contradiction.earlier :=
  (((p.toChecked.clear.snoc ((loadApp_stopsAt ..).of_ok _ p.app_eq)).snoc
    ((loadCluster_stopsAt ..).of_ok _ p.cluster_eq)).snoc
    ((loadTarget_stopsAt ..).of_ok _ p.target_eq)).snoc
    ((loadDriverLog_stopsAt ..).of_ok _ p.driverLog_eq)

/-- With a tuner, no obstacle is there. -/
theorem clear_all {t : Tuner Float} (p : Loaded w globals options)
    (hbuild : p.input.build Surroundings.readers = .ok t) :
    Obstacle.Clear w globals options Obstacle.all := by
  refine p.clear.snoc fun hthere => ?_
  obtain ⟨text, htext⟩ := TunerInput.build_of_contradicts (p.contradicts_iff.2 hthere)
  cases hbuild.symm.trans htext

end Loaded

/-! ## Runs -/

section Runs

variable {w : Surroundings} {globals : Globals} {options : RecommendOptions}
  {result : Except Failure String}

/-- A run ends at the first obstacle there is, or comes to a tuner because there is none. -/
theorem Ends.classified (h : Ends w globals options result) :
    (∃ o f, result = .error f ∧ o.IsFirst w globals options ∧ f.EndsAt o) ∨
      Obstacle.Clear w globals options Obstacle.all ∧
        ∃ (p : Loaded w globals options) (t : Tuner Float),
          p.input.build Surroundings.readers = .ok t ∧
          (t.recommend? = none ∧ result = .error ⟨none, .overflow⟩ ∨
            ∃ r, t.recommend? = some r ∧
              result = .ok ((p.report r).render (options.format.getD .text))) := by
  cases h with
  | settings hf =>
    rcases loadSettings_cases w globals options with ⟨o, f, hf', hfirst, hends⟩ | ⟨-, s, -, hs⟩
    · cases hf.symm.trans hf'
      exact Or.inl ⟨o, _, rfl, hfirst, hends⟩
    · cases hf.symm.trans hs
  | @flags base e hbase hbad =>
    obtain ⟨hclear, hflags⟩ := flags_isThere_iff options hbase
    rcases (base.withFlags options.flags).validate_cases with ⟨-, hok⟩ | ⟨hinvalid, text, hbad'⟩
    · cases hbad.symm.trans hok
    · cases hbad.symm.trans hbad'
      exact Or.inl ⟨.flags, _, rfl, ⟨hflags.2 hinvalid, hclear⟩, nofun, rfl⟩
  | summary c hf =>
    obtain ⟨hthere, hends⟩ := (loadApp_stopsAt w globals options).of_error _ hf
    exact Or.inl ⟨.summary, _, rfl, ⟨hthere, c.clear⟩, hends⟩
  | cluster c happ hf =>
    obtain ⟨hthere, hends⟩ := (loadCluster_stopsAt w globals options).of_error _ hf
    have hclear := c.clear.snoc ((loadApp_stopsAt ..).of_ok _ happ)
    exact Or.inl ⟨.cluster, _, rfl, ⟨hthere, hclear⟩, hends⟩
  | target c happ hcluster hf =>
    obtain ⟨hthere, hends⟩ := (loadTarget_stopsAt w globals options).of_error _ hf
    have hclear := (c.clear.snoc ((loadApp_stopsAt ..).of_ok _ happ)).snoc
      ((loadCluster_stopsAt ..).of_ok _ hcluster)
    exact Or.inl ⟨.target, _, rfl, ⟨hthere, hclear⟩, hends⟩
  | driverLog c happ hcluster htarget hf =>
    obtain ⟨hthere, hends⟩ := (loadDriverLog_stopsAt w globals options).of_error _ hf
    have hclear := ((c.clear.snoc ((loadApp_stopsAt ..).of_ok _ happ)).snoc
      ((loadCluster_stopsAt ..).of_ok _ hcluster)).snoc ((loadTarget_stopsAt ..).of_ok _ htarget)
    exact Or.inl ⟨.driverLog, _, rfl, ⟨hthere, hclear⟩, hends⟩
  | tuner p hbad =>
    by_cases hcontradicts : p.input.Contradicts Surroundings.readers
    · obtain ⟨text, htext⟩ := TunerInput.build_of_contradicts hcontradicts
      cases hbad.symm.trans htext
      exact Or.inl ⟨.contradiction, _, rfl, ⟨p.contradicts_iff.1 hcontradicts, p.clear⟩,
        nofun, rfl⟩
    · obtain ⟨t, ht⟩ := TunerInput.exists_build hcontradicts
      cases hbad.symm.trans ht
  | overflow p hbuild hnone =>
    exact Or.inr ⟨p.clear_all hbuild, p, _, hbuild, Or.inl ⟨hnone, rfl⟩⟩
  | report p hbuild hsome =>
    exact Or.inr ⟨p.clear_all hbuild, p, _, hbuild, Or.inr ⟨_, hsome, rfl⟩⟩

/-- What a tuner is told of stands among the comments of the report. -/
theorem Loaded.mem_comments_of_misread (p : Loaded w globals options) {t : Tuner Float}
    {r : Recommendations} (hbuild : p.input.build Surroundings.readers = .ok t)
    (hresult : t.recommend? = some r) {part : TunerInput.Part} {cause : Error}
    (h : Misread w options part cause) :
    part.opening ++ cause.message ∈ (p.report r).comments := by
  have hdiagnosed : part.opening ++ cause.message ∈ t.diagnostics :=
    (TunerInput.mem_diagnostics_iff hbuild).2 ⟨part, cause, p.fails_of_misread h, rfl⟩
  rw [Tuner.recommend?_eq_silent hbuild] at hresult
  obtain ⟨silent, -, rfl⟩ := Option.map_eq_some_iff.1 hresult
  exact (sortComments_perm _).mem_iff.2 (List.mem_append_right _ hdiagnosed)

end Runs

/-- The command that makes recommendations stops at the obstacles named above and nowhere else. It
fails, but for leaving the words, exactly if there is an obstacle, and at the first of them it ends
with its exit code. Otherwise there are all files and a tuner, and it prints the report of what the
tuner recommends, with the diagnostic of each description that is not well-formed among the
comments. Only if sums for the memory of the executors leave the 64-bit words there is no report. -/
theorem recommending_stops_at_obstacles (w : Surroundings) (globals : Globals)
    (options : RecommendOptions) :
    let result := w.run ⟨globals, .recommend options⟩
    ((∃ f, result = .error f ∧ f.cause ≠ .overflow) ↔
      ∃ o : Obstacle, o.IsThere w globals options) ∧
    (∀ o : Obstacle, o.IsFirst w globals options →
      ∃ f, result = .error f ∧ f.cause ≠ .overflow ∧ f.exitCode = o.exitCode) ∧
    ((∀ o : Obstacle, ¬o.IsThere w globals options) →
      ∃ (p : Loaded w globals options) (t : Tuner Float),
        p.input.build Surroundings.readers = .ok t ∧
        (¬t.LeavesWords → ∃ r, t.recommend? = some r ∧
          result = .ok ((p.report r).render (options.format.getD .text)) ∧
          ∀ part cause, Misread w options part cause →
            part.opening ++ cause.message ∈ (p.report r).comments) ∧
        (t.LeavesWords → result = .error ⟨none, .overflow⟩)) := by
  intro result
  rcases (ends_run w globals options).classified with ⟨o, f, hf, hfirst, hcause, hcode⟩ |
    ⟨hclear, p, t, hbuild, hends⟩
  · refine ⟨⟨fun _ => ⟨o, hfirst.1⟩, fun _ => ⟨f, hf, hcause⟩⟩, fun o' hfirst' => ?_,
      fun hnone => absurd hfirst.1 (hnone o)⟩
    exact ⟨f, hf, hcause, hfirst.eq hfirst' ▸ hcode⟩
  · have hnone : ∀ o : Obstacle, ¬o.IsThere w globals options := fun o => hclear o o.mem_all
    refine ⟨⟨?_, fun ⟨o, ho⟩ => absurd ho (hnone o)⟩, fun o hfirst => absurd hfirst.1 (hnone o),
      fun _ => ⟨p, t, hbuild, ?_, ?_⟩⟩
    · rintro ⟨f, hf, hcause⟩
      rcases hends with ⟨-, hresult⟩ | ⟨r, -, hresult⟩
      · cases hf.symm.trans hresult
        exact absurd rfl hcause
      · cases hf.symm.trans hresult
    · intro hstays
      rcases hends with ⟨hnothing, -⟩ | ⟨r, hr, hresult⟩
      · exact absurd (Tuner.recommend?_eq_none_iff_leavesWords.1 hnothing) hstays
      · exact ⟨r, hr, hresult, fun _ _ h => p.mem_comments_of_misread hbuild hr h⟩
    · intro hleaves
      rcases hends with ⟨-, hresult⟩ | ⟨r, hr, -⟩
      · exact hresult
      · cases hr.symm.trans (Tuner.recommend?_eq_none_iff_leavesWords.2 hleaves)

/-- A target with a machine type and a number of cores beside it. -/
theorem contradictoryTarget_stops :
    let w := Surroundings.holding
      [("target.yaml", "workerInfo:\n  instanceType: g2-standard-8\n  cpuCores: 8\n")]
    ∃ f, w.run ⟨{}, .recommend { target := some "target.yaml" }⟩ = .error f ∧
      f.cause ≠ .overflow ∧ f.exitCode = 2 := by
  intro w
  let options : RecommendOptions := { target := some "target.yaml" }
  have hsettings : w.loadSettings none = .ok {} := loadSettings_holding (by simp)
  have hclear : Obstacle.Clear w {} options [.settingsFile, .settings, .flags] := by
    obtain ⟨hclear, hflags⟩ := @flags_isThere_iff w {} _ options hsettings
    refine hclear.snoc fun hthere => hflags.1 hthere ?_
    rcases Settings.validate_cases {} with ⟨hvalid, -⟩ | ⟨-, text, hbad⟩
    · exact hvalid
    · cases validate_default.symm.trans hbad
  have hparse : ∃ description info, TargetDescription.parse
      "workerInfo:\n  instanceType: g2-standard-8\n  cpuCores: 8\n" = .ok description ∧
      description.worker = some info ∧ info.IsContradictory := by
    let info : WorkerInfo Float := { instanceType := some "g2-standard-8", cpuCores := some 8 }
    exact ⟨{ worker := some info }, info, rfl, rfl, by simp [info, WorkerInfo.IsContradictory]⟩
  obtain ⟨description, info, hdescription, hworker, hcontradictory⟩ := hparse
  have hfirst : Obstacle.contradiction.IsFirst w {} options := by
    refine ⟨⟨_, _, _, _, rfl, rfl, hdescription, hworker, hcontradictory⟩, ?_⟩
    exact (((hclear.snoc ((loadApp_stopsAt ..).of_ok _ rfl)).snoc
      ((loadCluster_stopsAt ..).of_ok _ rfl)).snoc ((loadTarget_stopsAt ..).of_ok _ rfl)).snoc
      ((loadDriverLog_stopsAt ..).of_ok _ rfl)
  exact (recommending_stops_at_obstacles w {} options).2.1 .contradiction hfirst

end SparkTuner.CommandLine
