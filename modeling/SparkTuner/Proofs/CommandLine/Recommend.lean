import SparkTuner.CommandLine.Run
import SparkTuner.Proofs.Settings

/-!
# Recommending step by step

The command that makes recommendations goes from step to step, and ends with the first one that
fails. `Ends` has one case for each way to end, with what the steps before it gave; that every run
ends so is said once (`ends_run`), and what holds of all runs is read off its cases.
-/

namespace SparkTuner.CommandLine

/-- The settings of a run: those that were loaded, with those of the flags over them. -/
structure Checked (w : Surroundings) (globals : Globals) (options : RecommendOptions) where
  base : Settings
  platform : Platform
  strategy : SizingStrategy
  loaded : w.loadSettings globals.settings = .ok base
  valid : (base.withFlags options.flags).validate = .ok ()
  platform_eq : (base.withFlags options.flags).readPlatform = .ok platform
  strategy_eq : (base.withFlags options.flags).readStrategy = .ok strategy

/-- The settings and all files of a run. -/
structure Loaded (w : Surroundings) (globals : Globals) (options : RecommendOptions) extends
    Checked w globals options where
  app : AppSummary Float
  cluster : Given ClusterDescription
  target : Given (TargetDescription Float)
  driverLog : Option (List String)
  app_eq : w.loadApp options = .ok app
  cluster_eq : w.loadCluster options = .ok cluster
  target_eq : w.loadTarget options = .ok target
  driverLog_eq : w.loadDriverLog options.driverLog = .ok driverLog

variable {w : Surroundings} {globals : Globals} {options : RecommendOptions}

/-- The settings a run goes by. -/
def Checked.settings (c : Checked w globals options) : Settings := c.base.withFlags options.flags

namespace Loaded

variable (p : Loaded w globals options)

/-- What the tuner of the run is made of. -/
def input : TunerInput Float where
  app := p.app
  driverLog := p.driverLog
  platform := p.platform
  tool := options.tool.getD default
  strategy := p.strategy
  cluster := p.cluster
  target := p.target
  policy := { skip := p.settings.skipKeys, limited := p.settings.limitedKeys }
  latest := w.latestRelease p.settings p.app

/-- The properties that are listed. -/
def filter : OutputFilter := if p.settings.onlyChanged then .changedOnly else .all

/-- What is reported of recommendations. -/
def report (r : Recommendations) : Report :=
  .ofRecommendations r p.filter p.platform (options.tool.getD default) p.app.appId

end Loaded

/-- The ways a run can end. -/
inductive Ends (w : Surroundings) (globals : Globals) (options : RecommendOptions) :
    Except Failure String → Prop where
  | settings {f : Failure} (h : w.loadSettings globals.settings = .error f) :
      Ends w globals options (.error f)
  | flags {base : Settings} {e : Error} (hbase : w.loadSettings globals.settings = .ok base)
      (h : (base.withFlags options.flags).validate = .error e) :
      Ends w globals options (.error ⟨none, .refused e⟩)
  | summary {f : Failure} (c : Checked w globals options) (h : w.loadApp options = .error f) :
      Ends w globals options (.error f)
  | cluster {app : AppSummary Float} {f : Failure} (c : Checked w globals options)
      (happ : w.loadApp options = .ok app) (h : w.loadCluster options = .error f) :
      Ends w globals options (.error f)
  | target {app : AppSummary Float} {cluster : Given ClusterDescription} {f : Failure}
      (c : Checked w globals options) (happ : w.loadApp options = .ok app)
      (hcluster : w.loadCluster options = .ok cluster) (h : w.loadTarget options = .error f) :
      Ends w globals options (.error f)
  | driverLog {app : AppSummary Float} {cluster : Given ClusterDescription}
      {target : Given (TargetDescription Float)} {f : Failure} (c : Checked w globals options)
      (happ : w.loadApp options = .ok app) (hcluster : w.loadCluster options = .ok cluster)
      (htarget : w.loadTarget options = .ok target)
      (h : w.loadDriverLog options.driverLog = .error f) :
      Ends w globals options (.error f)
  | tuner {e : Error} (p : Loaded w globals options)
      (h : p.input.build Surroundings.readers = .error e) :
      Ends w globals options (.error ⟨some "Invalid cluster description", .refused e⟩)
  | overflow {t : Tuner Float} (p : Loaded w globals options)
      (hbuild : p.input.build Surroundings.readers = .ok t) (h : t.recommend? = none) :
      Ends w globals options (.error ⟨none, .overflow⟩)
  | report {t : Tuner Float} {r : Recommendations} (p : Loaded w globals options)
      (hbuild : p.input.build Surroundings.readers = .ok t) (h : t.recommend? = some r) :
      Ends w globals options (.ok ((p.report r).render (options.format.getD .text)))

/-- Settings that pass the check name a platform and a strategy. -/
theorem exists_checked {base : Settings} (hbase : w.loadSettings globals.settings = .ok base)
    (h : (base.withFlags options.flags).validate = .ok ()) :
    ∃ c : Checked w globals options, c.base = base := by
  have hvalid := Settings.validate_eq_ok_iff.1 h
  obtain ⟨platform, hplatform⟩ := hvalid.exists_readPlatform
  obtain ⟨strategy, hstrategy⟩ := hvalid.exists_readStrategy
  exact ⟨⟨base, platform, strategy, hbase, h, hplatform, hstrategy⟩, rfl⟩

theorem ok_bind {ε α β : Type} (a : α) (f : α → Except ε β) : (Except.ok a >>= f) = f a := rfl

theorem error_bind {ε α β : Type} (e : ε) (f : α → Except ε β) :
    (Except.error e >>= f) = .error e := rfl

theorem plainly_ok {α : Type} (a : α) : plainly (.ok a) = .ok a := rfl

theorem plainly_error {α : Type} (e : Error) :
    plainly (.error e : Except Error α) = .error ⟨none, .refused e⟩ := rfl

theorem during_ok {α : Type} (step : String) (a : α) : during step (.ok a) = .ok a := rfl

namespace Loaded

/-- The last steps, which need no more files. -/
def conclude (p : Loaded w globals options) : Except Failure String := do
  let tuner ← during "Invalid cluster description" (p.input.build Surroundings.readers)
  match tuner.recommend? with
  | none => .error ⟨none, .overflow⟩
  | some r => return (p.report r).render (options.format.getD .text)

theorem ends_conclude (p : Loaded w globals options) : Ends w globals options p.conclude := by
  rw [conclude]
  cases hbuild : p.input.build Surroundings.readers with
  | error e => exact .tuner p hbuild
  | ok t =>
    rw [during_ok, ok_bind]
    cases hresult : t.recommend? with
    | none => exact .overflow p hbuild hresult
    | some r => exact .report p hbuild hresult

end Loaded

theorem run_eq (w : Surroundings) (globals : Globals) (options : RecommendOptions) :
    w.run ⟨globals, .recommend options⟩ =
      w.loadSettings globals.settings >>= fun base => w.recommend base options := rfl

/-- Every run ends in one of these ways. -/
theorem ends_run (w : Surroundings) (globals : Globals) (options : RecommendOptions) :
    Ends w globals options (w.run ⟨globals, .recommend options⟩) := by
  rw [run_eq]
  cases hbase : w.loadSettings globals.settings with
  | error f =>
    rw [error_bind]
    exact .settings hbase
  | ok base =>
    rw [ok_bind, Surroundings.recommend]
    dsimp only
    cases hvalid : (base.withFlags options.flags).validate with
    | error e =>
      rw [plainly_error, error_bind]
      exact .flags hbase hvalid
    | ok =>
      obtain ⟨c, rfl⟩ := exists_checked hbase hvalid
      rw [plainly_ok, ok_bind, c.platform_eq, plainly_ok, ok_bind, c.strategy_eq, plainly_ok,
        ok_bind]
      cases happ : w.loadApp options with
      | error f =>
        rw [error_bind]
        exact .summary c happ
      | ok app =>
        rw [ok_bind]
        cases hcluster : w.loadCluster options with
        | error f =>
          rw [error_bind]
          exact .cluster c happ hcluster
        | ok cluster =>
          rw [ok_bind]
          cases htarget : w.loadTarget options with
          | error f =>
            rw [error_bind]
            exact .target c happ hcluster htarget
          | ok target =>
            rw [ok_bind]
            cases hdriverLog : w.loadDriverLog options.driverLog with
            | error f =>
              rw [error_bind]
              exact .driverLog c happ hcluster htarget hdriverLog
            | ok driverLog =>
              rw [ok_bind]
              exact Loaded.ends_conclude
                ⟨c, app, cluster, target, driverLog, happ, hcluster, htarget, hdriverLog⟩

/-! ## Given files -/

/-- The user's own settings are passed over if their path leads to nothing, and only then. A file
that is there but cannot be read is an error. -/
theorem Surroundings.settingsFile?_none_eq_none_iff : w.settingsFile? none = none ↔
    ∃ e, w.content w.ownSettings = .error e ∧ e.leadsNowhere = true := by
  rw [settingsFile?]
  cases w.content w.ownSettings with
  | ok text => simp
  | error e => simp

/-- Surroundings with these files and nothing else. -/
def Surroundings.holding (files : List (String × String)) : Surroundings where
  content path := ((files.find? fun f => f.1 == path).map fun f => .ok f.2).getD (.error .notFound)
  ownSettings := "settings.toml"
  metadata _ _ := .refused

theorem validate_default : ({} : Settings).validate = .ok () := by
  have hpasses : ({} : Settings).validate.toOption.isSome = true := by decide +kernel
  cases h : ({} : Settings).validate with
  | error e =>
    rw [h] at hpasses
    cases hpasses
  | ok => rfl

theorem content_holding {files : List (String × String)} {path : String}
    (h : ∀ f ∈ files, f.1 ≠ path) :
    (Surroundings.holding files).content path = .error .notFound := by
  have hfind : files.find? (fun f => f.1 == path) = none := by simpa using h
  rw [Surroundings.holding]
  simp only [hfind, Option.map_none, Option.getD_none]

theorem loadSettings_holding {files : List (String × String)}
    (h : ∀ f ∈ files, f.1 ≠ "settings.toml") :
    (Surroundings.holding files).loadSettings none = .ok {} := by
  have hfile : (Surroundings.holding files).settingsFile? none = none :=
    Surroundings.settingsFile?_none_eq_none_iff.2 ⟨.notFound, content_holding h, rfl⟩
  have hlayered : (Surroundings.holding files).layeredSettings none = .ok {} := by
    rw [Surroundings.layeredSettings, hfile]
    rfl
  rw [Surroundings.loadSettings, hlayered, ok_bind, validate_default]
  rfl

end SparkTuner.CommandLine
