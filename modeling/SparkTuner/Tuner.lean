import SparkTuner.Rules

/-!
# Tuners

A tuner is made of all inputs of a run. A description that cannot be read, or a target worker that
is not known, is left out and explained by a diagnostic; only a target that contradicts itself stops
the making. How descriptions are read from text is an argument.
-/

namespace SparkTuner

open Number

/-- A description as it reaches a tuner. -/
inductive Given (α : Type) where
  | absent
  | parsed (value : α)
  /-- A text that is still to be read. -/
  | text (content : String)
  /-- Reading it failed before. -/
  | failed (cause : Error)
  deriving Repr

/-- The description, nothing if there is none. -/
def Given.read {α : Type} (reader : String → Except Error α) : Given α → Except Error (Option α)
  | absent => .ok none
  | parsed value => .ok (some value)
  | text content => (reader content).map some
  | failed cause => .error cause

/-- What a loader got out of a file. -/
def Given.ofLoaded {α : Type} : Except Error α → Given α
  | .ok value => parsed value
  | .error cause => failed cause

/-- How descriptions are read from text. -/
structure Readers (K : Type) where
  cluster : String → Except Error ClusterDescription
  target : String → Except Error (TargetDescription K)

/-- The inputs of a run. -/
structure TunerInput (K : Type) where
  app : AppSummary K
  driverLog : Option (List String) := none
  platform : Platform := default
  tool : Tool := default
  strategy : SizingStrategy := default
  cluster : Given ClusterDescription := .absent
  target : Given (TargetDescription K) := .absent
  policy : KeyPolicy := {}
  latest : LatestRelease := .notChecked

/-- A tuner for one application. -/
structure Tuner (K : Type) where
  app : AppSummary K
  driverLog : Option (List String)
  platform : Platform
  tool : Tool
  strategy : SizingStrategy
  cluster : ClusterDescription
  worker : Option TargetWorker
  enforced : KeyMap String
  policy : KeyPolicy
  latest : LatestRelease
  /-- What had to be left out. -/
  diagnostics : List String

/-- A value and what had to be left out on the way to it. -/
structure Diagnosed (α : Type) where
  value : α
  diagnostic : Option String := none
  deriving Repr, DecidableEq

namespace TunerInput

variable {K : Type} [Quantity K]

/-- The source cluster; an unreadable description counts as an empty one. -/
def readCluster (readers : Readers K) (input : TunerInput K) : Diagnosed ClusterDescription :=
  match input.cluster.read readers.cluster with
  | .ok cluster => ⟨cluster.getD {}, none⟩
  | .error e =>
    ⟨{}, some ("Exception reading the cluster description, using defaults: " ++ e.message)⟩

/-- The target cluster; an unreadable description counts as none. -/
def readTarget (readers : Readers K) (input : TunerInput K) :
    Diagnosed (Option (TargetDescription K)) :=
  match input.target.read readers.target with
  | .ok target => ⟨target, none⟩
  | .error e =>
    ⟨none, some ("Exception reading the target cluster description, using defaults: " ++ e.message)⟩

/-- The target worker; one that is not known counts as none. -/
def chooseWorker (p : Platform) (target : Option (TargetDescription K)) :
    Except Error (Diagnosed (Option TargetWorker)) :=
  match target with
  | none => .ok ⟨none, none⟩
  | some target =>
    match target.resolveWorker p with
    | .ok worker => .ok ⟨worker, none⟩
    | .error (.contradiction text) => .error (.contradiction text)
    | .error e => .ok ⟨none, some ("Target worker ignored: " ++ e.message)⟩

/-- Makes a tuner. -/
def build (readers : Readers K) (input : TunerInput K) : Except Error (Tuner K) :=
  let cluster := input.readCluster readers
  let target := input.readTarget readers
  (chooseWorker input.platform target.value).map fun worker =>
    { app := input.app
      driverLog := input.driverLog
      platform := input.platform
      tool := input.tool
      strategy := input.strategy
      cluster := cluster.value
      worker := worker.value
      enforced := (target.value.map (·.enforced)).getD .empty
      policy :=
        { input.policy with skip := input.policy.skip ++ input.platform.excludedKeys }
      latest := input.latest
      diagnostics :=
        [cluster.diagnostic, target.diagnostic, worker.diagnostic].filterMap id }

end TunerInput

namespace Tuner

variable {K : Type} [Quantity K]

/-- Whether something had to be left out. -/
def isDegraded (t : Tuner K) : Bool := !t.diagnostics.isEmpty

/-- The source properties: the application's, and over them the cluster's. -/
def source (t : Tuner K) : KeyMap String := t.app.properties.overlay t.cluster.softwareProperties

/-- The source cluster without gaps. -/
def resolved (t : Tuner K) : ResolvedCluster := t.cluster.resolve K t.platform

/-- What the rules of the run see. -/
def context (t : Tuner K) : Context K where
  app := t.app
  driverLog := t.driverLog
  platform := t.platform
  tool := t.tool
  clusterComments := t.cluster.gapComments K t.platform
  enforced := t.enforced
  shape := t.resolved.shape? t.worker t.strategy t.platform
  engine := t.app.sparkVersion.bind EngineVersion.parse?
  latest := t.latest

/-- The state before the first rule. -/
def initial (t : Tuner K) : State :=
  State.write { ledger := .start t.source t.policy } (t.diagnostics.map .sayOnce)

/-- The state after the last rule. -/
def final (t : Tuner K) : State := Rule.applyAll t.context Rule.all t.initial

/-- The recommendations; none if a size on the way to them leaves a 64-bit word. -/
def recommend? (t : Tuner K) : Option Recommendations :=
  if t.final.staysInWords then some t.final.ledger.finish else none

end Tuner

end SparkTuner
