import SparkTuner.Cluster.Shape
import SparkTuner.Duration
import SparkTuner.Error
import SparkTuner.Text.Cut
import SparkTuner.Toml.Reader

/-!
# Settings

Settings come in layers: the defaults, a file over them, the environment over that, and the flags of
a command on top. A layer replaces single values; the keys it names are added to those of the layers
below, each once.
-/

namespace SparkTuner

open Text

/-- The settings of a run. Platform and strategy stay as they are written until they are checked, so
that the check can name a bad one. -/
structure Settings where
  platform : String := Platform.name default
  strategy : String := SizingStrategy.name default
  /-- Keys that get no recommendation. -/
  skipKeys : List String := []
  /-- Keys that get their default at most. -/
  limitedKeys : List String := []
  checkRelease : Bool := true
  lookupTimeout : Duration := .ofSeconds 5
  metadataUrl : String :=
    "https://repo1.maven.org/maven2/com/nvidia/rapids-4-spark_2.12/maven-metadata.xml"
  /-- Whether properties that stay as they are are left out of reports. -/
  onlyChanged : Bool := true
  deriving Repr, DecidableEq

/-- The settings in the environment; each may be absent. -/
structure Environment where
  platform : Option String := none
  checkRelease : Option String := none
  /-- Keys that get no recommendation, with commas between them. -/
  skipKeys : Option String := none
  deriving Repr, DecidableEq

/-- The settings among the flags of a command. -/
structure Flags where
  platform : Option Platform := none
  strategy : Option SizingStrategy := none
  all : Bool := false
  noReleaseCheck : Bool := false
  skipKeys : List String := []
  limitedKeys : List String := []
  deriving Repr, DecidableEq

namespace Settings

/-! ## Layers -/

/-- The keys with those of `more` that are missing among them, in order of first appearance. -/
def addKeys (keys more : List String) : List String :=
  more.foldl (fun keys key => if keys.contains key then keys else keys ++ [key]) keys

/-- The truth value that a variable spells. -/
def truth? (text : String) : Option Bool :=
  match trimmed text with
  | "true" => some true
  | "false" => some false
  | _ => none

/-- The keys between commas, without blanks around them and without empty ones. -/
def keysIn (text : String) : List String := ((cut ',' text).map trimmed).filter (!·.isEmpty)

/-- The settings with those of the environment over them. A variable that spells no truth value does
not count. -/
def withEnvironment (s : Settings) (env : Environment) : Settings :=
  { s with
    platform := env.platform.getD s.platform
    checkRelease := (env.checkRelease.bind truth?).getD s.checkRelease
    skipKeys := addKeys s.skipKeys ((env.skipKeys.map keysIn).getD []) }

/-- The settings with those of the flags over them. -/
def withFlags (s : Settings) (flags : Flags) : Settings :=
  { s with
    platform := (flags.platform.map (·.name)).getD s.platform
    strategy := (flags.strategy.map (·.name)).getD s.strategy
    skipKeys := addKeys s.skipKeys flags.skipKeys
    limitedKeys := addKeys s.limitedKeys flags.limitedKeys
    checkRelease := s.checkRelease && !flags.noReleaseCheck
    onlyChanged := s.onlyChanged && !flags.all }

/-! ## Checks -/

/-- The platform that is named. -/
def readPlatform (s : Settings) : Except Error Platform :=
  (Platform.parse s.platform).mapError .config

/-- The strategy that is named. -/
def readStrategy (s : Settings) : Except Error SizingStrategy :=
  (SizingStrategy.parse s.strategy).mapError .config

/-- Whether a text can be the key of a property. -/
def isKey (key : String) : Bool := !key.isEmpty && !key.toList.any isBlank

/-- Whether a text is an address the metadata can be fetched from. -/
def isWebAddress (url : String) : Bool :=
  ("https://".toList).isPrefixOf url.toList || ("http://".toList).isPrefixOf url.toList

/-- Fails with the first text that is no key. -/
def checkKeys (setting : String) (keys : List String) : Except Error Unit :=
  match keys.find? (!isKey ·) with
  | some key => .error (.config ("Invalid property key in " ++ setting ++ ": '" ++ key ++ "'"))
  | none => .ok ()

/-- Fails if a setting is bad; of several the first in this order is reported. -/
def validate (s : Settings) : Except Error Unit := do
  let _ ← s.readPlatform
  let _ ← s.readStrategy
  if s.lookupTimeout.nanoseconds = 0 then
    throw (.config "release_lookup_timeout must be greater than 0")
  if s.checkRelease && !isWebAddress s.metadataUrl then
    throw (.config ("release_metadata_url must be an http(s) URL: " ++ s.metadataUrl))
  checkKeys "skip_keys" s.skipKeys
  checkKeys "limited_logic_keys" s.limitedKeys

/-! ## Files -/

/-- A text. -/
def asText? : Toml.Value → Option String
  | .text s => some s
  | _ => none

/-- A truth value. -/
def asBool? : Toml.Value → Option Bool
  | .bool b => some b
  | _ => none

/-- A list of texts. -/
def asTexts? : Toml.Value → Option (List String)
  | .array items => items.mapM asText?
  | _ => none

/-- A duration, which is written as a text. -/
def asDuration? (v : Toml.Value) : Option Duration := (asText? v).bind Duration.parse?

/-- A field of a file, or the default if it is missing. -/
def field? {α : Type} (fields : List (String × Toml.Value)) (name : String)
    (read : Toml.Value → Option α) (default : α) : Option α :=
  match fields.find? fun f => f.1 == name with
  | some f => read f.2
  | none => some default

/-- The settings in the fields of a file; others are ignored. -/
def ofFields? (fields : List (String × Toml.Value)) : Option Settings := do
  let d : Settings := {}
  return {
    platform := ← field? fields "platform" asText? d.platform
    strategy := ← field? fields "sizing_strategy" asText? d.strategy
    skipKeys := ← field? fields "skip_keys" asTexts? d.skipKeys
    limitedKeys := ← field? fields "limited_logic_keys" asTexts? d.limitedKeys
    checkRelease := ← field? fields "check_latest_release" asBool? d.checkRelease
    lookupTimeout := ← field? fields "release_lookup_timeout" asDuration? d.lookupTimeout
    metadataUrl := ← field? fields "release_metadata_url" asText? d.metadataUrl
    onlyChanged := ← field? fields "show_only_changed" asBool? d.onlyChanged }

/-- The settings in the text of a file. -/
def parse (text : String) : Except Error Settings :=
  match (Toml.parse? text).bind ofFields? with
  | some s => .ok s
  | none => .error .toml

/-- The platform after both upper layers is the flags', else the environment's, else the file's. -/
theorem platform_withFlags (s : Settings) (env : Environment) (flags : Flags) :
    ((s.withEnvironment env).withFlags flags).platform =
      (flags.platform.map (·.name)).getD (env.platform.getD s.platform) := rfl

end Settings

end SparkTuner
