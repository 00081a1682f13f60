/-!
# Errors

Why an input is refused. Errors carry causes; their wording is `Error.message`. What a reader of a
standard format found wrong is not told apart: the tuner only says which format it was.
-/

namespace SparkTuner

/-- Why reading a file failed. -/
inductive FileError where
  | notFound
  /-- The path goes through a file. -/
  | notDirectory
  /-- The path cannot be followed, for instance through a directory that may not be searched. -/
  | notReached (text : String)
  /-- The path names a directory. -/
  | isDirectory
  | notPermitted
  /-- The content is no text. -/
  | notText
  | other (text : String)
  deriving Repr, DecidableEq

/-- Whether the path leads to nothing, as far as one can see. -/
def FileError.leadsNowhere : FileError → Bool
  | .notFound | .notDirectory | .notReached _ => true
  | .isDirectory | .notPermitted | .notText | .other _ => false

/-- The operating system's words. -/
def FileError.message : FileError → String
  | .notFound => "No such file or directory (os error 2)"
  | .notDirectory => "Not a directory (os error 20)"
  | .notReached text => text
  | .isDirectory => "Is a directory (os error 21)"
  | .notPermitted => "Permission denied (os error 13)"
  | .notText => "stream did not contain valid UTF-8"
  | .other text => text

/-- Why a document could not be read as YAML. -/
inductive YamlError where
  | malformed
  /-- A property has a value that is no string, number or truth value. -/
  | notScalar (key : String)
  deriving Repr, DecidableEq

/-- Why an input is refused. -/
inductive Error where
  | file (cause : FileError)
  | config (text : String)
  /-- Two parts of the input exclude each other. -/
  | contradiction (text : String)
  | parse (text : String)
  | validation (text : String)
  | yaml (cause : YamlError)
  | json
  | toml
  | network (text : String)
  deriving Repr, DecidableEq

/-- The text shown to the user. -/
def YamlError.message : YamlError → String
  | .malformed => "YAML error"
  | .notScalar key => "YAML error: property '" ++ key ++ "' must be a scalar"

/-- The text shown to the user. -/
def Error.message : Error → String
  | .file cause => "IO error: " ++ cause.message
  | .config text => "Configuration error: " ++ text
  | .contradiction text => "Input contradiction: " ++ text
  | .parse text => "Parse error: " ++ text
  | .validation text => "Validation error: " ++ text
  | .yaml cause => cause.message
  | .json => "Serialization error"
  | .toml => "TOML error"
  | .network text => "Network error: " ++ text

end SparkTuner
