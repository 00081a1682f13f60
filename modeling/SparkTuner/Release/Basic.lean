import SparkTuner.Error
import SparkTuner.Plugin.Version

/-!
# The latest plugin release

The latest release is named by the first well-formed `release` element of the published metadata.
A lookup that fails never stops a run; it only leaves the release unknown.
-/

namespace SparkTuner

open Text

/-- What is known about the latest release. -/
inductive LatestRelease where
  | known (version : PluginVersion)
  /-- The lookup failed. -/
  | unavailable
  /-- There was no lookup. -/
  | notChecked
  deriving Repr, DecidableEq

/-- The answer to a request for the metadata. -/
inductive MetadataAnswer where
  /-- There was no connection. -/
  | refused
  | response (status : Nat) (body : String)
  deriving Repr, DecidableEq

namespace Release

/-- The tag before the version. -/
def openTag : List Char := "<release>".toList

/-- The tag after the version. -/
def closeTag : List Char := "</release>".toList

/-- Whether a character can be part of a version's text. -/
def isVersionChar (c : Char) : Bool := c != '<' && !isBlank c

/-- The version's text in a release element that the text starts with. -/
def elementAt? (cs : List Char) : Option (List Char) :=
  match after? openTag cs with
  | none => none
  | some rest =>
    let rest := rest.dropWhile isBlank
    let version := rest.takeWhile isVersionChar
    let rest := (rest.dropWhile isVersionChar).dropWhile isBlank
    if version ≠ [] ∧ closeTag.isPrefixOf rest then some version else none

/-- The version's text in the first well-formed release element. -/
def element? : List Char → Option (List Char)
  | [] => none
  | c :: cs => (elementAt? (c :: cs)).or (element? cs)

/-- The release that metadata names. -/
def parse (metadata : String) : Except Error PluginVersion :=
  match element? metadata.toList with
  | none => .error (.parse "No <release> element in metadata")
  | some cs =>
    match PluginVersion.parse? (String.ofList cs) with
    | some version => .ok version
    | none => .error (.parse ("Invalid release version '" ++ String.ofList cs ++ "'"))

/-- The standard phrases for status codes. -/
def phrases : List (Nat × String) :=
  [(100, "Continue"), (101, "Switching Protocols"), (102, "Processing"), (200, "OK"),
   (201, "Created"), (202, "Accepted"), (203, "Non Authoritative Information"),
   (204, "No Content"), (205, "Reset Content"), (206, "Partial Content"), (207, "Multi-Status"),
   (208, "Already Reported"), (226, "IM Used"), (300, "Multiple Choices"),
   (301, "Moved Permanently"), (302, "Found"), (303, "See Other"), (304, "Not Modified"),
   (305, "Use Proxy"), (307, "Temporary Redirect"), (308, "Permanent Redirect"),
   (400, "Bad Request"), (401, "Unauthorized"), (402, "Payment Required"), (403, "Forbidden"),
   (404, "Not Found"), (405, "Method Not Allowed"), (406, "Not Acceptable"),
   (407, "Proxy Authentication Required"), (408, "Request Timeout"), (409, "Conflict"),
   (410, "Gone"), (411, "Length Required"), (412, "Precondition Failed"),
   (413, "Payload Too Large"), (414, "URI Too Long"), (415, "Unsupported Media Type"),
   (416, "Range Not Satisfiable"), (417, "Expectation Failed"), (418, "I'm a teapot"),
   (421, "Misdirected Request"), (422, "Unprocessable Entity"), (423, "Locked"),
   (424, "Failed Dependency"), (425, "Too Early"), (426, "Upgrade Required"),
   (428, "Precondition Required"), (429, "Too Many Requests"),
   (431, "Request Header Fields Too Large"), (451, "Unavailable For Legal Reasons"),
   (500, "Internal Server Error"), (501, "Not Implemented"), (502, "Bad Gateway"),
   (503, "Service Unavailable"), (504, "Gateway Timeout"), (505, "HTTP Version Not Supported"),
   (506, "Variant Also Negotiates"), (507, "Insufficient Storage"), (508, "Loop Detected"),
   (510, "Not Extended"), (511, "Network Authentication Required")]

/-- A status code with its phrase. -/
def statusText (status : Nat) : String :=
  let phrase := ((phrases.find? fun row => row.1 == status).map (·.2)).getD "<unknown status code>"
  Nat.repr status ++ " " ++ phrase

/-- The release that an answer names. -/
def ofAnswer : MetadataAnswer → Except Error PluginVersion
  | .refused => .error (.network "Failed to fetch release metadata")
  | .response status body =>
    if 200 ≤ status ∧ status < 300 then parse body
    else
      .error (.network ("Release metadata request failed with status: " ++ statusText status))

/-- What a lookup tells a run. -/
def resolve (answer : MetadataAnswer) : LatestRelease :=
  match ofAnswer answer with
  | .ok version => .known version
  | .error _ => .unavailable

end Release

end SparkTuner
