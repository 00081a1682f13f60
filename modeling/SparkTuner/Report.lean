import SparkTuner.Error
import SparkTuner.Json.Printer
import SparkTuner.Json.Record
import SparkTuner.Ledger.Recommendations
import SparkTuner.Platform.Basic
import SparkTuner.Text.Letters
import SparkTuner.Tool

/-!
# Reports

What a run tells the user: as text, with lines ready for the command line of the engine, or as JSON
with the same content, which can be read back.
-/

namespace SparkTuner

open Json Text

/-- How a report is written. -/
inductive ReportFormat where
  | text
  | json
  deriving Repr, DecidableEq

/-- The format a text names, in letters of either case. -/
def ReportFormat.parse (name : String) : Except Error ReportFormat :=
  let wanted := lowered name
  if wanted = "text" then .ok .text
  else if wanted = "json" then .ok .json
  else .error (.parse ("Unknown report format '" ++ wanted ++ "'"))

/-- The result of a run. -/
structure Report where
  appId : Option String := none
  platform : Platform
  tool : Tool
  properties : KeyMap String := .empty
  comments : List String := []
  deriving Repr, DecidableEq

/-- The lines that set properties. -/
def confLines (properties : KeyMap String) : String :=
  String.join (properties.toList.map fun (key, value) => "--conf " ++ key ++ "=" ++ value ++ "\n")

/-- A map of texts in JSON. -/
def propertiesJson (properties : KeyMap String) : Json :=
  .record (properties.toList.map fun (key, value) => (key, .text value))

namespace Report

/-- The report of recommendations. -/
def ofRecommendations (r : Recommendations) (filter : OutputFilter) (platform : Platform)
    (tool : Tool) (appId : Option String) : Report where
  appId
  platform
  tool
  properties := .ofList (r.properties filter)
  comments := r.comments

/-- What stands for an empty list of properties. -/
def nothingToRecommend : String := "Cannot recommend properties. See Comments.\n"

/-- The report as text. -/
def toText (r : Report) : String :=
  let properties := if r.properties.isEmpty then nothingToRecommend else confLines r.properties
  let comments :=
    if r.comments = [] then ""
    else "\nComments:\n" ++ String.join (r.comments.map fun c => "- " ++ c ++ "\n")
  "\nSpark Properties:\n" ++ properties ++ comments

/-- The report as a JSON record. -/
def toJson (r : Report) : Json :=
  .record (r.appId.toList.map (fun id => ("app_id", .text id)) ++
    [("platform", .text r.platform.name), ("tool", .text r.tool.name),
      ("properties", propertiesJson r.properties),
      ("comments", .array (r.comments.map .text))])

/-- The report in a format. -/
def render (r : Report) : ReportFormat → String
  | .text => r.toText
  | .json => r.toJson.pretty

/-- The fields of a report, in order. -/
def fieldNames : List String := ["app_id", "platform", "tool", "properties", "comments"]

/-- The report that a JSON value stands for. -/
def ofJson? (j : Json) : Option Report := do
  let fs ← fields? fieldNames j
  return {
    appId := ← fs.getD? "app_id" (asOptional? asText?) none
    platform := ← fs.need? "platform" (asName? Platform.ofName?)
    tool := ← fs.need? "tool" (asName? Tool.ofName?)
    properties := ← fs.getD? "properties" (asMap? asText?) .empty
    comments := ← fs.getD? "comments" (asList? asText?) [] }

/-- The report in a JSON text. -/
def parse (text : String) : Except Error Report :=
  match (Json.parse? text).bind ofJson? with
  | some report => .ok report
  | none => .error .json

end Report

end SparkTuner
