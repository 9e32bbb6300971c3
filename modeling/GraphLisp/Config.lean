import GraphLisp.Fault
import GraphLisp.Snapshot
import GraphLisp.Text.Blank
import GraphLisp.Text.Lower
/-!
# Configurations

What a session starts from: the folder and the format of its snapshots, whether to start anew,
and the names of two environments. A configuration can be read from named settings.
-/

namespace GraphLisp

/-- The settings of a session. -/
structure Config where
  snapshotDir : Option String
  snapshotFormat : String
  reset : Bool
  langName : Option String
  homeName : Option String
deriving DecidableEq

namespace Config

/-- The settings that hold if nothing is said. -/
def default : Config := ⟨none, "json", false, some "lang", some "home"⟩

/-- The parts of a path that lead somewhere. -/
def pathParts (path : String) : List String :=
  (path.splitOn "/").filter fun part => part != "" && part != "."

/-- A path without empty parts and parts that stay in place. Two slashes at its start are kept,
and three or more count as one. -/
def cleanPath (path : String) : String :=
  let start := match path.toList with
    | '/' :: '/' :: '/' :: _ => "/"
    | '/' :: '/' :: _ => "//"
    | '/' :: _ => "/"
    | _ => ""
  let clean := start ++ "/".intercalate (pathParts path)
  if clean = "" then "." else clean

/-- The configuration of given settings; only the formats of snapshots are formats. -/
def make (dir : Option String) (format : String) (reset : Bool) (lang home : Option String) :
    Except Fault Config :=
  if (Format.ofWord? format).isSome then .ok ⟨dir.map cleanPath, format, reset, lang, home⟩
  else .error (.snapshotFormat format)

/-- The words that switch a setting on. -/
def trueWords : List String := ["1", "true", "yes", "on"]

/-- The value of a setting; an empty one counts as absent. -/
def setting? (settings : List (String × String)) (key : String) : Option String :=
  (settings.lookup key).filter (· != "")

/-- The configuration that named settings describe. -/
def ofSettings (settings : List (String × String)) : Except Fault Config :=
  let format := Text.lower ((setting? settings "AMLANG_SNAPSHOT_FORMAT").getD "json")
  let word := String.ofList (Text.trim ((setting? settings "AMLANG_RESET").getD "").toList)
  make (setting? settings "AMLANG_SNAPSHOT_DIR") format (Text.lower word ∈ trueWords)
    default.langName default.homeName

end Config

end GraphLisp
