import GraphLisp.Environment.Record
import GraphLisp.Json.Reader
import GraphLisp.Json.Writer
import GraphLisp.Text.Blank
import GraphLisp.Yaml.Reader
import GraphLisp.Yaml.Writer
/-!
# Snapshots

A snapshot is plain data as text, in one of two formats. Reading takes a format or tells it from
the first character that is not blank. Writing fails where a number has too many digits or values
are nested too deeply for the format. An environment is restored from the text of its record.
-/

namespace GraphLisp

/-- The formats of snapshots. -/
inductive Format where
  | json
  | yaml
deriving DecidableEq

namespace Format

/-- The word for a format. -/
def word : Format → String
  | .json => "json"
  | .yaml => "yaml"

/-- The format with a name. -/
def ofWord? : String → Option Format
  | "json" => some .json
  | "yaml" => some .yaml
  | _ => none

/-- The format that a text looks like: JSON if it begins with a bracket or a brace. A text of
blanks looks like nothing. -/
def detect (s : String) : Option Format :=
  match Text.dropBlanks s.toList with
  | [] => none
  | '{' :: _ | '[' :: _ => some .json
  | _ => some .yaml

end Format

namespace Snapshot

/-- What is to be read: a text, or bytes that should be one. -/
inductive Source where
  | text (s : String)
  | bytes (b : ByteArray)

/-- The text of a source. -/
def Source.read : Source → Except Fault String
  | .text s => .ok s
  | .bytes b =>
    match Text.ofBytes? b with
    | some s => .ok s
    | none => .error (.corrupt .notText)

/-- What keeps a text in YAML from being a snapshot. -/
def ofYamlRefusal : Yaml.Refusal → Fault
  | .document => .corrupt .notYaml
  | .number base text =>
    let shown := (Text.quoted text).toList.take 200
    .unreadable .misuse (s!"invalid literal for int() with base {base}: " ++ String.ofList shown)
  | .tooLong digits => .numeral (some digits)
  | .double text => .unreadable .misuse ("could not convert string to float: " ++ Text.quoted text)
  | .moment flaw => .unreadable .misuse flaw
  | .emptyNumber => .unreadable .outOfRange ""
  | .truth => .unreadable .missing ""
  | .timestamp => .unreadable .noSuchPart ""
  | .mapAsTimestamp => .unreadable .wrongSort ""
  | .overflow => .unreadable .overflow ""
  | .codePoint => .unreadable .misuse "chr() arg not in range(0x110000)"
  | .tooDeep => .endless

/-- What keeps a text in JSON from being a snapshot. -/
def ofJsonRefusal : Json.Refusal → Fault
  | .malformed => .corrupt .notJson
  | .tooLong digits => .numeral (some digits)
  | .tooDeep => .endless

/-- Plain data from a text in a format. -/
def parse (format : Format) (s : String) : Except Fault Plain :=
  match format with
  | .json => (Json.parse s).mapError ofJsonRefusal
  | .yaml => (Yaml.parse s).mapError ofYamlRefusal

/-- Plain data from a source. An empty name of a format is no name. -/
def deserialize (source : Source) (name : Option String) : Except Fault Plain := do
  let s ← source.read
  let format := match name.filter (· != "") with
    | some word => Format.ofWord? word
    | none => Format.detect s
  match format with
  | some f => parse f s
  | none => .error (.corrupt (.unsupportedFormat name))

/-- The text of plain data in a format. -/
def write (format : Format) (pretty : Bool) (p : Plain) : String :=
  match format with
  | .json => if pretty then Json.pretty 0 p else Json.compact p
  | .yaml => Yaml.text p

/-- How many lists and maps inside each other can be written in a format. -/
def maxDepth : Format → Nat
  | .json => 990
  | .yaml => 330

/-- The text of plain data in the format with a name, in whatever case. -/
def serialize (p : Plain) (name : Option String) (pretty : Bool) : Except Fault String :=
  match name.bind fun word => Format.ofWord? (Text.lower word) with
  | some f =>
    if maxDepth f < p.depth then .error .endless
    else if p.isWritable then .ok (write f pretty p)
    else .error (.numeral none)
  | none => .error (.textFormat name)

/-- The bytes that spell a text. -/
def bytes (s : String) : Except Fault ByteArray :=
  match Text.toBytes? s with
  | some b => .ok b
  | none => .error .unspellable

end Snapshot

namespace Environment

/-- The snapshot of an environment in the format with a name. -/
def snapshot (e : Environment) (name : Option String) : Except Fault ByteArray := do
  Snapshot.bytes (← Snapshot.serialize (← e.toRecord) name true)

/-- The environment of a snapshot. -/
def restore (source : Snapshot.Source) (name : Option String) : Except Fault Environment := do
  fromRecord (← Snapshot.deserialize source name)

end Environment

end GraphLisp
