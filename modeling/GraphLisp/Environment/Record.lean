import GraphLisp.Environment.Basic
import GraphLisp.Payload
/-!
# Records

The record of an environment is plain data with one section each for its nodes, its imports and
its triples. `Environment.fromRecord` rebuilds the environment under the same handles. It checks
everything that a record can get wrong, section by section: first that every row takes a handle
of its own, then that triples and structures refer to reserved handles only.
-/

namespace GraphLisp

namespace Environment

/-- The word that marks a record. -/
def recordFormat : String := "amlang-env"

/-- The version of the records written here. -/
def recordVersion : Int := 1

/-! ## Writing -/

/-- A name, or null. -/
def nameEntry (e : Environment) (handle : Int) : Plain :=
  (e.nodes.nameOf[handle]?.map Plain.text).getD .null

/-- The row of a node. -/
def nodeRow (e : Environment) (handle : Int) (payload : Option Plain) : Plain :=
  .object [("id", .int handle), ("name", e.nameEntry handle), ("structure", payload.getD .null)]

/-- The row of an import. -/
def importRow (e : Environment) (handle : Int) (target : Node) : Plain :=
  .object [("id", .int handle), ("name", e.nameEntry handle),
    ("node", .list [.int target.env, .int target.id])]

/-- The row of a triple. -/
def tripleRow (handle : Int) (st : Statement) : Plain :=
  .object [("id", .int handle), ("s", .int st.subject), ("p", .int st.predicate),
    ("o", .int st.object)]

/-- The row of a handle. -/
def cellRow (e : Environment) (handle : Int) : Cell → Except Fault Plain
  | .plain none => .ok (e.nodeRow handle none)
  | .plain (some s) => do return e.nodeRow handle (some (← s.payload))
  | .proxy target => .ok (e.importRow handle target)
  | .triple => do return tripleRow handle (← e.statement handle)

/-- The record of an environment. -/
def toRecord (e : Environment) : Except Fault Plain := do
  let rows ← e.nodes.cells.toList.mapM fun (handle, c) => return (c, ← e.cellRow handle c)
  let nodes := rows.filterMap fun
    | (.plain _, row) => some row
    | _ => none
  let imports := rows.filterMap fun
    | (.proxy _, row) => some row
    | _ => none
  let triples := rows.filterMap fun
    | (.triple, row) => some row
    | _ => none
  return .object [("format", .text recordFormat), ("version", .int recordVersion),
    ("id", .int e.id), ("next", .int e.nodes.next), ("nodes", .list nodes),
    ("imports", .list imports), ("triples", .list triples)]

/-! ## Reading -/

/-- A damaged record. -/
def damaged {α : Type} (damage : Damage) : Except Fault α := .error (.corrupt damage)

/-- The rows of a section. Anything that can be listed will do, and what is void has no rows. -/
def rows (entries : List (Plain × Plain)) (key : String) : Except Fault (List Plain) :=
  let found := (Plain.find? entries key).getD .null
  if found.isVoid then .ok []
  else match found.listed? with
    | some items => .ok items
    | none => damaged .badSection

/-- A field of a row; null if it is absent. -/
def field (row : List (Plain × Plain)) (key : String) : Plain := (Plain.find? row key).getD .null

/-- Reserves the handle of a row, which must be below the counter and still free. -/
def reserve (e : Environment) (row : List (Plain × Plain)) (c : Cell) :
    Except Fault (Int × Environment) :=
  match field row "id" with
  | .int handle =>
    if handle < 0 ∨ e.nodes.next ≤ handle then damaged (.nodeId (.int handle))
    else if handle ∈ e.nodes.cells then damaged (.duplicateId handle)
    else .ok (handle, { e with nodes.cells := e.nodes.cells.insert handle c })
  | p => damaged (.nodeId p)

/-- Gives the handle of a row its name. -/
def nameRow (e : Environment) (handle : Int) (row : List (Plain × Plain)) :
    Except Fault Environment :=
  match field row "name" with
  | .null => .ok e
  | .text name =>
    match e.nodes.bindName handle name with
    | .ok nodes => .ok { e with nodes }
    | .error (.nameTaken name) => damaged (.nameTaken name)
    | .error fault => .error fault
  | _ => damaged (.badName handle)

/-- Cells still to be filled in, once all handles are known. -/
abbrev Pending := List (Int × Cell)

/-- Reads the row of a node. -/
def readNode (sofar : Environment × Pending) (found : Plain) :
    Except Fault (Environment × Pending) :=
  match sofar, found.opened with
  | (e, pending), .map row => do
    let (handle, e) ← e.reserve row (.plain none)
    let e ← e.nameRow handle row
    match field row "structure" with
    | .null => return (e, pending)
    | payload => return (e, pending ++ [(handle, .plain (some (← payload.decode)))])
  | _, _ => damaged (.nodeRow found)

/-- Reads the row of an import. A foreign node has at most one stand-in. -/
def readImport (sofar : Environment × Pending) (found : Plain) :
    Except Fault (Environment × Pending) :=
  match sofar, found.opened with
  | (e, pending), .map row => do
    let (handle, e) ← e.reserve row (.plain none)
    match field row "node" with
    | .list [.int env, .int id] =>
      let target : Node := ⟨env, id⟩
      if env = e.id ∨ target ∈ e.nodes.imports then damaged (.importRefused target handle)
      else
        let e := { e with nodes.imports := e.nodes.imports.insert target handle }
        let e ← e.nameRow handle row
        return (e, pending ++ [(handle, .proxy target)])
    | _ => damaged (.importTarget handle)
  | _, _ => damaged (.importRow found)

/-- Reserves the handle of a triple. -/
def reserveTriple (e : Environment) (found : Plain) : Except Fault Environment :=
  match found.opened with
  | .map row => return (← e.reserve row .triple).2
  | _ => damaged (.tripleRow found)

/-- A part of a triple: a reserved handle. -/
def triplePart (e : Environment) (row : List (Plain × Plain)) (key : String) :
    Except Fault Int :=
  match field row key with
  | .int part =>
    if part ∈ e.nodes.cells then .ok part
    else damaged (.tripleReference (field row "id") (.int part))
  | p => damaged (.tripleReference (field row "id") p)

/-- Stores the statement of a triple whose handle is reserved. -/
def readTriple (e : Environment) (found : Plain) : Except Fault Environment :=
  match found.opened with
  | .map row => do
    let s ← e.triplePart row "s"
    let p ← e.triplePart row "p"
    let o ← e.triplePart row "o"
    match e.triples.find? ⟨s, p, o⟩, field row "id" with
    | none, .int handle => return { e with triples := e.triples.insert handle ⟨s, p, o⟩ }
    | none, id => damaged (.nodeId id)
    | some _, _ => damaged (.duplicateTriple s p o)
  | _ => damaged (.tripleRow found)

/-- Fills in a cell, whose mentions of this environment must be reserved handles. -/
def fill (l : Locale) (entry : Int × Cell) : Except Fault Locale :=
  let missing := entry.2.mentions.find? fun n =>
    n.env == l.env.id && !l.env.nodes.cells.contains n.id
  match missing with
  | some n => damaged (.dangling entry.1 n.id)
  | none => .ok (l.hold entry.1 entry.2)

/-- Rebuilds the rows of a record under an id, with all handles below a counter. -/
def fromRows (id next : Int) (nodes imports triples : List Plain) : Except Fault Environment := do
  let start := { blank id with nodes.next := next }
  let (e, pending) ← nodes.foldlM readNode (start, [])
  let (e, pending) ← imports.foldlM readImport (e, pending)
  let e ← triples.foldlM reserveTriple e
  let e ← triples.foldlM readTriple e
  if selfHandle ∉ e.nodes.cells then damaged .noSelfNode
  else return (← pending.foldlM fill ⟨e, ∅⟩).env

/-- The environment of a record. -/
def fromRecord (found : Plain) : Except Fault Environment :=
  match found.opened with
  | .map entries => do
    let isMarked := match Plain.find? entries "format" with
      | some (.text s) => s == recordFormat
      | _ => false
    if !isMarked then damaged .notASnapshot
    let version := field entries "version"
    if !version.equal (.int recordVersion) then damaged (.version version)
    let some id := Plain.find? entries "id" | damaged (.noSection "id")
    let some next := Plain.find? entries "next" | damaged (.noSection "next")
    let nodes ← rows entries "nodes"
    let imports ← rows entries "imports"
    let triples ← rows entries "triples"
    match id, next with
    | .int id, .int next => fromRows id next nodes imports triples
    | _, _ => damaged .counters
  | _ => damaged .notASnapshot

end Environment

end GraphLisp
