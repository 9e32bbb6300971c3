import GraphLisp.Snapshot
import GraphLisp.Text.Digit
import GraphLisp.Universe.Basic
/-!
# Universes in folders

A universe is saved as one file for each environment, named after its id. Saving replaces every
snapshot that was in the folder and leaves other files alone; where it fails halfway, the files
that were written by then stay, and no other file is touched. Loading accepts only files that fit
together: the root must be there, each environment must be denoted by a node of the root, and no
node may mention one that is missing.
-/

namespace GraphLisp

open Std

/-- What a name in a folder stands for. -/
inductive FolderItem where
  | file (content : ByteArray)
  | folder

/-- A folder, sorted by name. -/
abbrev Folder := ExtTreeMap String FolderItem

namespace Folder

/-- The endings of the names of snapshots. -/
def endings : List (List Char) :=
  [".json", ".yaml", ".yml"].flatMap fun e => [e.toList, e.toList ++ ['\n']]

/-- The id in the name of a snapshot: decimal digits between a fixed beginning and an ending. -/
def idOfName? (name : String) : Option Int :=
  match name.toList with
  | 'e' :: 'n' :: 'v' :: '-' :: rest =>
    let digits := rest.takeWhile fun c => (Text.digit? c).isSome
    if rest.drop digits.length ∈ endings then (Text.readNat? digits).map Int.ofNat else none
  | _ => none

/-- The name of the snapshot of an environment. -/
def nameOfId (id : Int) (format : Format) : String := s!"env-{id}." ++ format.word

/-- The snapshots in a folder: name, id and content. -/
def snapshots (f : Folder) : List (String × Int × ByteArray) :=
  f.toList.filterMap fun
    | (name, .file content) => (idOfName? name).map fun id => (name, id, content)
    | (_, .folder) => none

/-- The folder without the snapshots whose names are not kept, and how many these were. -/
def discardBut (kept : List String) (f : Folder) : Nat × Folder :=
  let found := f.snapshots.filter fun s => s.1 ∉ kept
  (found.length, found.foldl (fun f s => f.erase s.1) f)

/-- The folder without its snapshots, and how many there were. -/
def discard (f : Folder) : Nat × Folder := f.discardBut []

end Folder

namespace Universe

/-- Something that is done in a folder. -/
abbrev InFolder := EStateM Fault Folder

/-- Writes the snapshot of an environment, and returns the name of the file. -/
def saveMember (format : Format) (e : Environment) : InFolder String := do
  let name := Folder.nameOfId e.id format
  match e.snapshot (some format.word), (← get)[name]? with
  | .error fault, _ => throw fault
  | .ok _, some .folder => throw .folderAsFile
  | .ok content, _ =>
    modify fun f => f.insert name (.file content)
    return name

/-- Saves a universe, and returns the names of the files. -/
def saveAs (u : Universe) (format : Format) : InFolder (List String) := do
  let written ← u.environments.mapM (saveMember format)
  modify fun f => (f.discardBut written).2
  return written

/-- The format of snapshots in files with a name. -/
def fileFormat (name : Option String) : Except Fault Format :=
  match name.bind Format.ofWord? with
  | some format => .ok format
  | none => .error (.snapshotFormat name)

/-- Saves a universe in the format with a name. -/
def save (u : Universe) (format : Option String) : InFolder (List String) := do
  match fileFormat format with
  | .ok format => u.saveAs format
  | .error fault => throw fault

/-- Every reference between environments must lead to a live node. -/
def checkReferences (u : Universe) : Except Fault Unit :=
  let references := u.environments.flatMap Environment.foreignReferences
  match references.find? fun r => !u.resolves r.2 with
  | some (holder, target) => .error (.corrupt (.danglingBetween holder target))
  | none => .ok ()

/-- Takes in the environment of a snapshot. -/
def loadMember (u : Universe) (id : Int) (file : String × ByteArray) : Except Fault Universe := do
  let e ← Environment.restore (.bytes file.2) none
  if e.id ≠ id then throw (.corrupt (.fileId file.1 e.id))
  else if !u.root.contains (.node ⟨rootId, id⟩) then throw (.corrupt (.undenoted id))
  else
    match attach e u with
    | .ok _ u => return u
    | .error fault _ => throw fault

/-- Loads the universe saved in a folder, which errors call by a label. A folder without
snapshots holds the empty universe. Of two snapshots with one id the later name counts. -/
def load (label : String) (f : Folder) : Except Fault Universe :=
  let files : ExtTreeMap Int (String × ByteArray) :=
    f.snapshots.foldl (fun files s => files.insert s.2.1 (s.1, s.2.2)) ∅
  match files[rootId]? with
  | none => if files.isEmpty then .ok empty else .error (.corrupt (.noRoot label))
  | some (_, content) => do
    let root ← Environment.restore (.bytes content) none
    if root.id ≠ rootId then Except.error (Fault.corrupt .rootId)
    else
      let others := (files.erase rootId).toList
      let u ← others.foldlM (fun u (id, file) => loadMember u id file) (← ofRoot root)
      u.checkReferences
      return u

end Universe

end GraphLisp
