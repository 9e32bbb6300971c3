import GraphLisp.Text.Bytes
import GraphLisp.Universe.Folder
/-!
# Folders within folders

A tree of files and folders is kept by path. Names lead through the tree from folder to folder,
and two dots lead back. Operations fail the way they do in a file system: what the names lead to
may be absent, or of the other kind than it should be, and a name may be one that no file can
have. What an operation has done up to a failure stays. The folder that names lead to can be taken
out, worked on, and put back.
-/

namespace GraphLisp

open Std

/-- Where a file or a folder is: the names of the folders around it, from the top, and its own. -/
abbrev Path := List String

namespace Path

/-- The name that leads from a folder to the one around it. -/
def back : String := ".."

/-- The names in a text; a single dot is none. -/
def names (text : String) : List String :=
  (text.splitOn "/").filter fun name => name != "" && name != "."

/-- The text of a path. -/
def text (path : Path) : String := "/".intercalate path

/-- How many bytes a name may have. -/
def maxNameSize : Nat := 255

/-- How many bytes names may have together, each with a stroke before it. -/
def maxSize : Nat := 4079

/-- How many bytes a name has. -/
def nameSize (name : String) : Nat := ((Text.nameBytes? name).getD []).length

/-- The names as their bytes spell them. Some have no bytes, and none may have the byte 0. -/
def spelt (names : List String) : Except Fault (List String) :=
  match names.mapM Text.nameBytes? with
  | none => .error .unspellable
  | some all =>
    if all.any (·.contains 0) then .error (.unreadable .misuse "embedded null byte")
    else .ok (all.map Text.nameOfBytes)

/-- Names that may lead somewhere. -/
def read (names : List String) : Except Fault (List String) := do
  let names ← spelt names
  if maxSize < names.foldl (fun size name => size + nameSize name + 1) 0 then
    Except.error Fault.refusedFile
  else return names

/-- Where a name leads from a folder. Outside of the top there are only folders. -/
def enter (here : Path) (name : String) : Except Fault Path :=
  if name == back then
    .ok (if here.all (· == back) then here ++ [back] else here.dropLast)
  else if maxNameSize < nameSize name then .error .refusedFile
  else .ok (here ++ [name])

/-- Whether a path leads out of the top. -/
def isOutside (path : Path) : Bool := path.head? == some back

end Path

/-- Files and folders by path. The top is a folder that is always there. -/
abbrev FolderTree := ExtTreeMap Path FolderItem

namespace FolderTree

/-- Something that is done in a tree. -/
abbrev Change := EStateM Fault FolderTree

/-- What is at a path. -/
def item? (tree : FolderTree) (path : Path) : Option FolderItem :=
  if path.all (· == Path.back) then some .folder else tree[path]?

/-- There must be a folder at a path. -/
def checkFolder (tree : FolderTree) (path : Path) : Except Fault Unit :=
  match tree.item? path with
  | some .folder => .ok ()
  | some (.file _) => .error .fileAsFolder
  | none => .error .absentFile

/-- Where names lead from a path. All but the last must lead to a folder. -/
def follow (tree : FolderTree) : Path → List String → Except Fault Path
  | here, [] => .ok here
  | here, name :: rest => do
    tree.checkFolder here
    tree.follow (← here.enter name) rest

/-- Where names lead. -/
def find (names : List String) : Change Path := do
  match (Path.read names).bind ((← get).follow []) with
  | .ok path => return path
  | .error fault => throw fault

/-- What is at a path, which must not be nothing. -/
def item (path : Path) : Change FolderItem := do
  match (← get).item? path with
  | some item => return item
  | none => throw .absentFile

/-! ## Folders -/

/-- Makes the folders that names lead through and that are missing. -/
def makeThrough : Path → List String → Change Unit
  | _, [] => return
  | here, name :: rest => do
    match here.enter name with
    | .error fault => throw fault
    | .ok next =>
      match (← get).item? next with
      | none => modify fun tree => tree.insert next .folder
      | some .folder => pure ()
      | some (.file _) => throw (if rest.isEmpty then .presentFile else .fileAsFolder)
      makeThrough next rest

/-- How many missing folders can be made around another one. -/
def maxMissing : Nat := 985

/-- How many names come after the first that leads to nothing. -/
def missing (tree : FolderTree) : Path → List String → Nat
  | _, [] => 0
  | here, name :: rest =>
    match here.enter name with
    | .error _ => 0
    | .ok next => if (tree.item? next).isNone then rest.length else tree.missing next rest

/-- Makes the folder that names lead to, and those around it. -/
def makeFolder (names : List String) : Change Unit := do
  match Path.read names with
  | .error fault => throw fault
  | .ok names =>
    if maxMissing < (← get).missing [] names then throw .endless
    makeThrough [] names

/-! ## Files -/

/-- Writes a file, and makes the folders around it. They stay if there is nothing to be written. -/
def writeFile (names : List String) (content : Except Fault ByteArray) : Change Unit := do
  makeFolder names.dropLast
  match content with
  | .error fault => throw fault
  | .ok content =>
    let path ← find names
    if let some .folder := (← get).item? path then throw .folderAsFile
    modify fun tree => tree.insert path (.file content)

/-- The content of the file at a path. -/
def content (path : Path) : Change ByteArray := do
  match ← item path with
  | .file content => return content
  | .folder => throw .folderAsFile

/-- Removes a file. -/
def removeFile (names : List String) : Change Unit := do
  let path ← find names
  let _ ← content path
  modify fun tree => tree.erase path

/-- Replaces the first occurrence of some text in a file, and returns whether there is one. -/
def replaceIn (names : List String) (old new : String) : Change Bool := do
  let path ← find names
  match Text.ofBytes? (← content path) with
  | none => throw .misspelt
  | some text =>
    match (Text.replaceFirst? old new text).map Snapshot.bytes with
    | none => return false
    | some (.error fault) => throw fault
    | some (.ok content) =>
      modify fun tree => tree.insert path (.file content)
      return true

/-- The tree with everything at a path and below moved to another path. -/
def moved (tree : FolderTree) (source target : Path) : FolderTree :=
  tree.foldl (fun t path item =>
    if source.isPrefixOf path then
      (t.erase path).insert (target ++ path.drop source.length) item
    else t) tree

/-- The folder around what names lead to. -/
def around (tree : FolderTree) (names : List String) : Except Fault Path := do
  let path ← tree.follow [] names.dropLast
  tree.checkFolder path
  return path

/-- Where the last of the names leads from the folder around it. The name must not lead back. -/
def last (around : Path) (names : List String) : Except Fault Path :=
  match names.getLast? with
  | none => .ok []
  | some name => around.enter name

/-- Whether what is at a path can go to another one. A file takes the place of a file, and a folder
that of an empty folder. -/
def checkMove (tree : FolderTree) (what : FolderItem) (source target : Path) :
    Except Fault Unit :=
  if source == target then .ok ()
  else if source.isPrefixOf target || target.isPrefixOf source then .error .refusedFile
  else
    match what, tree.item? target with
    | .file _, some .folder => .error .folderAsFile
    | .folder, some (.file _) => .error .fileAsFolder
    | .folder, some .folder =>
      if tree.keys.any fun path => target.isPrefixOf path && path != target then
        .error .refusedFile
      else .ok ()
    | _, _ => .ok ()

/-- Where a file or a folder is that some names lead to, and where it goes if others are to lead
to it. -/
def places (tree : FolderTree) (old new : List String) : Except Fault (Path × Path) := do
  let old ← Path.read old
  let new ← Path.read new
  let aroundOld ← tree.around old
  let aroundNew ← tree.around new
  if old.getLast? == some Path.back || new.getLast? == some Path.back then
    Except.error Fault.refusedFile
  let source ← last aroundOld old
  let some what := tree.item? source | Except.error Fault.absentFile
  let target ← last aroundNew new
  tree.checkMove what source target
  return (source, target)

/-- Lets other names lead to a file or a folder. -/
def rename (old new : List String) : Change Unit := do
  match (← get).places old new with
  | .error fault => throw fault
  | .ok (source, target) =>
    if source != target then modify fun tree => tree.moved source target

/-- Everything in the tree, by the texts of the paths. -/
def listed (tree : FolderTree) : List (Path × FolderItem) :=
  (tree.toList.filter fun e => !e.1.isOutside).mergeSort fun a b =>
    Text.isAtMost a.1.text b.1.text

/-! ## One folder -/

/-- What is right inside the folder at a path. -/
def folderAt (tree : FolderTree) (path : Path) : Folder :=
  tree.foldl (fun f p item => if p.dropLast == path then f.insert (p.getLastD "") item else f) ∅

/-- The tree with other files in the folder at a path. -/
def putFolder (tree : FolderTree) (path : Path) (f : Folder) : FolderTree :=
  let bare := tree.filter fun p item => p.dropLast != path || item matches .folder
  f.foldl (fun tree name item =>
    match item with
    | .file _ => tree.insert (path ++ [name]) item
    | .folder => tree) bare

/-- Does something in the folder at a path. -/
def inFolder {α : Type} (path : Path) (op : Universe.InFolder α) : Change α := fun tree =>
  match op (tree.folderAt path) with
  | .ok a f => .ok a (tree.putFolder path f)
  | .error fault f => .error fault (tree.putFolder path f)

/-- Does something in the folder that names lead to, or in an empty one if they lead to none. -/
def inFolderIfAny {α : Type} (names : List String) (op : Universe.InFolder α) : Change α :=
  fun tree =>
    match (Path.read names).bind (tree.follow []) with
    | .ok path => inFolder path op tree
    | .error .refusedFile => .error .refusedFile tree
    | .error _ =>
      match op ∅ with
      | .ok a _ => .ok a tree
      | .error fault _ => .error fault tree

end FolderTree

/-- Saves a universe in the folder that names lead to, which is made if need be. -/
def Universe.saveAt (u : Universe) (format : Option String) (names : List String) :
    FolderTree.Change (List String) := do
  match fileFormat format with
  | .error fault => throw fault
  | .ok format =>
    FolderTree.makeFolder names
    FolderTree.inFolder (← FolderTree.find names) (u.saveAs format)

end GraphLisp
