import SqlLayout.Files.Path
import SqlLayout.Files.Tree

/-!
A workspace: a file tree and a place in it, from which paths are followed.
-/

namespace SqlLayout

/-- A file tree from its root on, the directory in which relative paths start, and the directory that
holds a user's settings. -/
structure Workspace where
  root : FileTree
  directory : List String
  settings : Option String := none

namespace Workspace

/-- Follows names from a directory on, which must be there as long as names are left. The result is
the list of names from the root on; what it leads to need not be there. -/
def follow (root : FileTree) : List String → List String → Except FileFault (List String)
  | here, [] => .ok here
  | here, name :: names =>
    match root.get? here with
    | none => .error .notFound
    | some (.file _) => .error .notADirectory
    | some (.directory _) =>
      if name == "." then follow root here names
      else if name == ".." then follow root here.dropLast names
      else follow root (here ++ [name]) names

/-- The names from the root on to which a path leads. -/
def resolve (w : Workspace) (path : String) : Except FileFault (List String) := do
  if path == "" then throw .notFound
  else
    let start := if path.startsWith "/" then [] else w.directory
    let place ← follow w.root start (Path.names path)
    if path.endsWith "/" && (w.root.get? place).any FileTree.isFile then throw .notADirectory
    else return place

/-- What stands at a path. -/
def node (w : Workspace) (path : String) : Except FileFault FileTree := do
  match w.root.get? (← w.resolve path) with
  | some t => return t
  | none => throw .notFound

/-- There is a file at the path. -/
def isFile (w : Workspace) (path : String) : Bool :=
  match w.node path with
  | .ok t => t.isFile
  | .error _ => false

/-- The text of the file at a path. -/
def read (w : Workspace) (path : String) : Except FileFault String := do
  match ← w.node path with
  | .file bytes => decodeText bytes
  | .directory _ => throw .isADirectory

/-- The workspace with a file of the given text at a path. Nothing changes if the path cannot be
followed. -/
def write (w : Workspace) (path text : String) : Workspace :=
  match w.resolve path with
  | .ok place => { w with root := w.root.put place (.file text.toUTF8) }
  | .error _ => w

/-- The names from the root on to which a path leads by its text: going up undoes the name before. -/
def place (w : Workspace) (path : String) : List String :=
  let start := if path.startsWith "/" then [] else w.directory
  (Path.names path).foldl
    (fun here name =>
      if name == "." then here else if name == ".." then here.dropLast else here ++ [name])
    start

/-- The workspace with another node at a path, and with the directories that lead to it. -/
def create (w : Workspace) (path : String) (node : FileTree) : Workspace :=
  { w with root := w.root.put (w.place path) node }

end Workspace

end SqlLayout
