/-!
File trees: directories of files, given by their bytes, and of directories.
-/

namespace SqlLayout

mutual

/-- A file or a directory. -/
inductive FileTree
  | file (bytes : ByteArray)
  | directory (entries : List FileEntry)

/-- A name in a directory. -/
structure FileEntry where
  name : String
  node : FileTree

end

namespace FileTree

instance : Inhabited FileTree := ⟨.directory []⟩

/-- The tree is a file. -/
def isFile : FileTree → Bool
  | .file _ => true
  | .directory _ => false

/-- The names in a directory. -/
def entries : FileTree → List FileEntry
  | .file _ => []
  | .directory es => es

/-- What stands under a name in a directory. -/
def child? (t : FileTree) (name : String) : Option FileTree :=
  (t.entries.find? (·.name == name)).map (·.node)

/-- What stands at the end of a list of names. -/
def get? : List String → FileTree → Option FileTree
  | [], t => some t
  | name :: names, t => (t.child? name).bind (get? names)

/-- The entries with another node under a name, which comes last if it is new. -/
def putEntry (name : String) (node : FileTree) : List FileEntry → List FileEntry
  | [] => [⟨name, node⟩]
  | e :: es => if e.name == name then ⟨name, node⟩ :: es else e :: putEntry name node es

/-- The tree with another node at the end of a list of names. Directories that are not there come to
be. -/
def put : FileTree → List String → FileTree → FileTree
  | _, [], node => node
  | t, name :: names, node =>
    .directory (putEntry name (put ((t.child? name).getD default) names node) t.entries)

end FileTree

/-- Why a file cannot be read. -/
inductive FileFault
  | notFound
  | notADirectory
  | isADirectory
  | notText
  deriving DecidableEq, Repr, Inhabited

/-- The text of a fault. -/
def FileFault.message : FileFault → String
  | .notFound => "No such file or directory (os error 2)"
  | .notADirectory => "Not a directory (os error 20)"
  | .isADirectory => "Is a directory (os error 21)"
  | .notText => "stream did not contain valid UTF-8"

/-- The text that bytes stand for. -/
def decodeText (bytes : ByteArray) : Except FileFault String :=
  match String.fromUTF8? bytes with
  | some text => .ok text
  | none => .error .notText

end SqlLayout
