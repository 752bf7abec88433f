import SqlLayout.Files.Workspace

/-!
The Rust sources below a path, without those in directories of built or borrowed code.
-/

namespace SqlLayout

/-- The names of directories that are passed over. -/
def excludedDirectories : List String :=
  ["target", ".git", "node_modules", "vendor"]

/-- A name of a Rust source. -/
def isSourceName (name : String) : Bool :=
  Path.hasExtension "rs" name

/-- The sources in a directory and below it, each given by its names, in the order of the entries. -/
def sourcesIn : List FileEntry → List (List String)
  | [] => []
  | ⟨name, .file _⟩ :: es => (if isSourceName name then [[name]] else []) ++ sourcesIn es
  | ⟨name, .directory inner⟩ :: es =>
    (if excludedDirectories.contains name then [] else (sourcesIn inner).map (name :: ·)) ++
      sourcesIn es

/-- The sources below a tree, in the order of paths. -/
def FileTree.sources (t : FileTree) : List (List String) :=
  (sourcesIn t.entries).mergeSort Path.le

/-- The sources at a path or below it. A path that leads to a file is taken as it is. -/
def Workspace.sources (w : Workspace) (path : String) : List String :=
  match w.node path with
  | .ok (.file _) => [path]
  | .ok t => t.sources.map fun names => names.foldl Path.join path
  | .error _ => []

/-- A source that a program has written. -/
def isGenerated (path : String) : Bool :=
  (Path.fileName? path).any fun name => name.endsWith "_gen.rs"

end SqlLayout
