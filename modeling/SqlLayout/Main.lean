import SqlLayout.Command.Run

/-!
The command line. Everything that a request can see is read into a workspace first; the request is
carried out on that workspace, and the files that it has written are stored.
-/

namespace SqlLayout

/-- The directory that holds a user's settings. -/
def settingsDirectory : IO (Option String) := do
  match ← IO.getEnv "XDG_CONFIG_HOME" with
  | some d => if d.startsWith "/" then return some d else belowHome
  | none => belowHome
where
  belowHome : IO (Option String) := do
    return (← IO.getEnv "HOME").map fun home => Path.join home ".config"

/-- Reads a file, or a directory with the sources below it. -/
partial def loadTree (path : String) : IO (Option FileTree) := do
  let place := (← IO.currentDir) / path
  if ← place.isDir then
    let mut entries := []
    for e in ← place.readDir do
      let isWanted ←
        if ← e.path.isDir then pure (!excludedDirectories.contains e.fileName)
        else pure (isSourceName e.fileName)
      if isWanted then
        if let some node ← loadTree (Path.join path e.fileName) then
          entries := ⟨e.fileName, node⟩ :: entries
    return some (.directory entries)
  else if ← place.pathExists then return some (.file (← IO.FS.readBinFile place))
  else return none

/-- The paths that a request names, and those where a style is looked for. -/
def Command.Request.paths (w : Workspace) : Command.Request → List String
  | .run options task =>
    (match options.config with
      | some path => [path]
      | none => Style.searchPaths w) ++
    (match task with
      | .format _ => []
      | .fix paths | .check paths _ => paths)
  | _ => []

/-- The request waits for the standard input. -/
def Command.Request.readsInput : Command.Request → Bool
  | .run _ (.format none) => true
  | _ => false

/-- The workspace of a request. -/
def loadWorkspace (request : Command.Request) : IO Workspace := do
  let directory := Path.names (← IO.currentDir).toString
  let empty : Workspace :=
    { root := FileTree.put default directory default
      directory
      settings := ← settingsDirectory }
  (request.paths empty).foldlM (fun w path => do
    match ← loadTree path with
    | some node => return w.create path node
    | none => return w) empty

end SqlLayout

open SqlLayout in
/-- Carries out the request of the command line. -/
def main (arguments : List String) : IO UInt32 := do
  let request := Command.Request.ofArguments (← IO.getEnv "PGSQLFMT_CONFIG") arguments
  let w ← loadWorkspace request
  let input ← if request.readsInput then (← IO.getStdin).readBinToEnd else pure ByteArray.empty
  let (w, answer) := Command.run w input request
  for path in answer.written do
    if let .ok text := w.read path then IO.FS.writeFile ((← IO.currentDir) / path) text
  IO.print answer.output
  IO.eprint answer.complaint
  return answer.exit.toUInt32
