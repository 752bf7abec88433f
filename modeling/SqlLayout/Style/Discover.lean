import SqlLayout.Files.Workspace
import SqlLayout.Style.OfToml

/-!
Styles from files: one that is named, or the first one that is found.
-/

namespace SqlLayout

/-- The text of a file, or the error that it cannot be read. -/
def Workspace.text (w : Workspace) (path : String) : Outcome String :=
  (w.read path).mapError fun fault => .io fault.message

namespace Style

/-- The name of the file with the style of a directory. -/
def fileName : String := ".pgsqlfmt.toml"

/-- The style in a file. -/
def load (w : Workspace) (path : String) : Outcome Style := do
  let text ← w.text path
  (read text).mapError fun complaint => .config (path ++ ": " ++ complaint)

/-- The places where a style is looked for. -/
def searchPaths (w : Workspace) : List String :=
  fileName :: (w.settings.map fun d => Path.join (Path.join d "pgsqlfmt") "config.toml").toList

/-- The style in the first place where there is a file; the default style if there is none. -/
def discover (w : Workspace) : Outcome Style :=
  match (searchPaths w).find? w.isFile with
  | some path => load w path
  | none => .ok {}

end Style

end SqlLayout
