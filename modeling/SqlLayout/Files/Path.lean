/-!
Paths as they are written: names with slashes between them. A path that starts with a slash starts at
the root.
-/

namespace SqlLayout.Path

/-- The names of a path. -/
def names (path : String) : List String :=
  ((path.toList.splitOn '/').map String.ofList).filter (· != "")

/-- The last name of a path; a path that ends by going up has none. -/
def fileName? (path : String) : Option String :=
  match ((names path).filter (· != ".")).getLast? with
  | some ".." => none
  | name => name

/-- The path of a name in a directory. -/
def join (directory name : String) : String :=
  if directory == "" || directory.endsWith "/" then directory ++ name
  else directory ++ "/" ++ name

/-- Whether a name has the given ending after a point, with something in front of the point. -/
def hasExtension (ending name : String) : Bool :=
  let tail := "." ++ ending
  name.endsWith tail && name != tail

/-- The order of paths, given by their names: name by name, a path before those that go on from
it. -/
def le : List String → List String → Bool
  | [], _ => true
  | _ :: _, [] => false
  | a :: r, b :: s => if a = b then le r s else decide (a < b)

end SqlLayout.Path
