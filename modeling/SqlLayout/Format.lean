import SqlLayout.Layout.OfSql
import SqlLayout.Layout.Render
import SqlLayout.Placeholder
import SqlLayout.Sql.Parser

/-!
Formatting a script: every statement is read, turned into a tree that can be laid out, and written in
the given style.
-/

namespace SqlLayout

/-- The statements of a script. -/
def readScript (text : String) : Outcome (List Sql.Statement) :=
  (Sql.parse text).mapError Error.parse

/-- Statements one after the other: each starts on a new line, a semicolon stands between
neighbours, and the text ends with a line break. -/
def renderScript (s : Style) (ts : List Layout.Statement) : String :=
  Text.joinWith ";" (ts.map fun t => "\n" ++ t.render s) ++ "\n"

/-- A script in the given style. The first error ends the whole. -/
def format (s : Style) (sql : String) : Outcome String := do
  let statements ← readScript (Placeholder.normalize sql)
  let trees ← statements.mapM Layout.Statement.ofSql
  return Placeholder.restore (renderScript s trees)

end SqlLayout
