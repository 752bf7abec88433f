import SqlLayout.Text.Basic

/-!
Style options: the unit of indentation, the case of well-known function names, and how joins are
placed.
-/

namespace SqlLayout

/-- The unit of indentation. -/
inductive IndentUnit
  | tab
  | twoSpaces
  deriving DecidableEq, Repr, Inhabited

/-- The text of one unit of indentation. -/
def IndentUnit.text : IndentUnit → String
  | .tab => "\t"
  | .twoSpaces => "  "

/-- The case in which well-known function names are written. -/
inductive NameCase
  | lower
  | upper
  deriving DecidableEq, Repr, Inhabited

/-- A style. -/
structure Style where
  indent : IndentUnit := .twoSpaces
  functionCase : NameCase := .lower
  /-- A join stands one level deeper than the table before it. -/
  joinIndented : Bool := true
  /-- The condition of a join starts on a line of its own. -/
  onOwnLine : Bool := true
  deriving DecidableEq, Repr

instance : Inhabited Style := ⟨{}⟩

/-- The indentation of a line at the given depth. -/
def Style.indentBy (s : Style) (depth : Nat) : String :=
  Text.replicate s.indent.text depth

/-- A line break and the indentation of the line that it starts. -/
def Style.newline (s : Style) (depth : Nat) : String :=
  "\n" ++ s.indentBy depth

end SqlLayout
