import SqlLayout.Sql.Parser.Name

/-!
The phrases that hold themselves, as a parameter of the parsers for everything else. A grammar reads
expressions, queries and statements down to some depth of nesting; the grammar of one level more is
built from it, so reading ends because the depth goes down.
-/

namespace SqlLayout.Sql

/-- Parsers for the phrases that may hold phrases of their own kind. `expr n` reads an expression
whose operators bind more tightly than strength `n`. -/
structure Grammar where
  expr : Nat → Parser Expr
  query : Parser Query
  statement : Parser Statement

namespace Grammar

/-- The grammar at the limit: nothing may nest any deeper. -/
def tooDeep : Grammar where
  expr _ := Parser.fail .tooDeep
  query := Parser.fail .tooDeep
  statement := Parser.fail .tooDeep

/-- An expression with any operators. -/
def anyExpr (g : Grammar) : Parser Expr :=
  g.expr 0

/-- One or more expressions with commas between them. -/
def exprs (g : Grammar) : Parser (List Expr) :=
  Parser.commaSeparated g.anyExpr

end Grammar

/-! How tightly operators bind. -/

namespace Strength

def or : Nat := 10
def and : Nat := 20
def not : Nat := 30
def is : Nat := 40
def comparison : Nat := 50
def pattern : Nat := 60
def other : Nat := 70
def xor : Nat := 75
def sum : Nat := 80
def product : Nat := 90
def power : Nat := 100
def timeZone : Nat := 110
def collation : Nat := 120
def bracket : Nat := 130
def cast : Nat := 140
def period : Nat := 200

end Strength

end SqlLayout.Sql
