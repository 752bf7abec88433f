import SqlLayout.Sql.Parser.Command
import SqlLayout.Sql.Lexer

/-!
Scripts: statements with semicolons between them. Nesting is limited: the grammar for one level is
built from the grammar for one level less, and below the last level nothing can be read.
-/

namespace SqlLayout.Sql

open SqlLayout.Sql.Parser

/-- The grammar for phrases that nest at most `depth` levels. -/
def Grammar.atDepth : Nat → Grammar
  | 0 => .tooDeep
  | depth + 1 =>
    let g := atDepth depth
    { expr := exprAbove g, query := Parser.query g, statement := Parser.statement g }

/-- How many levels of phrases may stand in each other. -/
def nestingLimit : Nat := 50

/-- Statements with semicolons between them. A statement in the place of a semicolon that starts with
`END` ends the reading. -/
def Parser.statements : Parser (List Statement) :=
  repeatFrom (([], false) : List Statement × Bool) fun (acc, delimiterDue) => do
    let skipped ← repeatFrom false fun skipped => do
      if ← symbol? ";" then return .inl true else return .inr skipped
    let due := delimiterDue && !skipped
    let t ← peek
    if t.token == .eof || (due && t.key == "END") then return .inr acc.reverse
    else if due then expected "end of statement"
    else
      let s ← (Grammar.atDepth nestingLimit).statement
      return .inl (s :: acc, true)

/-- The statements of a script, or the message that tells why it cannot be read. -/
def parse (text : String) : Except String (List Statement) := do
  let ts ← tokens text
  match Parser.statements .anywhere ts with
  | .ok ss _ => return ss
  | .error f _ => throw f.text

end SqlLayout.Sql
