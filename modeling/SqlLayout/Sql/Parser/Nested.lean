import SqlLayout.Sql.Parser.Grammar

/-!
Phrases in parentheses: queries, single expressions and lists of them.
-/

namespace SqlLayout.Sql.Parser

/-- A query in parentheses. -/
def queryInParens (g : Grammar) : Parser Query :=
  parens g.query

/-- A collation after an expression, if one follows. -/
def collated (e : Expr) : Parser Expr := do
  if (← read) == .columnDefinition then return e
  match ← afterWord "COLLATE" objectName with
  | some name => return .phrase (e.print ++ " COLLATE " ++ name.print)
  | none => return e

/-- One or more expressions, or a query, after an opening parenthesis, with the closing one.
Parentheses lift the restrictions of a column's definition. -/
def parenthesized (g : Grammar) : Parser Expr := do
  let e ← if ← nextIsOneOf ["SELECT", "WITH"] then do pure (Expr.subquery (← g.query)) else do
    match ← within .anywhere g.exprs with
    | [e] => pure (Expr.nested e)
    | es => pure (Expr.phrase ("(" ++ Text.commas (es.map Expr.print) ++ ")"))
  symbol ")"
  return e

end SqlLayout.Sql.Parser
