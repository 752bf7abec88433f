import SqlLayout.Sql.Parser.Option

/-!
Statements that hold other statements, and the reports and results that stand among them. Each gives the
start of its text.
-/

namespace SqlLayout.Sql.Parser

open Text (commas)

/-- Statements with a semicolon after each, up to one of the words that end them. -/
def statementList (g : Grammar) (ends : List String) : Parser Unit :=
  repeatFrom () fun _ => do
    if (← nextIsOneOf ends) || (← peek).token == .eof then return .inr ()
    discard g.statement
    symbol ";"
    return .inl ()

/-- Statements between `BEGIN` and `END`, or up to one of the words that end them. -/
def block (g : Grammar) (ends : List String) : Parser Unit := do
  if ← word? "BEGIN" then
    statementList g ends
    word "END"
  else statementList g ends

/-- A condition and the statements that depend on it. -/
def guarded (g : Grammar) (ends : List String) : Parser Expr := do
  let condition ← g.anyExpr
  word "THEN"
  block g ends
  return condition

/-- A choice between blocks, after the word `CASE`. -/
def caseStatement (g : Grammar) : Parser String := do
  let subject ← if ← nextIsWord "WHEN" then pure none else do pure (some (← g.anyExpr))
  let t ← peek
  word "WHEN"
  discard (manyWith (word? "WHEN") (guarded g ["WHEN", "ELSE", "END"]))
  if ← word? "ELSE" then block g ["END"]
  word "END"
  discard (word? "CASE")
  match subject with
  | some e => return "CASE " ++ e.print
  | none => return "CASE " ++ t.token.text

/-- A conditional block, after its first word `t`. -/
def ifStatement (g : Grammar) (t : Lexeme) : Parser String := do
  let condition ← guarded g ["ELSE", "ELSEIF", "END"]
  if ← word? "ELSEIF" then
    discard (manyWith (word? "ELSEIF") (guarded g ["ELSEIF", "ELSE", "END"]))
  if ← word? "ELSE" then block g ["END"]
  words ["END", "IF"]
  return t.token.text ++ " " ++ condition.print

/-- A repeated block, after its first word `t`. -/
def whileStatement (g : Grammar) (t : Lexeme) : Parser String := do
  let condition ← g.anyExpr
  block g ["END"]
  return t.token.text ++ " " ++ condition.print

/-- A raised error, after the word `RAISE`. -/
def raiseStatement (g : Grammar) : Parser String := do
  if ← words? ["USING", "MESSAGE"] then
    symbol "="
    return "RAISE USING MESSAGE = " ++ (← g.anyExpr).print
  else
    let e ← attempt g.anyExpr
    return "RAISE" ++ clause " " (e.map Expr.print)

/-- A raised error with a severity and a state, after its first word. -/
def raiseError (g : Grammar) : Parser String := do
  symbol "("
  let message ← g.anyExpr
  symbol ","
  let severity ← g.anyExpr
  symbol ","
  let state ← g.anyExpr
  let arguments ← if ← symbol? "," then g.exprs else pure []
  symbol ")"
  if ← word? "WITH" then discard (commaSeparated (oneOf ["LOG", "NOWAIT", "SETERROR"]))
  return "RAISERROR(" ++ commas ((message :: severity :: state :: arguments).map Expr.print) ++ ")"

/-- The result of a routine, after the word `RETURN`. -/
def returnStatement (g : Grammar) : Parser String := do
  let e ← attempt g.anyExpr
  return "RETURN" ++ clause " " (e.map Expr.print)

end SqlLayout.Sql.Parser
