import SqlLayout.Sql.Parser.Block

/-!
Functions, procedures and triggers.
-/

namespace SqlLayout.Sql.Parser

/-- The direction of an argument, if it is given. -/
def argMode : Parser Unit :=
  discard (oneOf? ["IN", "OUT", "INOUT"])

/-- One argument of a function: a type, or a name and a type. What is read first is the name when a
second type follows it, and its last token must then be a word. -/
def functionArg (g : Grammar) : Parser Unit := do
  argMode
  let start ← get
  discard (dataType g)
  let last ← lastSince start
  let second ← attempt do
    if ← nextIsWord "DEFAULT" then expected "a data type name" else dataType g
  if second.isSome then
    match last.token with
    | .word _ | .delimited _ => pure ()
    | _ => expectedBut "a name or type" last
  let default ← if ← word? "DEFAULT" then pure true else symbol? "="
  if default then discard g.anyExpr

/-- A function by its name and the types of its arguments. -/
def functionDesc (g : Grammar) : Parser Unit := do
  discard objectName
  if ← symbol? "(" then
    discard (commaSeparatedUntil ")" (functionArg g))
    symbol ")"

/-! ### Functions -/

/-- The parts of a function's definition that may stand once. -/
inductive FunctionPart
  | body
  | language
  | volatility
  | nullInput
  | parallel
  deriving DecidableEq

/-- A text in the place of a function's body. -/
def bodyText : Parser Unit := do
  match (← peek).token with
  | .dollar _ _ => discard next
  | _ => discard stringText

/-- One part of a function's definition: the part, the words by which a fault names it, and what follows
its first words. -/
def functionPart? (g : Grammar) : Parser (Option (FunctionPart × String × Parser Unit)) := do
  if ← word? "AS" then
    return some (.body, "AS", do
      bodyText
      if ← symbol? "," then bodyText)
  if ← word? "LANGUAGE" then return some (.language, "LANGUAGE", discard ident)
  if (← oneOf? ["IMMUTABLE", "STABLE", "VOLATILE"]).isSome then
    return some (.volatility, "IMMUTABLE | STABLE | VOLATILE", pure ())
  if (← oneOfRuns? [["CALLED", "ON", "NULL", "INPUT"], ["RETURNS", "NULL", "ON", "NULL", "INPUT"],
      ["STRICT"]]).isSome then
    return some (.nullInput, "CALLED ON NULL INPUT | RETURNS NULL ON NULL INPUT | STRICT", pure ())
  if ← word? "PARALLEL" then
    return some (.parallel, "PARALLEL \x7b UNSAFE | RESTRICTED | SAFE \x7d",
      discard (oneOfAs "one of UNSAFE | RESTRICTED | SAFE" ["UNSAFE", "RESTRICTED", "SAFE"]))
  if ← word? "RETURN" then return some (.body, "RETURN", discard g.anyExpr)
  return none

/-- The definition of a function after the word `FUNCTION`. -/
def functionDef (g : Grammar) : Parser Unit := do
  discard objectName
  discard (parens (commaSeparatedUntil ")" (functionArg g)))
  discard (afterWord "RETURNS" (dataType g))
  repeatFrom ([] : List FunctionPart) fun found => do
    match ← functionPart? g with
    | none => return .inr ()
    | some (part, shown, rest) =>
      if part ∈ found then failWith (shown ++ " specified more than once")
      rest
      return .inl (part :: found)

/-! ### Procedures -/

/-- One parameter of a procedure. -/
def procedureParam (g : Grammar) : Parser Unit := do
  argMode
  discard ident
  discard (dataType g)
  if ← symbol? "=" then discard g.anyExpr

/-- The parameters of a procedure in parentheses, if they are given. A comma may stand after the
last one. -/
def procedureParams (g : Grammar) : Parser Unit := do
  unless ← symbol? "(" do return
  if ← symbol? ")" then return
  repeatFrom () fun _ => do
    match (← peek).token with
    | .word _ | .delimited _ => procedureParam g
    | _ => pure ()
    let comma ← symbol? ","
    if ← symbol? ")" then return .inr ()
    else if comma then return .inl ()
    else expected "',' or ')' after parameter definition"

/-- The definition of a procedure after the word `PROCEDURE`. -/
def procedureDef (g : Grammar) : Parser Unit := do
  discard objectName
  procedureParams g
  discard (afterWord "LANGUAGE" ident)
  word "AS"
  block g ["END"]

/-! ### Triggers -/

/-- When a trigger fires, relative to its event. -/
def triggerPeriod : Parser Unit := do
  if (← oneOf ["FOR", "BEFORE", "AFTER", "INSTEAD"]) == "INSTEAD" then word "OF"

/-- The event that fires a trigger. -/
def triggerEvent : Parser Unit := do
  if (← oneOf ["INSERT", "UPDATE", "DELETE", "TRUNCATE"]) == "UPDATE" then
    discard (afterWord "OF" idents)

/-- A name for the rows before or after the event. -/
def transitionTable : Parser (Option Unit) := do
  match ← oneOf? ["OLD", "NEW"] with
  | some _ =>
    if ← word? "TABLE" then
      discard (word? "AS")
      discard objectName
      return some ()
    else return none
  | none => return none

/-- The definition of a trigger after the word `TRIGGER`. -/
def triggerDef (g : Grammar) : Parser Unit := do
  discard objectName
  discard (attempt triggerPeriod)
  discard (manyWith (word? "OR") triggerEvent)
  word "ON"
  discard objectName
  if ← word? "FROM" then discard (taking objectName)
  discard checking
  if ← word? "REFERENCING" then discard (many transitionTable)
  if ← word? "FOR" then
    discard (word? "EACH")
    discard (oneOf ["ROW", "STATEMENT"])
  discard (afterWord "WHEN" g.anyExpr)
  if ← word? "EXECUTE" then
    discard (oneOf ["FUNCTION", "PROCEDURE"])
    functionDesc g
  else block g ["END"]

end SqlLayout.Sql.Parser
