import SqlLayout.Sql.Parser.Operator

/-!
Table phrases and the joins between them. Tables, calls and queries in parentheses have a layout of
their own; samples, pivots and the other phrases are kept as their text.
-/

namespace SqlLayout.Sql.Parser

open Text (commas)

/-- An expression with an optional name after `AS`, as text. -/
def namedExpr (g : Grammar) : Parser String := do
  let e ← g.anyExpr
  let name ← afterWord "AS" ident
  return e.print ++ clause " AS " (name.map Ident.print)

/-! ### Samples and pivots -/

/-- The size of a sample. -/
def sampleSize (g : Grammar) : Parser String := do
  let size ← match ← attempt g.anyExpr with
    | some e => pure e.print
    | none =>
      let t ← next
      match t.token with
      | .word s | .delimited s => pure s
      | _ => failHere "Expecting number or byte length e.g. 100M"
  match ← oneOf? ["ROWS", "PERCENT"] with
  | some unit => return size ++ " " ++ unit
  | none => return size

/-- The seed of a sample, with the blank before it. -/
def sampleSeed : Parser String := do
  match ← oneOf? ["REPEATABLE", "SEED"] with
  | some k => return " " ++ k ++ " (" ++ (← parens numberText) ++ ")"
  | none => return ""

/-- A sample of a table after its first word. -/
def sampleAfter (g : Grammar) (lead : String) : Parser String := do
  let method ← oneOf? ["BERNOULLI", "ROW", "SYSTEM", "BLOCK"]
  let lead := lead ++ clause " " method
  let between ← symbol? "("
  let bucket ← if between then word? "BUCKET" else pure false
  if bucket then
    let chosen ← numberText
    words ["OUT", "OF"]
    let total ← numberText
    let on ← afterWord "ON" g.anyExpr
    symbol ")"
    let seed ← sampleSeed
    let offset ← afterWord "OFFSET" g.anyExpr
    return lead ++ seed ++ " (BUCKET " ++ chosen ++ " OUT OF " ++ total ++
      clause " ON " (on.map Expr.print) ++ ")" ++ clause " OFFSET " (offset.map Expr.print)
  else
    let size ← sampleSize g
    if between then symbol ")"
    let seed ← sampleSeed
    let offset ← afterWord "OFFSET" g.anyExpr
    return lead ++ " " ++ (if between then "(" ++ size ++ ")" else size) ++ seed ++
      clause " OFFSET " (offset.map Expr.print)

/-- A sample of a table, if one follows. -/
def sample? (g : Grammar) : Parser (Option String) := do
  match ← oneOf? ["TABLESAMPLE", "SAMPLE"] with
  | some k => return some (← sampleAfter g k)
  | none => return none

/-- A call with an optional name, as text. -/
def namedCall (g : Grammar) : Parser String := do
  let t ← next
  match t.token with
  | .word s | .delimited s =>
    let e ← call g (operand g ((← remaining) + 1)) false [⟨s, none⟩]
    let name ← aliasExcept? ["FOR"] reservedForColumn
    return e.print ++ clause " AS " (name.map Ident.print)
  | _ => expected "a function identifier"

/-- The values that a pivot turns into columns. -/
def pivotValues (g : Grammar) : Parser String := do
  if ← word? "ANY" then
    return "ANY" ++ listClause " ORDER BY " ((← orderBy g).map SortItem.print)
  else
    let key := (← peek).key
    if key == "SELECT" || key == "WITH" then return (← g.query).print
    else return commas (← commaSeparated (namedExpr g))

/-- Rows turned into columns, after the first word. -/
def pivot (g : Grammar) (table : String) : Parser String := do
  symbol "("
  let calls ← commaSeparated (namedCall g)
  word "FOR"
  let column ← if ← symbol? "(" then do
      let es ← commaSeparated (g.expr Strength.pattern)
      symbol ")"
      match es with
      | [e] => pure e.print
      | es => pure ("(" ++ commas (es.map Expr.print) ++ ")")
    else do pure (← g.expr Strength.pattern).print
  word "IN"
  let values ← parens (pivotValues g)
  let default ← afterWords ["DEFAULT", "ON", "NULL"] (parens g.anyExpr)
  symbol ")"
  let aliasName ← tableAlias g
  return table ++ " PIVOT(" ++ commas calls ++ " FOR " ++ column ++ " IN (" ++ values ++ ")" ++
    clause " DEFAULT ON NULL (" (default.map (·.print ++ ")")) ++ ")" ++ aliasText aliasName

/-- Columns turned into rows, after the first word. -/
def unpivot (g : Grammar) (table : String) : Parser String := do
  let nulls ← match ← oneOf? ["INCLUDE", "EXCLUDE"] with
    | some k => do
      word "NULLS"
      pure (" " ++ k ++ " NULLS ")
    | none => pure ""
  symbol "("
  let e ← g.anyExpr
  word "FOR"
  let name ← ident
  word "IN"
  let columns ← if ← symbol? "(" then do
      let cs ← commaSeparated (namedExpr g)
      symbol ")"
      pure cs
    else expected "a list of columns in parentheses"
  symbol ")"
  let aliasName ← tableAlias g
  return table ++ " UNPIVOT" ++ nulls ++ "(" ++ e.print ++ " FOR " ++ name.print ++ " IN (" ++
    commas columns ++ "))" ++ aliasText aliasName

/-- The pivots after a table phrase. -/
def pivots (g : Grammar) (start : Factor) : Parser Factor :=
  repeatFrom start fun t => do
    match ← oneOf? ["PIVOT", "UNPIVOT"] with
    | some "PIVOT" => return .inl (.phrase (← pivot g t.print))
    | some _ => return .inl (.phrase (← unpivot g t.print))
    | none => return .inr t

/-! ### Tables made from other values -/

/-- What a JSON column holds when its value is missing or bad, as text. -/
def jsonHandling? : Parser (Option String) := do
  let shown ← do
    if ← word? "NULL" then pure (some "NULL")
    else if ← word? "ERROR" then pure (some "ERROR")
    else if ← word? "DEFAULT" then pure (some ("DEFAULT " ++ (← value).print))
    else pure none
  if shown.isSome then word "ON"
  return shown

/-- One column of a table made from a JSON value; `fuel` bounds the nesting of columns. -/
def jsonColumn (g : Grammar) : Nat → Parser String
  | 0 => expected "identifier"
  | fuel + 1 => do
    if ← word? "NESTED" then
      let _ ← word? "PATH"
      let path ← value
      word "COLUMNS"
      let columns ← parens (commaSeparated (jsonColumn g fuel))
      return "NESTED PATH " ++ path.print ++ " COLUMNS (" ++ commas columns ++ ")"
    let name ← ident
    if ← word? "FOR" then
      word "ORDINALITY"
      return name.print ++ " FOR ORDINALITY"
    let type ← dataType g
    let tests ← word? "EXISTS"
    word "PATH"
    let path ← value
    let (onEmpty, onError) ← repeatFrom ((none, none) : Option String × Option String)
      fun (onEmpty, onError) => do
        match ← jsonHandling? with
        | none => return .inr (onEmpty, onError)
        | some h =>
          if ← word? "EMPTY" then return .inl (some h, onError)
          else
            word "ERROR"
            return .inl (onEmpty, some h)
    return name.print ++ " " ++ type.print ++ (if tests then " EXISTS" else "") ++ " PATH " ++
      path.print ++ clause " " (onEmpty.map (· ++ " ON EMPTY")) ++
      clause " " (onError.map (· ++ " ON ERROR"))

/-- A table made from a JSON value, after its opening parenthesis. -/
def jsonTable (g : Grammar) : Parser String := do
  let e ← g.anyExpr
  symbol ","
  let path ← value
  word "COLUMNS"
  let columns ← parens (commaSeparated (jsonColumn g ((← remaining) + 1)))
  symbol ")"
  let aliasName ← tableAlias g
  return "JSON_TABLE(" ++ e.print ++ ", " ++ path.print ++ " COLUMNS(" ++ commas columns ++ "))" ++
    aliasText aliasName

/-- One column of an opened JSON value. -/
def openJsonColumn (g : Grammar) : Parser String := do
  let name ← ident
  let type ← dataType g
  let t ← peek
  let path ← match t.token with
    | .quoted .plain s => do
      let _ ← next
      pure (" " ++ quotedText .plain s)
    | _ => pure ""
  let json ← word? "AS"
  if json then word "JSON"
  return name.print ++ " " ++ type.print ++ path ++ (if json then " AS JSON" else "")

/-- An opened JSON value, after its opening parenthesis. -/
def openJson (g : Grammar) : Parser String := do
  let e ← g.anyExpr
  let path ← if ← symbol? "," then do pure (some (← value).print) else pure none
  symbol ")"
  let columns ← if ← word? "WITH" then parens (commaSeparated (openJsonColumn g)) else pure []
  let aliasName ← tableAlias g
  return "OPENJSON(" ++ e.print ++ clause ", " path ++ ")" ++
    (if columns.isEmpty then "" else " WITH (" ++ commas columns ++ ")") ++ aliasText aliasName

/-- One column of a table made from an XML value. -/
def xmlColumn (g : Grammar) : Parser String := do
  let name ← ident
  if ← word? "FOR" then
    word "ORDINALITY"
    return name.print ++ " FOR ORDINALITY"
  let type ← dataType g
  let path ← afterWord "PATH" g.anyExpr
  let default ← afterWord "DEFAULT" g.anyExpr
  let required ← words? ["NOT", "NULL"]
  unless required do
    let _ ← word? "NULL"
  return name.print ++ " " ++ type.print ++ clause " PATH " (path.map Expr.print) ++
    clause " DEFAULT " (default.map Expr.print) ++ (if required then " NOT NULL" else "")

/-- One value that is passed to a table made from XML. -/
def xmlArgument (g : Grammar) : Parser String := do
  let byValue ← if ← word? "BY" then word? "VALUE" else pure false
  return (if byValue then "BY VALUE " else "") ++ (← namedExpr g)

/-- A table made from an XML value, after its opening parenthesis. -/
def xmlTable (g : Grammar) : Parser String := do
  let namespaces ← if ← word? "XMLNAMESPACES" then do
      let ns ← parens (commaSeparated do
        let uri ← g.anyExpr
        word "AS"
        return uri.print ++ " AS " ++ (← ident).print)
      symbol ","
      pure ns
    else pure []
  let row ← g.anyExpr
  let passing ← if ← word? "PASSING" then commaSeparated (xmlArgument g) else pure []
  word "COLUMNS"
  let columns ← commaSeparated (xmlColumn g)
  symbol ")"
  let aliasName ← tableAlias g
  return "XMLTABLE(" ++
    (if namespaces.isEmpty then "" else "XMLNAMESPACES(" ++ commas namespaces ++ "), ") ++
    row.print ++ listClause " PASSING " passing ++ " COLUMNS " ++ commas columns ++ ")" ++
    aliasText aliasName

/-- The elements of arrays as a table, after the first word. The word `WITH` after the alias is passed
over also when no offset follows. -/
def unnest (g : Grammar) : Parser String := do
  let arrays ← parens g.exprs
  let ordinality ← words? ["WITH", "ORDINALITY"]
  let aliasName ← tableAlias g
  let offset ← if ← word? "WITH" then word? "OFFSET" else pure false
  let offsetName ← if offset then alias? reservedForColumn else pure none
  return "UNNEST(" ++ commas (arrays.map Expr.print) ++ ")" ++
    (if ordinality then " WITH ORDINALITY" else "") ++ aliasText aliasName ++
    (if offset then " WITH OFFSET" else "") ++ clause " " (offsetName.map Ident.print)

/-! ### Table phrases -/

/-- The arguments of a table function, after the opening parenthesis, with the closing one. -/
def tableArgs (g : Grammar) : Parser (List Expr) := do
  if ← symbol? ")" then return []
  let args ← commaSeparated (arg g)
  symbol ")"
  return args

/-- A query in parentheses, after the opening one. -/
def derived (g : Grammar) (isLateral : Bool) : Parser Factor := do
  let q ← g.query
  symbol ")"
  return .derived isLateral q (← tableAlias g)

/-- A table by its name, or a call of a table function. -/
def namedTable (g : Grammar) : Parser Factor := do
  let name ← objectName
  let args ← if ← symbol? "(" then do pure (some (← tableArgs g)) else pure none
  let ordinality ← words? ["WITH", "ORDINALITY"]
  let aliasName ← tableAlias g
  let hints ← if (← nextIsWord "WITH") && (← peekAt 1).token == .symbol "(" then do
      let _ ← next
      parens g.exprs
    else pure []
  let sample ← sample? g
  let plain : Factor := match args with
    | none => .table name aliasName
    | some args => .function false name args aliasName
  if ordinality || !hints.isEmpty || sample.isSome then
    let bare : Factor := match args with
      | none => .table name none
      | some args => .function false name args none
    pivots g (.phrase (bare.print ++ (if ordinality then " WITH ORDINALITY" else "") ++
      aliasText aliasName ++
      (if hints.isEmpty then "" else " WITH (" ++ commas (hints.map Expr.print) ++ ")") ++
      clause " " sample))
  else pivots g plain

/-- A keyword and an opening parenthesis, if both come next. -/
def wordAndParen? (k : String) : Parser Bool := do
  if (← nextIsWord k) && (← peekAt 1).token == .symbol "(" then
    let _ ← next
    let _ ← next
    return true
  else return false

/-- The condition of a join. -/
def joinConstraint (g : Grammar) (natural : Bool) : Parser Constraint := do
  if natural then return .natural
  else if ← word? "ON" then return .on (← g.anyExpr)
  else if ← word? "USING" then
    if ← symbol? "(" then
      let columns ← commaSeparated objectName
      symbol ")"
      return .byColumns columns
    else expected "a list of columns in parentheses"
  else return .none

/-- The kind of a join after `LEFT` or `RIGHT`. -/
def sidedJoin (isLeft : Bool) : Parser JoinKind := do
  match ← oneOf? ["OUTER", "SEMI", "ANTI", "JOIN"] with
  | some "OUTER" =>
    word "JOIN"
    return if isLeft then .leftOuter else .rightOuter
  | some "SEMI" =>
    word "JOIN"
    return if isLeft then .leftSemi else .rightSemi
  | some "ANTI" =>
    word "JOIN"
    return if isLeft then .leftAnti else .rightAnti
  | some _ => return if isLeft then .left else .right
  | none =>
    failWith ("expected OUTER, SEMI, ANTI or JOIN after " ++ (if isLeft then "LEFT" else "RIGHT"))

/-- The kind of a join that may be natural; `none` when no join follows. -/
def joinKind? (natural : Bool) : Parser (Option JoinKind) := do
  match (← peek).key with
  | "JOIN" =>
    let _ ← next
    return some .plain
  | "INNER" =>
    words ["INNER", "JOIN"]
    return some .inner
  | "LEFT" =>
    let _ ← next
    return some (← sidedJoin true)
  | "RIGHT" =>
    let _ ← next
    return some (← sidedJoin false)
  | "ANTI" =>
    words ["ANTI", "JOIN"]
    return some .anti
  | "SEMI" =>
    words ["SEMI", "JOIN"]
    return some .semi
  | "FULL" =>
    let _ ← next
    let _ ← word? "OUTER"
    word "JOIN"
    return some .full
  | "OUTER" => expected "LEFT, RIGHT, or FULL"
  | "STRAIGHT_JOIN" =>
    let _ ← next
    return some .straight
  | _ => if natural then expected "a join type after NATURAL" else return none

/-- One join after the table phrase `left`; `factor` reads a table phrase. -/
def join? (g : Grammar) (factor : Parser Factor) (left : Table) : Parser (Option Table) := do
  let isGlobal ← word? "GLOBAL"
  if ← word? "CROSS" then
    let kind ← match ← oneOf? ["JOIN", "APPLY"] with
      | some "JOIN" => pure JoinKind.cross
      | some _ => pure JoinKind.crossApply
      | none => expected "JOIN or APPLY after CROSS"
    return some (.joined left isGlobal kind (← factor) none .none)
  else if ← word? "OUTER" then
    word "APPLY"
    return some (.joined left isGlobal .outerApply (← factor) none .none)
  else if ← word? "ASOF" then
    word "JOIN"
    let right ← factor
    word "MATCH_CONDITION"
    let condition ← parens g.anyExpr
    return some (.joined left isGlobal .asOf right (some condition.print)
      (← joinConstraint g false))
  else
    let natural ← word? "NATURAL"
    match ← joinKind? natural with
    | none => return none
    | some kind =>
      let right ← factor
      return some (.joined left isGlobal kind right none (← joinConstraint g natural))

/-- A table phrase and the joins after it, and whether there are any. -/
def joins (g : Grammar) (factor : Parser Factor) (start : Factor) : Parser (Table × Bool) :=
  repeatFrom (.factor start, false) fun (t, any) => do
    match ← join? g factor t with
    | some t => return .inl (t, true)
    | none => return .inr (t, any)

/-- A table phrase, and whether it is a join in parentheses. `fuel` bounds the nesting of
parentheses. -/
def tableFactor (g : Grammar) : Nat → Parser (Factor × Bool)
  | 0 => expected "identifier"
  | fuel + 1 => do
    if ← word? "LATERAL" then
      if ← symbol? "(" then return (← derived g true, false)
      else
        let name ← objectName
        symbol "("
        let args ← tableArgs g
        return (.function true name args (← tableAlias g), false)
    else if ← word? "TABLE" then
      let e ← parens g.anyExpr
      return (.phrase ("TABLE(" ++ e.print ++ ")" ++ aliasText (← tableAlias g)), false)
    else if ← symbol? "(" then
      match ← attempt (derived g false) with
      | some t => return (← pivots g t, false)
      | none =>
        let (first, nested) ← tableFactor g fuel
        let (t, any) ← joins g (Prod.fst <$> tableFactor g fuel) first
        if any || nested then
          symbol ")"
          return (.phrase ("(" ++ t.print ++ ")" ++ aliasText (← tableAlias g)), true)
        else expected "joined table"
    else if ← word? "UNNEST" then return (.phrase (← unnest g), false)
    else if ← wordAndParen? "JSON_TABLE" then return (.phrase (← jsonTable g), false)
    else if ← wordAndParen? "OPENJSON" then return (.phrase (← openJson g), false)
    else if ← wordAndParen? "XMLTABLE" then return (.phrase (← xmlTable g), false)
    else return (← namedTable g, false)

/-- A table phrase. -/
def table (g : Grammar) : Parser Factor := do
  return (← tableFactor g ((← remaining) + 1)).1

/-- A table phrase with the joins after it. -/
def tableWithJoins (g : Grammar) : Parser Table := do
  let first ← table g
  return (← joins g (table g) first).1

/-- One or more table phrases with commas between them. -/
def tables (g : Grammar) : Parser (List Table) :=
  commaSeparated (tableWithJoins g)

end SqlLayout.Sql.Parser
